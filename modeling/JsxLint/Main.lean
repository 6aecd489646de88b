import JsxLint.Command.Run
import JsxLint.Tree.Listing
import JsxLint.Tree.Plain

/-!
The command line program. The syntax trees of all sources that a run meets are read from standard
input; the files below the current folder are read before the run and written back after it.
-/

namespace JsxLint
namespace Main

/-- Everything at and below an entry of a folder. -/
partial def readEntry (entry : IO.FS.DirEntry) : IO Entry := do
  if ← entry.path.isDir then
    let entries ← (← entry.path.readDir).toList.mapM fun inner => do
      return (inner.fileName, ← readEntry inner)
    return .folder entries
  else
    return .file (← IO.FS.readBinFile entry.path).data.toList

/-- The files below the current folder. -/
def readStore : IO Store := do
  let folder ← IO.currentDir
  let location := (Path.ofString folder.toString).parts
  let entries ← (← folder.readDir).toList.mapM fun entry => do
    return (entry.fileName, ← readEntry entry)
  return { root := (Entry.folder []).put location (.folder entries), current := location }

/-- Writes the files whose content is new. -/
def writeChanges (old new : Store) : IO Unit := do
  let below := ((new.root.get? new.current).map (·.descendants)).getD []
  for location in below do
    let path : Path := ⟨"", location⟩
    match old.read? path, new.read? path with
    | some before, some after =>
      if before ≠ after then IO.FS.writeBinFile path.render ⟨after.toArray⟩
    | _, _ => pure ()

/-- The whole of a stream. -/
partial def readAll (stream : IO.FS.Stream) (text : String) : IO String := do
  let line ← stream.getLine
  if line.isEmpty then return text else readAll stream (text ++ line)

end Main
end JsxLint

open JsxLint in
def main (arguments : List String) : IO UInt32 := do
  let forest := Forest.ofText (← Main.readAll (← IO.getStdin) "")
  let store ← Main.readStore
  let parse := fun source => (forest.lookup source).getD (Tree.ofPlain source)
  let run := Command.run parse Registry.builtin store arguments
  Main.writeChanges store run.store
  IO.print run.stdout
  IO.eprint run.stderr
  match run.failure with
  | some cause => IO.eprintln cause.message
  | none => pure ()
  return run.exitCode.toUInt32
