import JsxLint.Failure
import JsxLint.Files.Path
import JsxLint.Tree.Fault

/-!
What the linter reports about its own work, and computations that keep such a record. A failed
computation keeps what was recorded before it failed.
-/

namespace JsxLint

inductive Level where
  | debug
  | info
  | warning
deriving DecidableEq, Repr

def Level.word : Level → String
  | debug => "DEBUG"
  | info => "INFO"
  | warning => "WARNING"

inductive Event where
  | parsedWithFaults (count : Nat)
  | faultsFound (path : Path) (count : Nat) (first : Fault)
  | bindingsCollected (scopes : Nat)
  | replacementFound (path : Path) (line : Nat) (generic specific : String)
  | alreadyImported (component : String)
  | fixDeferred (path : Path) (line : Int)
  | passFinished (path : Path) (pass fixed : Nat)
  | passLimitReached (path : Path)
  /-- A configuration file could not be used. Why is not recorded, and the message says so by a
  placeholder. -/
  | configurationIgnored (path : Path)
  | wrongSetting (path : Path) (key fallback : String)
  | lintingFailed (path : Path)
deriving DecidableEq, Repr

namespace Event

def level : Event → Level
  | .parsedWithFaults .. | .bindingsCollected .. | .replacementFound .. | .alreadyImported ..
  | .fixDeferred .. | .lintingFailed .. => .debug
  | .passFinished .. => .info
  | .faultsFound .. | .passLimitReached .. | .configurationIgnored .. | .wrongSetting .. => .warning

/-- The part of the program an event comes from. -/
def channel : Event → String
  | .parsedWithFaults .. => "chakra_tree_sitter.parser"
  | .bindingsCollected .. => "chakra_symbols.extractor"
  | .replacementFound .. => "chakra_linter.rules.specific_component"
  | .alreadyImported .. => "chakra_linter.fixes"
  | .fixDeferred .. => "chakra_linter.autofix"
  | .faultsFound .. | .passFinished .. | .passLimitReached .. => "chakra_linter.engine"
  | .configurationIgnored .. | .wrongSetting .. => "chakra_cli.config"
  | .lintingFailed .. => "chakra_cli.main"

def message : Event → String
  | .parsedWithFaults count => "Parsed source with " ++ toString count ++ " syntax error(s)"
  | .faultsFound path count first =>
    path.render ++ ": " ++ toString count ++ " syntax error(s), first: " ++ first.message
  | .bindingsCollected scopes => "Extracted bindings for " ++ toString scopes ++ " scope(s)"
  | .replacementFound path line generic specific =>
    path.render ++ ":" ++ toString line ++ ": " ++ generic ++ " -> " ++ specific
  | .alreadyImported component => "'" ++ component ++ "' is already imported"
  | .fixDeferred path line =>
    "Deferring fix for " ++ path.render ++ ":" ++ toString line ++ " (overlaps another fix)"
  | .passFinished path pass fixed =>
    path.render ++ ": pass " ++ toString pass ++ " fixed " ++ toString fixed ++ " issue(s)"
  | .passLimitReached path => path.render ++ ": reached max fix passes"
  | .configurationIgnored path => "Ignoring config file " ++ path.render ++ ": <reason>"
  | .wrongSetting path key fallback =>
    path.render ++ ": '" ++ key ++ "' must be a list of strings, using " ++ fallback
  | .lintingFailed path => "Linting " ++ path.render ++ " failed"

def line (event : Event) : String :=
  event.level.word ++ ": " ++ event.channel ++ ": " ++ event.message

end Event

/-- A computation that can fail, with the events recorded on the way. -/
structure Logged (α : Type) where
  events : List Event
  result : Except Failure α

namespace Logged

variable {α β : Type}

def bind (x : Logged α) (f : α → Logged β) : Logged β :=
  match x.result with
  | .ok a => ⟨x.events ++ (f a).events, (f a).result⟩
  | .error cause => ⟨x.events, .error cause⟩

instance : Monad Logged where
  pure a := ⟨[], .ok a⟩
  bind := bind

/-- A computation that records nothing. -/
def ofExcept (result : Except Failure α) : Logged α :=
  ⟨[], result⟩

instance : MonadLift (Except Failure) Logged where
  monadLift := ofExcept

def record (events : List Event) : Logged Unit :=
  ⟨events, .ok ()⟩

@[simp] theorem result_pure (a : α) : (pure a : Logged α).result = .ok a := rfl

@[simp] theorem result_ofExcept (result : Except Failure α) : (ofExcept result).result = result :=
  rfl

@[simp] theorem result_record (events : List Event) : (record events).result = .ok () := rfl

theorem bind_eq (x : Logged α) (f : α → Logged β) : x >>= f = x.bind f := rfl

instance : LawfulMonad Logged :=
  LawfulMonad.mk' Logged
    (fun x => by
      obtain ⟨events, result⟩ := x
      cases result <;> simp [Functor.map, bind])
    (fun a f => by simp [bind_eq, bind, pure])
    (fun x f g => by
      obtain ⟨events, result⟩ := x
      cases result with
      | error cause => rfl
      | ok a =>
        simp only [bind_eq, bind]
        cases (f a).result <;> simp [List.append_assoc])

/-- The record has no influence on the result. -/
@[simp] theorem result_bind (x : Logged α) (f : α → Logged β) :
    (x >>= f).result = x.result >>= fun a => (f a).result := by
  change (bind x f).result = x.result.bind _
  unfold bind
  cases x.result <;> rfl

end Logged
end JsxLint
