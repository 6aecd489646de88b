/-!
Half-open ranges of byte offsets.
-/

namespace JsxLint

/-- Offsets from `start` up to but without `stop`. Nothing is said of their order here: the
ranges of a syntax tree come from outside. -/
structure Span where
  start : Nat
  stop : Nat
deriving DecidableEq, Repr, Inhabited

namespace Span

/-- The printed form of a range whose ends are arbitrary numbers. -/
def renderEnds (start stop : Int) : String :=
  "[" ++ toString start ++ ", " ++ toString stop ++ ")"

def render (span : Span) : String :=
  renderEnds span.start span.stop

end Span
end JsxLint
