import PubSub.Double

/-!
Spans of time, counted in nanoseconds, and the two texts written for them.
-/

namespace PubSub

/-- A span of time. -/
structure Span where
  nanos : Nat
deriving DecidableEq, Inhabited

namespace Span

def zero : Span := ⟨0⟩
def ofSecs (n : Nat) : Span := ⟨n * 1000000000⟩
def ofMillis (n : Nat) : Span := ⟨n * 1000000⟩
def ofParts (secs nanos : Nat) : Span := ⟨secs * 1000000000 + nanos⟩

/-- The whole seconds of the span. -/
def secs (s : Span) : Nat := s.nanos / 1000000000

/-- What is left of the span beside its whole seconds. -/
def subsec (s : Span) : Nat := s.nanos % 1000000000

instance : LT Span := ⟨fun a b => a.nanos < b.nanos⟩
instance : LE Span := ⟨fun a b => a.nanos ≤ b.nanos⟩
instance (a b : Span) : Decidable (a < b) := inferInstanceAs (Decidable (a.nanos < b.nanos))
instance (a b : Span) : Decidable (a ≤ b) := inferInstanceAs (Decidable (a.nanos ≤ b.nanos))

/-- `whole` and then `part` of `10 ^ places` as a decimal fraction without zeros at its end. -/
def withFraction (whole part places : Nat) : String :=
  let digits := (toString part).toList
  let padded := List.replicate (places - digits.length) '0' ++ digits
  let kept := (padded.reverse.dropWhile (· = '0')).reverse
  if kept.isEmpty then toString whole else s!"{whole}.{String.ofList kept}"

/-- The span in the largest unit that it fills, without rounding. -/
def text (s : Span) : String :=
  if 1000000000 ≤ s.nanos then withFraction (s.nanos / 1000000000) (s.nanos % 1000000000) 9 ++ "s"
  else if 1000000 ≤ s.nanos then withFraction (s.nanos / 1000000) (s.nanos % 1000000) 6 ++ "ms"
  else if 1000 ≤ s.nanos then withFraction (s.nanos / 1000) (s.nanos % 1000) 3 ++ "µs"
  else s!"{s.nanos}ns"

/-- The span in seconds, rounded to a double. -/
def seconds (s : Span) : Double :=
  .ofFloat (s.secs.toUInt64.toFloat + s.subsec.toUInt64.toFloat / 1000000000.0)

/-- The span in seconds with one decimal place, rounded from the double. -/
def secondsText (s : Span) : String := s.seconds.oneDecimal ++ "s"

end Span

end PubSub
