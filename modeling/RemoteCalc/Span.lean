/-!
# Spans of time

A span is a whole number of nanoseconds.  It is shown in the largest of the
units s, ms, µs and ns that it fills at least once, with as many decimal places
as it needs.
-/

namespace RemoteCalc

structure Span where
  nanos : Nat
  deriving DecidableEq, Repr

namespace Span

def ofParts (seconds nanos : Nat) : Span := ⟨seconds * 1000000000 + nanos⟩

def ofSeconds (seconds : Nat) : Span := ofParts seconds 0

def ofMillis (millis : Nat) : Span := ⟨millis * 1000000⟩

def seconds (span : Span) : Nat := span.nanos / 1000000000

def subsecond (span : Span) : Nat := span.nanos % 1000000000

/-- The places of `part / 10 ^ width` without zeros at the end. -/
def places (part width : Nat) : List Char :=
  let shown := Nat.toDigits 10 part
  let padded := List.replicate (width - shown.length) '0' ++ shown
  (padded.reverse.dropWhile (· == '0')).reverse

def inUnits (nanos width : Nat) : List Char :=
  let whole := Nat.toDigits 10 (nanos / Nat.pow 10 width)
  match places (nanos % Nat.pow 10 width) width with
  | [] => whole
  | shown => whole ++ '.' :: shown

def text (span : Span) : String :=
  if 1000000000 ≤ span.nanos then String.ofList (inUnits span.nanos 9) ++ "s"
  else if 1000000 ≤ span.nanos then String.ofList (inUnits span.nanos 6) ++ "ms"
  else if 1000 ≤ span.nanos then String.ofList (inUnits span.nanos 3) ++ "µs"
  else String.ofList (inUnits span.nanos 0) ++ "ns"

end Span

end RemoteCalc
