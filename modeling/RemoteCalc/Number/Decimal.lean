import RemoteCalc.Number.Rank

/-!
# Decimals and the doubles they read as

A `Decimal` is a coefficient and a power of ten.  `Decimal.rank` rounds it to
the nearest rank, exactly, at any size.  `Decimal.ofRank` goes the other way and
picks the decimal with the fewest digits that rounds to a given rank: it looks at
coarser grids of powers of ten before finer ones and, on each grid, at the two
points next to the double.
-/

namespace RemoteCalc.Number

def digitCount (n : Nat) : Nat := (Nat.toDigits 10 n).length

structure Decimal where
  coefficient : Nat
  exponent : Int
  deriving DecidableEq, Repr

namespace Decimal

def inSteps (decimal : Decimal) : Nat × Nat :=
  if 0 ≤ decimal.exponent then
    (decimal.coefficient * Nat.pow 10 decimal.exponent.toNat * stepsPerUnit, 1)
  else
    (decimal.coefficient * stepsPerUnit, Nat.pow 10 (-decimal.exponent).toNat)

/--
The nearest rank.  Exponents so large that any coefficient overflows, and so
small that any of that length vanishes, are answered without computing the power.
-/
def rank (decimal : Decimal) : Nat :=
  if decimal.coefficient = 0 then 0
  else if 400 < decimal.exponent then infiniteRank
  else if digitCount decimal.coefficient + decimal.exponent < -400 then 0
  else
    let (num, den) := decimal.inSteps
    min (nearestRank num den) infiniteRank

def leadingExponent (decimal : Decimal) : Int :=
  decimal.exponent + digitCount decimal.coefficient - 1

def exponentOfSteps (size : Nat) : Int :=
  if stepsPerUnit ≤ size then digitCount (size / stepsPerUnit) - 1
  else -digitCount ((stepsPerUnit - 1) / size)

def scaled (size : Nat) (exponent : Int) : Nat × Nat :=
  if 0 ≤ exponent then (size, stepsPerUnit * Nat.pow 10 exponent.toNat)
  else (size * Nat.pow 10 (-exponent).toNat, stepsPerUnit)

/--
The point of one decimal grid that reads back as the rank, if either neighbour
does.  When both do the nearer one is taken, and the upper one at equal distance.
-/
def onGrid? (target : Nat) (exponent : Int) : Option Decimal :=
  let (num, den) := scaled (steps target) exponent
  let lower : Decimal := ⟨num / den, exponent⟩
  let upper : Decimal := ⟨num / den + 1, exponent⟩
  match decide (lower.rank = target), decide (upper.rank = target) with
  | true, true => some (if 2 * (num % den) < den then lower else upper)
  | true, false => some lower
  | false, true => some upper
  | false, false => none

def search (target : Nat) : Nat → Int → Decimal
  | 0, exponent =>
      let (num, den) := scaled (steps target) exponent
      ⟨num / den, exponent⟩
  | finer + 1, exponent =>
      match onGrid? target exponent with
      | some decimal => decimal
      | none => search target finer (exponent - 1)

/-- Seventeen digits always tell two doubles apart, so no finer grid is needed. -/
def maxDigits : Nat := 17

/--
The decimal with the fewest digits that rounds to the rank.  The search starts one
grid above the leading digit, where the next power of ten may already be a hit.
-/
def ofRank (target : Nat) : Decimal :=
  if target = 0 then ⟨0, 0⟩
  else search target (maxDigits + 1) (exponentOfSteps (steps target) + 1)

end Decimal

end RemoteCalc.Number
