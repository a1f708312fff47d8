import RemoteCalc.Number.Decimal

/-!
# Writing a number

`write` is the form that frames carry: the fewest digits that read back, written
positionally while the leading digit stands between the fourth decimal place and
the seventeenth digit before the point, and with an exponent outside that range.
`writePlaces` is the form that people are shown, with a fixed number of places.
-/

namespace RemoteCalc.Number

structure PositionalRange where
  lowest : Int
  above : Int

/-- From `0.0001` up to seventeen digits before the point. -/
def wireRange : PositionalRange := ⟨-4, 17⟩

def digits (n : Nat) : List Char := Nat.toDigits 10 n

def mantissa : List Char → List Char
  | [] => []
  | [digit] => [digit]
  | digit :: places => digit :: '.' :: places

def exponentPart (exponent : Int) : List Char :=
  let shown := digits exponent.natAbs
  'e' :: (if exponent < 0 then '-' else '+') ::
    (List.replicate (2 - shown.length) '0' ++ shown)

/-- The digits with zeros on either side as far as the point requires. -/
def positional (decimal : Decimal) : List Char :=
  let shown := digits decimal.coefficient
  if 0 ≤ decimal.exponent then
    shown ++ List.replicate decimal.exponent.toNat '0'
  else
    let places := (-decimal.exponent).toNat
    let padded := List.replicate (places + 1 - shown.length) '0' ++ shown
    let whole := padded.length - places
    padded.take whole ++ '.' :: padded.drop whole

def layout (range : PositionalRange) (decimal : Decimal) : List Char :=
  let exponent := decimal.leadingExponent
  if range.lowest ≤ exponent ∧ exponent < range.above then positional decimal
  else mantissa (digits decimal.coefficient) ++ exponentPart exponent

def signed (negative : Bool) (text : List Char) : List Char :=
  if negative then '-' :: text else text

def write (value : Float) : List Char :=
  match shape value with
  | .notANumber => "nan".toList
  | .infinite negative => signed negative "inf".toList
  | .finite negative rank =>
      signed negative (layout wireRange (Decimal.ofRank rank))

def roundDiv (num den : Nat) : Nat :=
  let quotient := num / den
  let twice := 2 * (num % den)
  if twice < den then quotient
  else if den < twice then quotient + 1
  else quotient + quotient % 2

def writePlaces (places : Nat) (value : Float) : List Char :=
  match shape value with
  | .notANumber => "NaN".toList
  | .infinite negative => signed negative "inf".toList
  | .finite negative rank =>
      let units := roundDiv (steps rank * Nat.pow 10 places) stepsPerUnit
      signed negative (positional ⟨units, -places⟩)

end RemoteCalc.Number
