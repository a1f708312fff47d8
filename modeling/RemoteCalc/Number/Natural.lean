/-!
# Reading natural numbers

Digits and nothing else, or digits after an optional plus sign and up to a limit.
-/

namespace RemoteCalc.Number

def digitValue (cs : List Char) : Nat := Nat.ofDigitChars 10 cs 0

def natural? (cs : List Char) : Option Nat :=
  if cs ≠ [] ∧ cs.all Char.isDigit then some (digitValue cs) else none

def atMost? (limit n : Nat) : Option Nat := if n ≤ limit then some n else none

def hexDigit? (c : Char) : Option Nat :=
  if '0' ≤ c ∧ c ≤ '9' then some (c.toNat - '0'.toNat)
  else if 'a' ≤ c ∧ c ≤ 'f' then some (c.toNat - 'a'.toNat + 10)
  else if 'A' ≤ c ∧ c ≤ 'F' then some (c.toNat - 'A'.toNat + 10)
  else none

def unsigned? (limit : Nat) : List Char → Option Nat
  | '+' :: cs => (natural? cs).bind (atMost? limit)
  | cs => (natural? cs).bind (atMost? limit)

end RemoteCalc.Number
