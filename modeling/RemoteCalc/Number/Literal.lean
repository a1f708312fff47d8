import RemoteCalc.Number.Decimal
import RemoteCalc.Number.Natural

/-!
# Reading a number

A number is an optional sign followed by a decimal (digits with an optional
point, at least one digit, an optional exponent) or by one of the words `inf`,
`infinity` and `nan` in any letter case.  Nothing may follow.  The value is the
nearest double.
-/

namespace RemoteCalc.Number

inductive Literal where
  | decimal (value : Decimal)
  | infinity
  | notANumber
  deriving DecidableEq, Repr

namespace Literal

def exponent? : List Char → Option Int
  | [] => some 0
  | mark :: cs =>
      if mark = 'e' ∨ mark = 'E' then
        match cs with
        | '-' :: rest => (natural? rest).map fun n => -(n : Int)
        | '+' :: rest => (natural? rest).map fun n => (n : Int)
        | rest => (natural? rest).map fun n => (n : Int)
      else none

def fraction : List Char → List Char × List Char
  | '.' :: cs => (cs.takeWhile Char.isDigit, cs.dropWhile Char.isDigit)
  | cs => ([], cs)

def decimal? (cs : List Char) : Option Decimal :=
  let whole := cs.takeWhile Char.isDigit
  let (places, rest) := fraction (cs.dropWhile Char.isDigit)
  if whole = [] ∧ places = [] then none
  else
    (exponent? rest).map fun exponent =>
      ⟨digitValue (whole ++ places), exponent - places.length⟩

def ofChars? (cs : List Char) : Option Literal :=
  match decimal? cs with
  | some value => some (.decimal value)
  | none =>
      let word := cs.map Char.toLower
      if word = "inf".toList ∨ word = "infinity".toList then some .infinity
      else if word = "nan".toList then some .notANumber
      else none

def value (negative : Bool) : Literal → Float
  | .decimal parsed => ofRank negative parsed.rank
  | .infinity => ofRank negative infiniteRank
  | .notANumber => Number.notANumber

end Literal

def read? : List Char → Option Float
  | '-' :: cs => (Literal.ofChars? cs).map (Literal.value true)
  | '+' :: cs => (Literal.ofChars? cs).map (Literal.value false)
  | cs => (Literal.ofChars? cs).map (Literal.value false)

end RemoteCalc.Number
