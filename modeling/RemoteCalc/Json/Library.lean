import RemoteCalc.Json.Value

/-!
# JSON libraries

What a program takes from a JSON library: readers for simple values, for lists, records and
words, a way to read a whole text with them, and writers.
-/

namespace RemoteCalc.Json

abbrev Reader (α : Type) := Value → Option α

structure Library where
  fromText {α : Type} (read : Reader α) (text : List Char) : Except String α
  string : Reader String
  /-- Something that is written as a string. -/
  parsed {α : Type} (parse : List Char → Option α) : Reader α
  natural (limit : Nat) : Reader Nat
  list {α : Type} (item : Reader α) : Reader (List α)
  /-- The values of the fields with these names, in the order of the names. -/
  record (names : List String) : Reader (List Value)
  word (words : List String) : Reader String
  writeString (text : String) : List Char
  writeNatural (n : Nat) : List Char
  writeRecord (members : List (String × List Char)) : List Char

end RemoteCalc.Json
