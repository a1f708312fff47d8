import RemoteCalc.Json.Library
import RemoteCalc.Number.Natural

/-!
# The library that comes with the program

A text is read as one value first and that value then as what it stands for.  Texts are
written without white space.
-/

namespace RemoteCalc.Json

namespace Plain

/-! ## Reading -/

def text? : Reader String
  | .string pieces => (textOfPieces? pieces).map String.ofList
  | _ => none

def natural? (limit : Nat) : Reader Nat
  | .number literal => (Number.natural? literal).bind (Number.atMost? limit)
  | _ => none

def list? {α : Type} (item : Reader α) : Reader (List α)
  | .array items => items.mapM item
  | _ => none

def namedMembers? : List (List Piece × Value) → Option (List (String × Value))
  | [] => some []
  | (key, value) :: rest => do
      let name ← text? (.string key)
      let rest ← namedMembers? rest
      return (name, value) :: rest

def only? (members : List (String × Value)) (name : String) : Option Value :=
  match members.filter fun member => member.1 = name with
  | [(_, value)] => some value
  | _ => none

/-- The values of an array, or of an object that has each field once among any others. -/
def record? (names : List String) : Reader (List Value)
  | .array values => if values.length = names.length then some values else none
  | .object members => (namedMembers? members).bind fun named => names.mapM (only? named)
  | _ => none

/-- The word, or an object whose only member has the word as key and is null. -/
def word? (words : List String) : Reader String
  | .object [(key, .null)] => (text? (.string key)).filter (· ∈ words)
  | value => (text? value).filter (· ∈ words)

def fromText {α : Type} (read : Reader α) (text : List Char) : Except String α :=
  match (Value.ofChars? text).bind read with
  | some result => .ok result
  | none => .error "malformed JSON text"

/-! ## Writing -/

def writeChar (c : Char) : List Char :=
  if c = '"' then ['\\', '"']
  else if c = '\\' then ['\\', '\\']
  else if c = '\x08' then ['\\', 'b']
  else if c = '\x0c' then ['\\', 'f']
  else if c = '\n' then ['\\', 'n']
  else if c = '\r' then ['\\', 'r']
  else if c = '\t' then ['\\', 't']
  else if c < ' ' then
    ['\\', 'u', '0', '0', Nat.digitChar (c.toNat / 16), Nat.digitChar (c.toNat % 16)]
  else [c]

def writeString (text : String) : List Char :=
  '"' :: text.toList.flatMap writeChar ++ ['"']

def writeMember (member : String × List Char) : List Char :=
  writeString member.1 ++ ':' :: member.2

def writeRecord (members : List (String × List Char)) : List Char :=
  '\x7b' :: List.intercalate [','] (members.map writeMember) ++ ['\x7d']

end Plain

def plain : Library where
  fromText := Plain.fromText
  string := Plain.text?
  parsed parse value := (Plain.text? value).bind fun text => parse text.toList
  natural := Plain.natural?
  list := Plain.list?
  record := Plain.record?
  word := Plain.word?
  writeString := Plain.writeString
  writeNatural := Nat.toDigits 10
  writeRecord := Plain.writeRecord

end RemoteCalc.Json
