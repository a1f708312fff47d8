import RemoteCalc.Json.Token

/-!
# JSON values

A value prints as exactly one row of tokens, and reading a row of tokens gives
the value that prints as it, if there is one.  The reader keeps a stack of the
arrays and objects that are still open, so that it takes one step a token and
nesting costs nothing.
-/

namespace RemoteCalc.Json

inductive Value where
  | null
  | bool (value : Bool)
  | number (literal : List Char)
  | string (pieces : List Piece)
  | array (items : List Value)
  | object (members : List (List Piece × Value))

/-! ## Printing as tokens -/

mutual

def Value.tokens : Value → List Token
  | .null => [.null]
  | .bool value => [.bool value]
  | .number literal => [.number literal]
  | .string pieces => [.string pieces]
  | .array items => .openArray :: itemTokens items ++ [.closeArray]
  | .object members => .openObject :: memberTokens members ++ [.closeObject]

def itemTokens : List Value → List Token
  | [] => []
  | [item] => item.tokens
  | item :: next :: rest =>
      item.tokens ++ .comma :: itemTokens (next :: rest)

def memberTokens : List (List Piece × Value) → List Token
  | [] => []
  | [(key, value)] => .string key :: .colon :: value.tokens
  | (key, value) :: next :: rest =>
      .string key :: .colon :: value.tokens ++
        .comma :: memberTokens (next :: rest)

end

/-! ## Reading tokens -/

/-- An array or object that is still open, with what it holds so far in reverse. -/
inductive Open where
  | array (done : List Value)
  | object (done : List (List Piece × Value))
  | member (done : List (List Piece × Value)) (key : List Piece)

inductive Expectation where
  | value
  | firstItem
  | firstKey
  | key
  | colon
  | separator
  deriving DecidableEq, Repr

inductive Reading where
  | finished (value : Value)
  | within (stack : List Open) (next : Expectation)

def settle (value : Value) : List Open → Option Reading
  | [] => some (.finished value)
  | .array done :: stack => some (.within (.array (value :: done) :: stack) .separator)
  | .member done key :: stack =>
      some (.within (.object ((key, value) :: done) :: stack) .separator)
  | .object _ :: _ => none

def beginValue (stack : List Open) : Token → Option Reading
  | .null => settle .null stack
  | .bool value => settle (.bool value) stack
  | .number literal => settle (.number literal) stack
  | .string pieces => settle (.string pieces) stack
  | .openArray => some (.within (.array [] :: stack) .firstItem)
  | .openObject => some (.within (.object [] :: stack) .firstKey)
  | _ => none

def beginMember : List Open → Token → Option Reading
  | .object done :: stack, .string key =>
      some (.within (.member done key :: stack) .colon)
  | _, _ => none

def separate : List Open → Token → Option Reading
  | .array done :: stack, .comma => some (.within (.array done :: stack) .value)
  | .array done :: stack, .closeArray => settle (.array done.reverse) stack
  | .object done :: stack, .comma => some (.within (.object done :: stack) .key)
  | .object done :: stack, .closeObject => settle (.object done.reverse) stack
  | _, _ => none

def Reading.step : Reading → Token → Option Reading
  | .finished _, _ => none
  | .within stack .value, token => beginValue stack token
  | .within (.array [] :: stack) .firstItem, .closeArray => settle (.array []) stack
  | .within stack .firstItem, token => beginValue stack token
  | .within (.object [] :: stack) .firstKey, .closeObject => settle (.object []) stack
  | .within stack .firstKey, token => beginMember stack token
  | .within stack .key, token => beginMember stack token
  | .within stack .colon, .colon => some (.within stack .value)
  | .within _ .colon, _ => none
  | .within stack .separator, token => separate stack token

def Reading.run : Reading → List Token → Option Reading
  | reading, [] => some reading
  | reading, token :: tokens =>
      match reading.step token with
      | none => none
      | some reading => run reading tokens

def Value.ofTokens? (tokens : List Token) : Option Value :=
  match Reading.run (.within [] .value) tokens with
  | some (.finished value) => some value
  | _ => none

def Value.ofChars? (cs : List Char) : Option Value :=
  (scan? cs).bind Value.ofTokens?

end RemoteCalc.Json
