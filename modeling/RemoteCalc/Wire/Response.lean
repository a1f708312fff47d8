import RemoteCalc.Number.Layout
import RemoteCalc.Wire.Field

/-!
# Responses

A response carries a result, an error that the server reports, and the tag of the
server, and travels as `RES:15.7;ERR:NULL;STYPE:iterative_tcp;`.  The two texts
are cleaned on the way out, so that no text can end a field early, leave ASCII or
exceed its width.
-/

namespace RemoteCalc.Wire

structure Response where
  result : Float
  error : Option String
  tag : String
  deriving DecidableEq

namespace Response

def errorWidth : Nat := 255

@[simp] theorem errorWidth_eq : errorWidth = 255 := rfl

def tagWidth : Nat := 127

@[simp] theorem tagWidth_eq : tagWidth = 127 := rfl

def noError : List Char := "NULL".toList

def noTag : List Char := ['?']

def success (result : Float) (tag : String) : Response := ⟨result, none, tag⟩

/-- A request that was understood but not satisfied; an empty error is none. -/
def failure (error tag : String) : Response :=
  ⟨0, if error = "" then none else some error, tag⟩

def cleanChar (c : Char) : Char :=
  if c = ';' then ','
  else if ' ' ≤ c ∧ c ≤ '~' then c
  else '?'

def clean (width : Nat) (text : String) : List Char :=
  (text.toList.map cleanChar).take width

def errorField : Option String → List Char
  | none => noError
  | some error => if error = "" then noError else clean errorWidth error

def tagField (tag : String) : List Char :=
  if tag = "" then noTag else clean tagWidth tag

def encode (response : Response) : Bytes :=
  ofChars
    (field "RES" (Number.write response.result) ++
      field "ERR" (errorField response.error) ++
      field "STYPE" (tagField response.tag))

def errorOfField (value : List Char) : Option String :=
  if value = noError then none else some (String.ofList value)

def decode (frame : Bytes) : Except FrameFault Response := do
  let text ← frameChars frame
  let (result, text) ← takeField "RES" numberWidth text
  let result ← numberOfField result
  let (error, text) ← takeField "ERR" errorWidth text
  let (tag, text) ← takeField "STYPE" tagWidth text
  finish text
  return ⟨result, errorOfField error, String.ofList tag⟩

end Response

end RemoteCalc.Wire
