import RemoteCalc.Wire.Frame
import RemoteCalc.Number.Literal

/-!
# Fields

A field is a key, a colon, a value without semicolons and a semicolon.  Fields
are taken off the front of a text one at a time, in a fixed order; each has a
greatest width, and none may be empty.
-/

namespace RemoteCalc.Wire

def numberWidth : Nat := 64

@[simp] theorem numberWidth_eq : numberWidth = 64 := rfl

def field (key : String) (value : List Char) : List Char :=
  key.toList ++ ':' :: value ++ [';']

def takeField (key : String) (width : Nat) (text : List Char) :
    Except FrameFault (List Char × List Char) :=
  match (key.toList ++ [':']).isPrefixOf? text with
  | none => .error (.expectedField key)
  | some body =>
      let value := body.takeWhile (· ≠ ';')
      match body.dropWhile (· ≠ ';') with
      | [] => .error (.unterminatedField key)
      | _ :: rest =>
          if value = [] then .error (.emptyField key)
          else if width < value.length then .error (.longField key width)
          else .ok (value, rest)

def numberOfField (value : List Char) : Except FrameFault Float :=
  match Number.read? value with
  | some result => .ok result
  | none => .error (.invalidNumber (String.ofList value))

end RemoteCalc.Wire
