import RemoteCalc.Operation
import RemoteCalc.Number.Layout
import RemoteCalc.Wire.Field

/-!
# Requests

A request names an operation and two operands and travels as
`OP:ADD;OP1:10.5;OP2:5.2;`.
-/

namespace RemoteCalc.Wire

structure Request where
  operation : Operation
  lhs : Float
  rhs : Float
  deriving DecidableEq

def operationOfCode (code : String) : Except FrameFault Operation :=
  match Operation.ofCode? code with
  | some operation => .ok operation
  | none => .error (.unknownOperation code)

namespace Request

def codeWidth : Nat := 3

@[simp] theorem codeWidth_eq : codeWidth = 3 := rfl

def encode (request : Request) : Bytes :=
  ofChars
    (field "OP" request.operation.code.toList ++
      field "OP1" (Number.write request.lhs) ++
      field "OP2" (Number.write request.rhs))

def decode (frame : Bytes) : Except FrameFault Request := do
  let text ← frameChars frame
  let (code, text) ← takeField "OP" codeWidth text
  let operation ← operationOfCode (String.ofList code)
  let (lhs, text) ← takeField "OP1" numberWidth text
  let lhs ← numberOfField lhs
  let (rhs, text) ← takeField "OP2" numberWidth text
  let rhs ← numberOfField rhs
  finish text
  return ⟨operation, lhs, rhs⟩

end Request

end RemoteCalc.Wire
