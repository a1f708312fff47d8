import RemoteCalc.Operation

/-!
# The calculator

What a server computes: four operations on doubles, of which only a division by
zero, of either sign, has no result.
-/

namespace RemoteCalc.Calculator

inductive ArithmeticFault where
  | divisionByZero
  | unsupported (operation : Operation)
  deriving DecidableEq, Repr

def ArithmeticFault.message : ArithmeticFault → String
  | divisionByZero => "Division by zero"
  | unsupported operation => "Invalid operation: " ++ operation.code

def evaluate (operation : Operation) (lhs rhs : Float) :
    Except ArithmeticFault Float :=
  match operation with
  | .add => .ok (lhs + rhs)
  | .subtract => .ok (lhs - rhs)
  | .multiply => .ok (lhs * rhs)
  | .divide => if rhs == 0 then .error .divisionByZero else .ok (lhs / rhs)
  | .exit => .error (.unsupported .exit)

end RemoteCalc.Calculator
