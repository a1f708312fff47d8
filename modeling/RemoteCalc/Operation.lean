/-!
# Operations

The four arithmetic operations and the request to end a session, with the
three-letter codes that frames carry.
-/

namespace RemoteCalc

inductive Operation where
  | add
  | subtract
  | multiply
  | divide
  | exit
  deriving DecidableEq, Repr

namespace Operation

def code : Operation → String
  | add => "ADD"
  | subtract => "SUB"
  | multiply => "MUL"
  | divide => "DIV"
  | exit => "EXT"

def ofCode? : String → Option Operation
  | "ADD" => some add
  | "SUB" => some subtract
  | "MUL" => some multiply
  | "DIV" => some divide
  | "EXT" => some exit
  | _ => none

def arithmetic : List Operation := [add, subtract, multiply, divide]

theorem map_code :
    [add, subtract, multiply, divide, exit].map code =
      ["ADD", "SUB", "MUL", "DIV", "EXT"] :=
  rfl

@[simp] theorem ofCode?_code (operation : Operation) :
    ofCode? operation.code = some operation := by
  cases operation <;> rfl

end Operation

end RemoteCalc
