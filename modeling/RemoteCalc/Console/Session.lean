import RemoteCalc.Clock
import RemoteCalc.Failover
import RemoteCalc.Number.Natural
import RemoteCalc.Text.Blank

/-!
# The menu session

The client shows a menu, reads a choice, reads two numbers if the choice is an
operation, makes the call and shows what came of it, until the user chooses to
exit or the input ends.  Lines that make no sense are answered with a remark and
cost nothing.  A line that is not text ends the session as a failure, and a call that
breaks down ends it on the spot.  `Stage.hear` says what one line leads to, and
`session` runs through all lines of an input.
-/

namespace RemoteCalc.Console

open Failover

/-- A line of input, or none if its bytes are not text. -/
abbrev Line := Option (List Char)

/-! ## Lines -/

def lineFeed : UInt8 := 0x0a

def carriageReturn : UInt8 := 0x0d

def withoutReturn (line : Wire.Bytes) : Wire.Bytes :=
  match line.reverse with
  | b :: rest => if b = carriageReturn then rest.reverse else line
  | [] => line

/-- The lines of an input.  Bytes after the last line feed are a line of their own. -/
def splitLines : Wire.Bytes → List Wire.Bytes
  | [] => []
  | b :: rest =>
      let line := (b :: rest).takeWhile (· ≠ lineFeed)
      let later := (b :: rest).dropWhile (· ≠ lineFeed)
      if later = [] then [line] else withoutReturn line :: splitLines later.tail
termination_by bytes => bytes.length
decreasing_by
  have := (List.dropWhile_sublist (· ≠ lineFeed) (l := b :: rest)).length_le
  simp only [List.length_tail, List.length_cons] at *
  omega

def decodeLine (line : Wire.Bytes) : Line :=
  (String.fromUTF8? ⟨line.toArray⟩).map String.toList

/-! ## What a line says -/

def maxChoice : Nat := 18446744073709551615

def choice? (line : List Char) : Option Nat :=
  Number.unsigned? maxChoice (Text.trim line)

def exitChoice : Nat := 5

def operation? : Nat → Option Operation
  | 0 => none
  | place + 1 => Operation.arithmetic[place]?

def operands? (line : List Char) : Option (Float × Float) :=
  match Text.words line with
  | [lhs, rhs] => do return (← Number.read? lhs, ← Number.read? rhs)
  | _ => none

/-! ## What is shown -/

def menu : String :=
  "\n===== RPC CALCULATOR CLIENT =====\n1. Add\n2. Subtract\n3. Multiply\n" ++
    "4. Divide\n5. Exit\n"

def askOperation : String := "Choose operation: "

def askOperands : String := "Enter two numbers: "

def notANumber : String := "Invalid input. Please enter a number.\n"

def notAChoice : String := "Invalid choice. Please try again.\n"

def notTwoNumbers : String :=
  "Invalid input for numbers. Please enter two numbers.\n"

def goodbye : String := "Exiting client. Goodbye!\n"

def showResponse (response : Wire.Response) : String :=
  match response.error with
  | none =>
      "SUCCESS! Result from " ++ response.tag ++ ": " ++
        String.ofList (Number.writePlaces 2 response.result) ++ "\n"
  | some error =>
      "Server " ++ response.tag ++ " reported an error: " ++ error ++ "\n"

def showFailure (failure : Failure) : String :=
  "Failed to connect or get response from " ++ failure.endpoint ++ ": " ++
    failure.reason ++ "\n"

def showExhausted (failures : List Failure) : String :=
  String.join (failures.map showFailure) ++
    "Operation failed. All known servers tried or none could complete the request.\n"

/-! ## Lines and what they lead to -/

inductive Finish where
  | exited
  | endOfInput
  | unreadableLine
  | fault (cause : Fault)
  | broken (cause : Breakdown)
  deriving DecidableEq, Repr

inductive Stage where
  | choosing
  | entering (operation : Operation)
  deriving DecidableEq, Repr

inductive Step where
  | ask (stage : Stage)
  | call (request : Wire.Request)
  | finish (finish : Finish)
  deriving DecidableEq

def choose (line : List Char) : String × Step :=
  match choice? line with
  | none => (notANumber, .ask .choosing)
  | some choice =>
      if choice = exitChoice then (goodbye, .finish .exited)
      else
        match operation? choice with
        | none => (notAChoice, .ask .choosing)
        | some operation => ("", .ask (.entering operation))

def enter (operation : Operation) (line : List Char) : String × Step :=
  match operands? line with
  | none => (notTwoNumbers, .ask .choosing)
  | some (lhs, rhs) => ("", .call ⟨operation, lhs, rhs⟩)

namespace Stage

def question : Stage → String
  | choosing => menu ++ askOperation
  | entering _ => askOperands

def hear : Stage → Line → String × Step
  | _, none => ("", .finish .unreadableLine)
  | choosing, some line => choose line
  | entering operation, some line => enter operation line

end Stage

def showAnswer : Except Fault Answer → Except Fault String
  | .ok answer => .ok (showResponse answer.response)
  | .error (.exhausted failures) => .ok (showExhausted failures)
  | .error fault => .error fault

/-! ## The session -/

structure Call where
  request : Wire.Request
  result : Except Fault Answer

structure Transcript where
  shown : String
  calls : List Call
  finish : Finish

def Transcript.after (shown : String) (calls : List Call)
    (rest : Transcript) : Transcript :=
  { rest with shown := shown ++ rest.shown, calls := calls ++ rest.calls }

def session {m : Type → Type} [Monad m] (exchange : Exchange (ExceptT Breakdown m))
    (client : Client) (stage : Stage) : List Line → m Transcript
  | [] => return ⟨stage.question, [], .endOfInput⟩
  | line :: rest => do
      let (remark, step) := stage.hear line
      let shown := stage.question ++ remark
      match step with
      | .ask stage => return .after shown [] (← session exchange client stage rest)
      | .finish finish => return ⟨shown, [], finish⟩
      | .call request =>
          match ← (client.send exchange request).run with
          | .error cause => return ⟨shown, [], .broken cause⟩
          | .ok (result, client) =>
              let call : Call := ⟨request, result⟩
              match showAnswer result with
              | .ok text =>
                  return .after (shown ++ text) [call]
                    (← session exchange client .choosing rest)
              | .error fault => return ⟨shown, [call], .fault fault⟩

end RemoteCalc.Console
