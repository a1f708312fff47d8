import RemoteCalc.Console.Options
import RemoteCalc.Fault

/-!
# How a program ends

A run of a program writes text and ends with an exit code.  A program that fails
says why in a report: the fault, and below it what caused it.  A program that breaks
down reports nothing.
-/

namespace RemoteCalc.Console

structure Outcome where
  output : String
  exitCode : Nat
  report : Option String
  deriving DecidableEq, Repr

namespace Outcome

def usage (output : String) (fault : UsageFault) : Outcome :=
  ⟨output, fault.exitCode, none⟩

def success (output : String) : Outcome := ⟨output, 0, none⟩

def failure (output report : String) : Outcome := ⟨output, 1, some report⟩

def breakdown (output : String) : Outcome := ⟨output, 101, none⟩

end Outcome

def messages : Fault → List String
  | .io cause => [(Fault.io cause).message, cause.message]
  | .malformedTable reason => [(Fault.malformedTable reason).message, reason]
  | fault => [fault.message]

def numbered : String × Nat → String
  | (cause, number) => "    " ++ toString number ++ ": " ++ cause

def causes : List String → String
  | [] => ""
  | [cause] => "\n\nCaused by:\n    " ++ cause
  | several =>
      "\n\nCaused by:\n" ++ String.intercalate "\n" (several.zipIdx.map numbered)

def report : List String → String
  | [] => "Error: "
  | outer :: inner => "Error: " ++ outer ++ causes inner

def versionText : String := "calc-rpc 0.1.0\n"

def usageText (help : String) : UsageFault → String
  | .displayHelp => help
  | .displayVersion => versionText
  | _ => ""

end RemoteCalc.Console
