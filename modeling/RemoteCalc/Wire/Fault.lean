import RemoteCalc.Text.Quoted

/-!
# Malformed frames

The ways in which bytes fail to be a frame, with the wording of each.
-/

namespace RemoteCalc.Wire

def maxFrameLength : Nat := 1024

inductive FrameFault where
  | tooLong (length : Nat)
  | notAscii
  | expectedField (key : String)
  | unterminatedField (key : String)
  | emptyField (key : String)
  | longField (key : String) (width : Nat)
  | unknownOperation (code : String)
  | invalidNumber (text : String)
  | trailingBytes
  | noBoundary
  | reported (text : String)
  deriving DecidableEq, Repr

def FrameFault.message : FrameFault → String
  | tooLong length =>
      "frame of " ++ toString length ++ " bytes exceeds " ++
        toString maxFrameLength
  | notAscii => "frame is not ASCII"
  | expectedField key => "expected field " ++ key
  | unterminatedField key => "field " ++ key ++ " is not terminated"
  | emptyField key => "field " ++ key ++ " is empty"
  | longField key width =>
      "field " ++ key ++ " is longer than " ++ toString width ++ " bytes"
  | unknownOperation code => "unknown operation " ++ Text.quoted code
  | invalidNumber text => "invalid number " ++ Text.quoted text
  | trailingBytes => "trailing bytes after frame"
  | noBoundary => "no frame within " ++ toString maxFrameLength ++ " bytes"
  | reported text => text

end RemoteCalc.Wire
