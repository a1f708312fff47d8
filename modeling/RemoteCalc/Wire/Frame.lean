import RemoteCalc.Text.Blank
import RemoteCalc.Wire.Fault

/-!
# Frames

A frame is three fields, each ended by a semicolon.  This file holds what can be
said of a frame without reading its fields: where it ends in a run of bytes, and
how its bytes stand for characters.
-/

namespace RemoteCalc.Wire

abbrev Bytes := List UInt8

def fieldCount : Nat := 3

def terminator : UInt8 := 0x3b

/-- The number of bytes up to and including the `count`th terminator. -/
@[simp] def lengthThrough? : Nat → Bytes → Option Nat
  | 0, _ => some 0
  | _ + 1, [] => none
  | count + 1, b :: bytes =>
      if b = terminator then (lengthThrough? count bytes).map (· + 1)
      else (lengthThrough? (count + 1) bytes).map (· + 1)

theorem length_pos_of_lengthThrough? {count length : Nat} {bytes : Bytes}
    (h : lengthThrough? (count + 1) bytes = some length) : 0 < length := by
  cases bytes with
  | nil => simp at h
  | cons b bytes =>
    simp only [lengthThrough?] at h
    split at h <;>
      · obtain ⟨n, _, rfl⟩ := Option.map_eq_some_iff.mp h
        omega

theorem le_length_of_lengthThrough? {count length : Nat} {bytes : Bytes}
    (h : lengthThrough? count bytes = some length) : length ≤ bytes.length := by
  induction bytes generalizing count length with
  | nil =>
    cases count with
    | zero => simp_all
    | succ count => simp at h
  | cons b bytes ih =>
    cases count with
    | zero =>
      simp only [lengthThrough?, Option.some.injEq] at h
      omega
    | succ count =>
      simp only [lengthThrough?] at h
      split at h <;>
        · obtain ⟨n, hn, rfl⟩ := Option.map_eq_some_iff.mp h
          have := ih hn
          simp only [List.length_cons]
          omega

def frameLength? (bytes : Bytes) : Option Nat :=
  lengthThrough? fieldCount bytes

def ofChars (cs : List Char) : Bytes := cs.map Char.toUInt8

def isAscii (b : UInt8) : Bool := b < 0x80

def frameChars (frame : Bytes) : Except FrameFault (List Char) :=
  if maxFrameLength < frame.length then .error (.tooLong frame.length)
  else if frame.all isAscii then .ok (frame.map Char.ofUInt8)
  else .error .notAscii

def finish (rest : List Char) : Except FrameFault Unit :=
  if rest.all Text.isAsciiBlank then .ok () else .error .trailingBytes

def datagramRoom : Nat := maxFrameLength + 1

/-- What is left of a datagram when it is received: an overlong one stays overlong. -/
def received (datagram : Bytes) : Bytes := datagram.take datagramRoom

end RemoteCalc.Wire
