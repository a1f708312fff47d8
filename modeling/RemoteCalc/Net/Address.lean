import RemoteCalc.Number.Natural

/-!
# Internet addresses

Addresses of either version and the ports on them, in the notation that people
write.  A reader takes its part off the front of a text and gives what follows,
so that the parts can be put together; `?` marks those that may find nothing.
-/

namespace RemoteCalc.Net

structure Ipv4 where
  first : UInt8
  second : UInt8
  third : UInt8
  fourth : UInt8
  deriving DecidableEq, Repr

structure Ipv6 where
  groups : Vector UInt16 8
  deriving DecidableEq, Repr

inductive SocketAddress where
  | v4 (address : Ipv4) (port : UInt16)
  | v6 (address : Ipv6) (scope : UInt32) (port : UInt16)
  deriving DecidableEq, Repr

namespace Ipv4

def localhost : Ipv4 := ⟨127, 0, 0, 1⟩

def unspecified : Ipv4 := ⟨0, 0, 0, 0⟩

def octets (address : Ipv4) : List UInt8 :=
  [address.first, address.second, address.third, address.fourth]

def text (address : Ipv4) : String :=
  String.intercalate "." (address.octets.map fun octet => toString octet.toNat)

end Ipv4

/-! ## Parts of an address -/

def take? (c : Char) : List Char → Option (List Char)
  | [] => none
  | d :: rest => if d = c then some rest else none

def octet? (cs : List Char) : Option (UInt8 × List Char) :=
  let run := cs.takeWhile Char.isDigit
  let rest := cs.dropWhile Char.isDigit
  if run = [] ∨ 3 < run.length ∨ (run.head? = some '0' ∧ 1 < run.length) then none
  else (Number.atMost? 255 (Number.digitValue run)).map fun n => (n.toUInt8, rest)

def ipv4? (cs : List Char) : Option (Ipv4 × List Char) := do
  let (first, cs) ← octet? cs
  let (second, cs) ← octet? (← take? '.' cs)
  let (third, cs) ← octet? (← take? '.' cs)
  let (fourth, cs) ← octet? (← take? '.' cs)
  return (⟨first, second, third, fourth⟩, cs)

def number? (limit : Nat) (cs : List Char) : Option (Nat × List Char) :=
  (Number.natural? (cs.takeWhile Char.isDigit)).bind fun n =>
    (Number.atMost? limit n).map fun n => (n, cs.dropWhile Char.isDigit)

def Ipv4.ofChars? (cs : List Char) : Option Ipv4 :=
  match ipv4? cs with
  | some (address, []) => some address
  | _ => none

/-! ## Version 6 -/

def isHexDigit (c : Char) : Bool := (Number.hexDigit? c).isSome

def group? (cs : List Char) : Option (UInt16 × List Char) :=
  let run := cs.takeWhile isHexDigit
  if run = [] ∨ 4 < run.length then none
  else
    let value := run.foldl (fun n c => n * 16 + (Number.hexDigit? c).getD 0) 0
    some (value.toUInt16, cs.dropWhile isHexDigit)

def Ipv4.groups (address : Ipv4) : List UInt16 :=
  [address.first.toUInt16 * 256 + address.second.toUInt16,
    address.third.toUInt16 * 256 + address.fourth.toUInt16]

def pastColon? (isFirst : Bool) (cs : List Char) : Option (List Char) :=
  if isFirst then some cs else take? ':' cs

/--
As many groups as are there, at most `room`.  The last two may be written as a
version 4 address, which ends the run; the flag says whether they were.
-/
def groups (isFirst : Bool) : Nat → List Char → List UInt16 × Bool × List Char
  | 0, cs => ([], false, cs)
  | room + 1, cs =>
      match (pastColon? isFirst cs).bind ipv4? with
      | some (address, rest) =>
          if 0 < room then (address.groups, true, rest) else more room cs
      | none => more room cs
where
  more (room : Nat) (cs : List Char) : List UInt16 × Bool × List Char :=
    match (pastColon? isFirst cs).bind group? with
    | none => ([], false, cs)
    | some (group, rest) =>
        let (found, embedded, rest) := groups false room rest
        (group :: found, embedded, rest)

/-- Eight groups, or fewer on either side of two colons that stand for zeros. -/
def ipv6? (cs : List Char) : Option (Ipv6 × List Char) := do
  let (head, embedded, rest) := groups true 8 cs
  if h : head.length = 8 then
    return (⟨⟨head.toArray, by simpa using h⟩⟩, rest)
  else if embedded then none
  else
    let rest ← take? ':' (← take? ':' rest)
    let (tail, _, rest) := groups true (7 - head.length) rest
    let zeros := List.replicate (8 - head.length - tail.length) (0 : UInt16)
    let all := head ++ zeros ++ tail
    if h : all.length = 8 then return (⟨⟨all.toArray, by simpa using h⟩⟩, rest)
    else none

/-- The longest run of zero groups, the first of them if several are longest. -/
def zeroRun (groups : List UInt16) : Nat × Nat :=
  (List.range groups.length).foldl
    (fun best start =>
      let length := ((groups.drop start).takeWhile (· == 0)).length
      if best.2 < length then (start, length) else best)
    (0, 0)

def hexText (group : UInt16) : String :=
  String.ofList (Nat.toDigits 16 group.toNat)

def colonText (groups : List UInt16) : String :=
  String.intercalate ":" (groups.map hexText)

def Ipv6.text (address : Ipv6) : String :=
  let groups := address.groups.toList
  match groups with
  | [0, 0, 0, 0, 0, 0xffff, high, low] =>
      "::ffff:" ++
        Ipv4.text ⟨(high / 256).toUInt8, (high % 256).toUInt8,
          (low / 256).toUInt8, (low % 256).toUInt8⟩
  | _ =>
      let (start, length) := zeroRun groups
      if 1 < length then
        colonText (groups.take start) ++ "::" ++
          colonText (groups.drop (start + length))
      else colonText groups

/-! ## Sockets -/

namespace SocketAddress

def maxPort : Nat := 65535

def port? (cs : List Char) : Option (UInt16 × List Char) := do
  let (port, rest) ← number? maxPort (← take? ':' cs)
  return (port.toUInt16, rest)

def scope? : List Char → Option (UInt32 × List Char)
  | '%' :: cs => (number? 4294967295 cs).map fun (n, rest) => (n.toUInt32, rest)
  | cs => some (0, cs)

def v4? (cs : List Char) : Option (SocketAddress × List Char) := do
  let (address, cs) ← ipv4? cs
  let (port, cs) ← port? cs
  return (.v4 address port, cs)

def v6? (cs : List Char) : Option (SocketAddress × List Char) := do
  let (address, cs) ← ipv6? (← take? '[' cs)
  let (scope, cs) ← scope? cs
  let (port, cs) ← port? (← take? ']' cs)
  return (.v6 address scope port, cs)

def ofChars? (cs : List Char) : Option SocketAddress :=
  match (v4? cs).or (v6? cs) with
  | some (address, []) => some address
  | _ => none

def text : SocketAddress → String
  | v4 address port => address.text ++ ":" ++ toString port.toNat
  | v6 address scope port =>
      let zone := if scope = 0 then "" else "%" ++ toString scope.toNat
      "[" ++ address.text ++ zone ++ "]:" ++ toString port.toNat

end SocketAddress

end RemoteCalc.Net
