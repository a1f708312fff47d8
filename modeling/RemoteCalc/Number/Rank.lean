/-!
# Doubles by rank

Every finite double is a whole number of steps of size `2^-1074`, the smallest
positive double.  The doubles from zero up, listed in order, are named here by
their rank in that list, which is also the number that their 63 low bits spell.
`steps` gives the size of a rank, and `nearestRank` the rank that lies closest
to a ratio, with ties going to the even rank.  The list runs on past the
largest double, so that overflow is a comparison with `infiniteRank` and needs
no rounding rule of its own.
-/

namespace RemoteCalc.Number

/-- How many ranks in a row lie at the same distance from each other. -/
def blockSize : Nat := Nat.pow 2 52

/-- The first rank that no finite double has; its bits spell infinity. -/
def infiniteRank : Nat := 2047 * blockSize

def stepsPerUnit : Nat := Nat.pow 2 1074

/--
The size of a rank in steps.  The ranks of the first block are the subnormals, which
count steps one by one; above, each block doubles the distance of the one before.
-/
def steps (rank : Nat) : Nat :=
  if rank < blockSize then rank
  else (blockSize + rank % blockSize) * Nat.pow 2 (rank / blockSize - 1)

def floorRank (size : Nat) : Nat :=
  let shift := size.log2 - 52
  shift * blockSize + size / Nat.pow 2 shift

/--
The rank nearest to `num / den` steps.  The two candidates are the ranks on
either side; at the same distance from both, the even one is taken.
-/
def nearestRank (num den : Nat) : Nat :=
  let below := floorRank (num / den)
  let middle := den * (steps below + steps (below + 1))
  if 2 * num < middle then below
  else if middle < 2 * num then below + 1
  else below + below % 2

inductive Shape where
  | notANumber
  | infinite (negative : Bool)
  | finite (negative : Bool) (rank : Nat)
  deriving DecidableEq, Repr

def signBit : Nat := Nat.pow 2 63

/-- Bit 63 is the sign and the other bits are the rank. -/
def shape (value : Float) : Shape :=
  let bits := value.toBits.toNat
  let negative := decide (signBit ≤ bits)
  let rank := bits % signBit
  if rank < infiniteRank then .finite negative rank
  else if rank = infiniteRank then .infinite negative
  else .notANumber

/-- The double of a sign and a rank; all ranks from `infiniteRank` on are infinite. -/
def ofRank (negative : Bool) (rank : Nat) : Float :=
  .ofBits (UInt64.ofNat ((if negative then signBit else 0) + min rank infiniteRank))

def notANumber : Float := .ofBits 0x7ff8000000000000

end RemoteCalc.Number
