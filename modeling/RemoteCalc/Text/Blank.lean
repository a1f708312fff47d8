/-!
# Blanks

Two notions of white space are in use.  Around frames only the five ASCII blanks
count.  What a person types is split at any character that Unicode lists as
white space.
-/

namespace RemoteCalc.Text

def isAsciiBlank (c : Char) : Bool :=
  c == ' ' || c == '\t' || c == '\n' || c == '\x0c' || c == '\r'

def isBlankByte (b : UInt8) : Bool := isAsciiBlank (Char.ofUInt8 b)

def whiteSpace : List (Nat × Nat) :=
  [(0x09, 0x0d), (0x20, 0x20), (0x85, 0x85), (0xa0, 0xa0), (0x1680, 0x1680),
    (0x2000, 0x200a), (0x2028, 0x2029), (0x202f, 0x202f), (0x205f, 0x205f),
    (0x3000, 0x3000)]

def isWhiteSpace (c : Char) : Bool :=
  whiteSpace.any fun (first, last) => first ≤ c.toNat && c.toNat ≤ last

def trim (cs : List Char) : List Char :=
  ((cs.dropWhile isWhiteSpace).reverse.dropWhile isWhiteSpace).reverse

def words : List Char → List (List Char)
  | [] => []
  | c :: cs =>
      if isWhiteSpace c then words cs
      else
        (c :: cs.takeWhile (!isWhiteSpace ·)) ::
          words (cs.dropWhile (!isWhiteSpace ·))
termination_by cs => cs.length
decreasing_by
  · simp
  · have := (List.dropWhile_sublist (!isWhiteSpace ·) (l := cs)).length_le
    simp only [List.length_cons]
    omega

end RemoteCalc.Text
