import RemoteCalc.Number.Natural

/-!
# JSON tokens

A JSON text is a row of tokens with white space between them.  A string is kept
as the pieces it was written with, since an escape for half of a surrogate pair
is legal where the string is skipped and wrong only where it is read as text.
-/

namespace RemoteCalc.Json

/-- One character of a string: itself, or a UTF-16 unit given by its number. -/
inductive Piece where
  | char (c : Char)
  | unit (code : Nat)
  deriving DecidableEq, Repr

inductive Token where
  | openArray
  | closeArray
  | openObject
  | closeObject
  | comma
  | colon
  | null
  | bool (value : Bool)
  | number (literal : List Char)
  | string (pieces : List Piece)
  deriving DecidableEq, Repr

def isSpace (c : Char) : Bool :=
  c == ' ' || c == '\n' || c == '\t' || c == '\r'

/-! ## Strings -/

def unit? (a b c d : Char) : Option Piece := do
  let a ← Number.hexDigit? a
  let b ← Number.hexDigit? b
  let c ← Number.hexDigit? c
  let d ← Number.hexDigit? d
  return .unit (((a * 16 + b) * 16 + c) * 16 + d)

def escaped? : Char → Option Char
  | '"' => some '"'
  | '\\' => some '\\'
  | '/' => some '/'
  | 'b' => some '\x08'
  | 'f' => some '\x0c'
  | 'n' => some '\n'
  | 'r' => some '\r'
  | 't' => some '\t'
  | _ => none

def stringBody? : List Char → Option (List Piece × List Char)
  | [] => none
  | '"' :: rest => some ([], rest)
  | '\\' :: 'u' :: a :: b :: c :: d :: rest => do
      let piece ← unit? a b c d
      let (pieces, rest) ← stringBody? rest
      return (piece :: pieces, rest)
  | '\\' :: letter :: rest => do
      let c ← escaped? letter
      let (pieces, rest) ← stringBody? rest
      return (.char c :: pieces, rest)
  | c :: rest =>
      if c < ' ' ∨ c = '\\' then none
      else do
        let (pieces, rest) ← stringBody? rest
        return (.char c :: pieces, rest)

def textOfPieces? : List Piece → Option (List Char)
  | [] => some []
  | .char c :: rest => (textOfPieces? rest).map (c :: ·)
  | .unit high :: rest =>
      if high < 0xd800 ∨ 0xe000 ≤ high then
        (textOfPieces? rest).map (Char.ofNat high :: ·)
      else if high < 0xdc00 then
        match rest with
        | .unit low :: rest =>
            if 0xdc00 ≤ low ∧ low < 0xe000 then
              (textOfPieces? rest).map
                (Char.ofNat
                  (0x10000 + (high - 0xd800) * 0x400 + (low - 0xdc00)) :: ·)
            else none
        | _ => none
      else none

/-! ## Numbers -/

def digitRun (cs : List Char) : List Char × List Char :=
  (cs.takeWhile Char.isDigit, cs.dropWhile Char.isDigit)

def someDigits? (cs : List Char) : Option (List Char × List Char) :=
  match digitRun cs with
  | ([], _) => none
  | run => some run

def wholePart? : List Char → Option (List Char × List Char)
  | '0' :: rest => some (['0'], rest)
  | cs => someDigits? cs

def fractionPart? : List Char → Option (List Char × List Char)
  | '.' :: cs => (someDigits? cs).map fun (run, rest) => ('.' :: run, rest)
  | cs => some ([], cs)

def exponentSign : List Char → List Char × List Char
  | '+' :: rest => (['+'], rest)
  | '-' :: rest => (['-'], rest)
  | rest => ([], rest)

def exponentPart? : List Char → Option (List Char × List Char)
  | [] => some ([], [])
  | mark :: cs =>
      if mark = 'e' ∨ mark = 'E' then
        let signed := exponentSign cs
        (someDigits? signed.2).map fun (run, rest) => (mark :: signed.1 ++ run, rest)
      else some ([], mark :: cs)

def unsigned? (cs : List Char) : Option (List Char × List Char) := do
  let (whole, rest) ← wholePart? cs
  let (fraction, rest) ← fractionPart? rest
  let (exponent, rest) ← exponentPart? rest
  return (whole ++ fraction ++ exponent, rest)

def number? : List Char → Option (List Char × List Char)
  | '-' :: cs => (unsigned? cs).map fun (literal, rest) => ('-' :: literal, rest)
  | cs => unsigned? cs

/-! ## Texts -/

def token? : List Char → Option (Token × List Char)
  | '[' :: rest => some (.openArray, rest)
  | ']' :: rest => some (.closeArray, rest)
  | '\x7b' :: rest => some (.openObject, rest)
  | '\x7d' :: rest => some (.closeObject, rest)
  | ',' :: rest => some (.comma, rest)
  | ':' :: rest => some (.colon, rest)
  | 'n' :: 'u' :: 'l' :: 'l' :: rest => some (.null, rest)
  | 't' :: 'r' :: 'u' :: 'e' :: rest => some (.bool true, rest)
  | 'f' :: 'a' :: 'l' :: 's' :: 'e' :: rest => some (.bool false, rest)
  | '"' :: rest =>
      (stringBody? rest).map fun (pieces, rest) => (.string pieces, rest)
  | cs => (number? cs).map fun (literal, rest) => (.number literal, rest)

/-! Each reader takes its token off the front, so what follows is shorter. -/

theorem someDigits?_append {cs run rest : List Char}
    (h : someDigits? cs = some (run, rest)) : run ++ rest = cs ∧ run ≠ [] := by
  simp only [someDigits?, digitRun] at h
  split at h
  · simp at h
  · rename_i hne
    simp only [Option.some.injEq, Prod.mk.injEq] at h
    refine ⟨by rw [← h.1, ← h.2, List.takeWhile_append_dropWhile], ?_⟩
    rintro rfl
    exact hne _ (Prod.ext h.1 rfl)

private theorem wholePart?_append {cs run rest : List Char}
    (h : wholePart? cs = some (run, rest)) : run ++ rest = cs ∧ run ≠ [] := by
  unfold wholePart? at h
  split at h
  · simp only [Option.some.injEq, Prod.mk.injEq] at h
    simp [← h.1, ← h.2]
  · exact someDigits?_append h

private theorem fractionPart?_append {cs run rest : List Char}
    (h : fractionPart? cs = some (run, rest)) : run ++ rest = cs := by
  unfold fractionPart? at h
  split at h
  · obtain ⟨⟨digits, tail⟩, hdigits, heq⟩ := Option.map_eq_some_iff.mp h
    simp only [Prod.mk.injEq] at heq
    simp [← heq.1, ← heq.2, (someDigits?_append hdigits).1]
  · simp_all

private theorem exponentSign_append (cs : List Char) :
    (exponentSign cs).1 ++ (exponentSign cs).2 = cs := by
  unfold exponentSign
  split <;> rfl

private theorem exponentPart?_append {cs run rest : List Char}
    (h : exponentPart? cs = some (run, rest)) : run ++ rest = cs := by
  unfold exponentPart? at h
  split at h
  · simp_all
  · rename_i mark tail
    split at h
    · obtain ⟨⟨digits, tail'⟩, hdigits, heq⟩ := Option.map_eq_some_iff.mp h
      simp only [Prod.mk.injEq] at heq
      rw [← heq.1, ← heq.2, List.append_assoc, (someDigits?_append hdigits).1,
        List.cons_append, exponentSign_append]
    · simp_all

private theorem unsigned?_append {cs literal rest : List Char}
    (h : unsigned? cs = some (literal, rest)) :
    literal ++ rest = cs ∧ literal ≠ [] := by
  simp only [unsigned?, Option.bind_eq_bind, Option.bind_eq_some_iff,
    Option.pure_def, Option.some.injEq, Prod.mk.injEq, Prod.exists] at h
  obtain ⟨whole, tail, hwhole, fraction, tail', hfraction, run, tail'', hrun,
    rfl, rfl⟩ := h
  have hw := wholePart?_append hwhole
  refine ⟨?_, by simp [hw.2]⟩
  rw [List.append_assoc, exponentPart?_append hrun, List.append_assoc,
    fractionPart?_append hfraction, hw.1]

theorem number?_append {cs literal rest : List Char}
    (h : number? cs = some (literal, rest)) :
    literal ++ rest = cs ∧ literal ≠ [] := by
  unfold number? at h
  split at h
  · obtain ⟨⟨digits, tail⟩, hdigits, heq⟩ := Option.map_eq_some_iff.mp h
    simp only [Prod.mk.injEq] at heq
    simp [← heq.1, ← heq.2, (unsigned?_append hdigits).1]
  · exact unsigned?_append h

private theorem stringBody?_length {cs rest : List Char} {pieces : List Piece}
    (h : stringBody? cs = some (pieces, rest)) : rest.length < cs.length := by
  fun_induction stringBody? cs generalizing pieces with
  | case1 => simp at h
  | case2 => simp_all
  | case3 a b c d rest' ih =>
    simp only [Option.bind_eq_bind, Option.bind_eq_some_iff, Option.pure_def,
      Option.some.injEq, Prod.mk.injEq, Prod.exists] at h
    obtain ⟨_, _, _, _, hbody, _, rfl⟩ := h
    have := ih hbody
    simp only [List.length_cons]
    omega
  | case4 letter rest' _ ih =>
    simp only [Option.bind_eq_bind, Option.bind_eq_some_iff, Option.pure_def,
      Option.some.injEq, Prod.mk.injEq, Prod.exists] at h
    obtain ⟨_, _, _, _, hbody, _, rfl⟩ := h
    have := ih hbody
    simp only [List.length_cons]
    omega
  | case5 => simp at h
  | case6 c rest' _ _ _ _ ih =>
    simp only [Option.bind_eq_bind, Option.bind_eq_some_iff, Option.pure_def,
      Option.some.injEq, Prod.mk.injEq, Prod.exists] at h
    obtain ⟨_, _, hbody, _, rfl⟩ := h
    have := ih hbody
    simp only [List.length_cons]
    omega

private theorem token?_length {cs rest : List Char} {token : Token}
    (h : token? cs = some (token, rest)) : rest.length < cs.length := by
  unfold token? at h
  split at h
  all_goals first
    | (simp only [Option.some.injEq, Prod.mk.injEq] at h
       simp only [← h.2, List.length_cons]
       omega)
    | skip
  · obtain ⟨⟨pieces, tail⟩, hbody, heq⟩ := Option.map_eq_some_iff.mp h
    have := stringBody?_length hbody
    simp only [Prod.mk.injEq] at heq
    simp only [← heq.2, List.length_cons]
    omega
  · obtain ⟨⟨literal, tail⟩, hnumber, heq⟩ := Option.map_eq_some_iff.mp h
    obtain ⟨happend, hne⟩ := number?_append hnumber
    simp only [Prod.mk.injEq] at heq
    have := List.length_pos_iff.mpr hne
    simp only [← heq.2, ← happend, List.length_append]
    omega

set_option linter.unusedVariables false in
def scan? (cs : List Char) : Option (List Token) :=
  match cs with
  | [] => some []
  | c :: rest =>
      if isSpace c then scan? rest
      else
        match h : token? (c :: rest) with
        | none => none
        | some (token, rest) => (scan? rest).map (token :: ·)
termination_by cs.length
decreasing_by
  · simp
  · exact token?_length h

end RemoteCalc.Json
