import RemoteCalc.Json.Token
import RemoteCalc.Proofs.Number.Digits

/-!
# The spelling of tokens

A text is read as a row of tokens exactly if it spells them, with white space anywhere
between them.  Only two numbers would run together where they meet, and no value has
tokens like that.
-/

namespace RemoteCalc.Json

open Number (IsCanonical IsDigits IsExponent)
open Text

/-! ## The grammar -/

inductive SpellsPiece : List Char → Piece → Prop
  | plain {c : Char} (hcontrol : ' ' ≤ c) (hquote : c ≠ '"') (hescape : c ≠ '\\') :
      SpellsPiece [c] (.char c)
  | letter {letter c : Char} (h : escaped? letter = some c) :
      SpellsPiece ['\\', letter] (.char c)
  | unit {a b c d : Char} {piece : Piece} (h : unit? a b c d = some piece) :
      SpellsPiece ['\\', 'u', a, b, c, d] piece

inductive SpellsPieces : List Char → List Piece → Prop
  | nil : SpellsPieces [] []
  | cons {text rest : List Char} {piece : Piece} {pieces : List Piece}
      (hpiece : SpellsPiece text piece) (hpieces : SpellsPieces rest pieces) :
      SpellsPieces (text ++ rest) (piece :: pieces)

inductive IsPlaces : List Char → Prop
  | missing : IsPlaces []
  | places {places : List Char} (h : IsDigits places) : IsPlaces ('.' :: places)

inductive IsUnsigned : List Char → Prop
  | intro {whole places exponent : List Char} {power : Int} (hwhole : IsDigits whole)
      (hcanonical : IsCanonical whole) (hplaces : IsPlaces places)
      (hexponent : IsExponent exponent power) : IsUnsigned (whole ++ places ++ exponent)

inductive IsNumber : List Char → Prop
  | unsigned {literal : List Char} (h : IsUnsigned literal) : IsNumber literal
  | negative {literal : List Char} (h : IsUnsigned literal) : IsNumber ('-' :: literal)

inductive SpellsToken : List Char → Token → Prop
  | openArray : SpellsToken ['['] .openArray
  | closeArray : SpellsToken [']'] .closeArray
  | openObject : SpellsToken ['\x7b'] .openObject
  | closeObject : SpellsToken ['\x7d'] .closeObject
  | comma : SpellsToken [','] .comma
  | colon : SpellsToken [':'] .colon
  | null : SpellsToken ['n', 'u', 'l', 'l'] .null
  | yes : SpellsToken ['t', 'r', 'u', 'e'] (.bool true)
  | no : SpellsToken ['f', 'a', 'l', 's', 'e'] (.bool false)
  | number {literal : List Char} (h : IsNumber literal) : SpellsToken literal (.number literal)
  | string {body : List Char} {pieces : List Piece} (h : SpellsPieces body pieces) :
      SpellsToken ('"' :: body ++ ['"']) (.string pieces)

/-- A text of tokens with white space around them. -/
inductive Spells : List Char → List Token → Prop
  | nil : Spells [] []
  | space {c : Char} {text : List Char} {tokens : List Token} (hspace : isSpace c = true)
      (h : Spells text tokens) : Spells (c :: text) tokens
  | token {text rest : List Char} {token : Token} {tokens : List Token}
      (htoken : SpellsToken text token) (h : Spells rest tokens) :
      Spells (text ++ rest) (token :: tokens)

theorem Spells.append {first second : List Char} {tokens others : List Token}
    (h : Spells first tokens) (hsecond : Spells second others) :
    Spells (first ++ second) (tokens ++ others) := by
  induction h with
  | nil => exact hsecond
  | space hspace _ ih => exact .space hspace ih
  | token htoken _ ih =>
      rw [List.append_assoc]
      exact .token htoken ih

theorem SpellsToken.alone {text : List Char} {token : Token}
    (h : SpellsToken text token) :
    Spells text [token] := by
  simpa using Spells.token h .nil

/-! ## Strings -/

theorem stringBody?_piece {text rest tail : List Char} {piece : Piece}
    {pieces : List Piece}
    (hpiece : SpellsPiece text piece) (h : stringBody? rest = some (pieces, tail)) :
    stringBody? (text ++ rest) = some (piece :: pieces, tail) := by
  cases hpiece with
  | plain hcontrol hquote hescape =>
      have hbelow := not_lt.mpr hcontrol
      rw [List.singleton_append, stringBody?] <;> simp_all
  | letter hletter =>
      rw [List.cons_append, List.singleton_append, stringBody?]
      · simp [hletter, h]
      · rintro a b c d rest rfl
        contradiction
  | unit hunit => simp [stringBody?, hunit, h]

private theorem stringBody?_spelled {body : List Char} {pieces : List Piece}
    (h : SpellsPieces body pieces) (rest : List Char) :
    stringBody? (body ++ '"' :: rest) = some (pieces, rest) := by
  induction h with
  | nil => simp [stringBody?]
  | cons hpiece _ ih =>
      rw [List.append_assoc]
      exact stringBody?_piece hpiece ih

private theorem spelled_of_stringBody? {cs rest : List Char} {pieces : List Piece}
    (h : stringBody? cs = some (pieces, rest)) :
    ∃ body, SpellsPieces body pieces ∧ cs = body ++ '"' :: rest := by
  fun_induction stringBody? cs generalizing pieces with
  | case1 => simp at h
  | case2 =>
      cases h
      exact ⟨[], .nil, rfl⟩
  | case3 a b c d tail ih =>
      simp [Option.bind_eq_some_iff] at h
      obtain ⟨piece, hunit, pieces, hbody, rfl⟩ := h
      obtain ⟨body, hspells, rfl⟩ := ih hbody
      exact ⟨_, .cons (.unit hunit) hspells, rfl⟩
  | case4 letter tail _ ih =>
      simp [Option.bind_eq_some_iff] at h
      obtain ⟨c, hletter, pieces, hbody, rfl⟩ := h
      obtain ⟨body, hspells, rfl⟩ := ih hbody
      exact ⟨_, .cons (.letter hletter) hspells, rfl⟩
  | case5 => simp at h
  | case6 c tail hquote _ _ hplain ih =>
      simp [Option.bind_eq_some_iff] at h
      obtain ⟨pieces, hbody, rfl⟩ := h
      obtain ⟨body, hspells, rfl⟩ := ih hbody
      obtain ⟨hcontrol, hescape⟩ := not_or.mp hplain
      exact ⟨_, .cons (.plain (not_lt.mp hcontrol) hquote hescape) hspells, rfl⟩

/-! ## Numbers -/

def isWholePart (c : Char) : Bool := c.isDigit || c == '.'

@[simp] def isNumberPart (c : Char) : Bool := isWholePart c || c == 'e' || c == 'E'

private theorem someDigits?_spelled {digits rest : List Char} (h : IsDigits digits)
    (hrest : StopsAt Char.isDigit rest) :
    someDigits? (digits ++ rest) = some (digits, rest) := by
  rw [someDigits?, digitRun, takeWhile_run h.2 hrest, dropWhile_run h.2 hrest]
  split
  · rename_i heq
    exact absurd (Prod.mk.inj heq).1 h.1
  · rfl

private theorem isDigits_of_someDigits? {cs run rest : List Char}
    (h : someDigits? cs = some (run, rest)) : IsDigits run := by
  refine ⟨(someDigits?_append h).2, fun c hc => ?_⟩
  unfold someDigits? at h
  split at h
  · contradiction
  · cases h
    exact List.mem_takeWhile_imp hc

private theorem wholePart?_spelled {whole rest : List Char} (hwhole : IsDigits whole)
    (hcanonical : IsCanonical whole) (hrest : StopsAt Char.isDigit rest) :
    wholePart? (whole ++ rest) = some (whole, rest) := by
  by_cases hzero : whole.head? = some '0'
  · rw [hcanonical hzero]
    rfl
  · rw [wholePart?]
    · exact someDigits?_spelled hwhole hrest
    · intro tail htail
      refine hzero ?_
      rw [← List.head?_append_of_ne_nil _ hwhole.1, htail]
      rfl

private theorem isWhole_of_wholePart? {cs run rest : List Char}
    (h : wholePart? cs = some (run, rest)) :
    IsDigits run ∧ IsCanonical run := by
  unfold wholePart? at h
  split at h
  · cases h
    exact ⟨⟨by simp, by simp⟩, fun _ => rfl⟩
  · rename_i hzero
    refine ⟨isDigits_of_someDigits? h, fun hhead => ?_⟩
    obtain ⟨tail, rfl⟩ := List.head?_eq_some_iff.mp hhead
    exact absurd (someDigits?_append h).1.symm (hzero _)

private theorem fractionPart?_spelled {places rest : List Char} (h : IsPlaces places)
    (hrest : StopsAt isWholePart rest) :
    fractionPart? (places ++ rest) = some (places, rest) := by
  cases h with
  | missing =>
      rw [List.nil_append, fractionPart?]
      rintro tail rfl
      contradiction
  | places hdigits =>
      have hrun := someDigits?_spelled hdigits (hrest.mono fun c hc => by simp [isWholePart, hc])
      simp [fractionPart?, hrun]

private theorem isPlaces_of_fractionPart? {cs run rest : List Char}
    (h : fractionPart? cs = some (run, rest)) : IsPlaces run := by
  unfold fractionPart? at h
  split at h
  · simp at h
    obtain ⟨digits, hdigits, rfl⟩ := h
    exact .places (isDigits_of_someDigits? hdigits)
  · cases h
    exact .missing

private theorem exponentSign_signed {sign digits rest : List Char} {negative : Bool}
    (hsign : Number.IsSign sign negative) (hdigits : IsDigits digits) :
    exponentSign (sign ++ (digits ++ rest)) = (sign, digits ++ rest) := by
  cases hsign with
  | plus => rfl
  | minus => rfl
  | missing =>
      obtain ⟨hne, hall⟩ := hdigits
      cases digits with
      | nil => contradiction
      | cons digit digits =>
          have hdigit := hall digit List.mem_cons_self
          unfold exponentSign
          split <;> simp_all

private theorem exponentPart?_spelled {exponent rest : List Char} {power : Int}
    (h : IsExponent exponent power) (hrest : StopsAt isNumberPart rest) :
    exponentPart? (exponent ++ rest) = some (exponent, rest) := by
  cases h with
  | missing =>
      cases rest with
      | nil => rfl
      | cons c rest =>
          simp [StopsAt] at hrest
          simp [exponentPart?, hrest]
  | @marked mark sign digits negative hmark hsign hdigits =>
      have hrun := someDigits?_spelled hdigits
        (hrest.mono fun c hc => by simp [isWholePart, hc])
      simp [exponentPart?, hmark, exponentSign_signed hsign hdigits, hrun]

private theorem exists_isSign (cs : List Char) :
    ∃ negative, Number.IsSign (exponentSign cs).1 negative := by
  unfold exponentSign
  split
  · exact ⟨_, .plus⟩
  · exact ⟨_, .minus⟩
  · exact ⟨_, .missing⟩

private theorem isExponent_of_exponentPart? {cs run rest : List Char}
    (h : exponentPart? cs = some (run, rest)) : ∃ power, IsExponent run power := by
  unfold exponentPart? at h
  split at h
  · cases h
    exact ⟨0, .missing⟩
  · rename_i mark tail
    split_ifs at h with hmark
    · simp at h
      obtain ⟨digits, hdigits, rfl⟩ := h
      obtain ⟨negative, hsign⟩ := exists_isSign tail
      exact ⟨_, .marked hmark hsign (isDigits_of_someDigits? hdigits)⟩
    · cases h
      exact ⟨0, .missing⟩

private theorem stopsAt_places {places exponent rest : List Char} {power : Int}
    (hplaces : IsPlaces places)
    (hexponent : IsExponent exponent power) (hrest : StopsAt isNumberPart rest) :
    StopsAt isWholePart (exponent ++ rest) ∧
      StopsAt Char.isDigit (places ++ (exponent ++ rest)) := by
  have hstop : StopsAt isWholePart (exponent ++ rest) := by
    cases hexponent with
    | missing => exact hrest.mono fun c hc => by simp [hc]
    | marked hmark => rcases hmark with rfl | rfl <;> rfl
  refine ⟨hstop, ?_⟩
  cases hplaces with
  | missing => exact hstop.mono fun c hc => by simp [isWholePart, hc]
  | places => rfl

private theorem unsigned?_spelled {literal rest : List Char} (h : IsUnsigned literal)
    (hrest : StopsAt isNumberPart rest) :
    unsigned? (literal ++ rest) = some (literal, rest) := by
  obtain ⟨hwhole, hcanonical, hplaces, hexponent⟩ := h
  obtain ⟨hstop, hdigits⟩ := stopsAt_places hplaces hexponent hrest
  simp [unsigned?, wholePart?_spelled hwhole hcanonical hdigits,
    fractionPart?_spelled hplaces hstop, exponentPart?_spelled hexponent hrest]

private theorem isUnsigned_of_unsigned? {cs literal rest : List Char}
    (h : unsigned? cs = some (literal, rest)) : IsUnsigned literal := by
  simp [unsigned?, Option.bind_eq_some_iff] at h
  obtain ⟨whole, tail, hwhole, places, tail', hplaces, exponent, hexponent, rfl⟩ := h
  obtain ⟨hdigits, hcanonical⟩ := isWhole_of_wholePart? hwhole
  obtain ⟨power, hpower⟩ := isExponent_of_exponentPart? hexponent
  rw [← List.append_assoc]
  exact .intro hdigits hcanonical (isPlaces_of_fractionPart? hplaces) hpower

theorem IsUnsigned.head {literal : List Char} (h : IsUnsigned literal) :
    ∃ digit tail, literal = digit :: tail ∧ digit.isDigit = true := by
  obtain ⟨⟨hne, hall⟩, -⟩ := h
  rename_i whole _ _ _ _ _
  cases whole with
  | nil => contradiction
  | cons digit whole => exact ⟨digit, _, rfl, hall digit List.mem_cons_self⟩

private theorem number?_spelled {literal rest : List Char} (h : IsNumber literal)
    (hrest : StopsAt isNumberPart rest) :
    number? (literal ++ rest) = some (literal, rest) := by
  cases h with
  | negative h => simp [number?, unsigned?_spelled h hrest]
  | unsigned h =>
      rw [number?]
      · exact unsigned?_spelled h hrest
      · obtain ⟨digit, tail, rfl, hdigit⟩ := h.head
        rintro other ⟨⟩
        contradiction

private theorem isNumber_of_number? {cs literal rest : List Char}
    (h : number? cs = some (literal, rest)) : IsNumber literal := by
  unfold number? at h
  split at h
  · simp at h
    obtain ⟨literal, hliteral, rfl⟩ := h
    exact .negative (isUnsigned_of_unsigned? hliteral)
  · exact .unsigned (isUnsigned_of_unsigned? h)

/-! ## Tokens -/

def Token.isNumber : Token → Bool
  | .number _ => true
  | _ => false

theorem IsNumber.head {literal : List Char} (h : IsNumber literal) :
    ∃ c tail, literal = c :: tail ∧ (c.isDigit = true ∨ c = '-') := by
  cases h with
  | unsigned h =>
      obtain ⟨digit, tail, htail, hdigit⟩ := h.head
      exact ⟨digit, tail, htail, .inl hdigit⟩
  | negative h => exact ⟨'-', _, rfl, .inr rfl⟩

private theorem token?_number {c : Char} {tail : List Char}
    (h : c.isDigit = true ∨ c = '-') :
    token? (c :: tail) = (number? (c :: tail)).map fun read => (.number read.1, read.2) := by
  unfold token?
  split <;> simp_all

private theorem token?_spelled {text rest : List Char} {token : Token}
    (h : SpellsToken text token)
    (hrest : token.isNumber = true → StopsAt isNumberPart rest) :
    token? (text ++ rest) = some (token, rest) := by
  cases h with
  | number h =>
      have hread := number?_spelled h (hrest rfl)
      obtain ⟨c, tail, rfl, hhead⟩ := h.head
      rw [List.cons_append, token?_number hhead, ← List.cons_append, hread]
      rfl
  | string h =>
      simp [token?, stringBody?_spelled h]
  | _ => rfl

private theorem spelled_of_token? {cs rest : List Char} {token : Token}
    (h : token? cs = some (token, rest)) :
    ∃ text, SpellsToken text token ∧ cs = text ++ rest := by
  unfold token? at h
  split at h
  case h_10 body =>
    simp at h
    obtain ⟨pieces, hbody, rfl⟩ := h
    obtain ⟨body, hspells, rfl⟩ := spelled_of_stringBody? hbody
    exact ⟨_, .string hspells, by simp⟩
  case h_11 =>
    simp at h
    obtain ⟨literal, hliteral, rfl⟩ := h
    exact ⟨literal, .number (isNumber_of_number? hliteral),
      (number?_append hliteral).1.symm⟩
  all_goals cases h
  · exact ⟨_, .openArray, rfl⟩
  · exact ⟨_, .closeArray, rfl⟩
  · exact ⟨_, .openObject, rfl⟩
  · exact ⟨_, .closeObject, rfl⟩
  · exact ⟨_, .comma, rfl⟩
  · exact ⟨_, .colon, rfl⟩
  · exact ⟨_, .null, rfl⟩
  · exact ⟨_, .yes, rfl⟩
  · exact ⟨_, .no, rfl⟩

/-! ## Texts -/

theorem spells_of_scan? {cs : List Char} {tokens : List Token}
    (h : scan? cs = some tokens) :
    Spells cs tokens := by
  fun_induction scan? cs generalizing tokens with
  | case1 =>
      cases h
      exact .nil
  | case2 c rest hspace ih => exact .space hspace (ih h)
  | case3 => simp at h
  | case4 c rest _ token tail htoken ih =>
      simp at h
      obtain ⟨tokens, htail, rfl⟩ := h
      obtain ⟨text, hspells, heq⟩ := spelled_of_token? htoken
      rw [heq]
      exact .token hspells (ih htail)

private theorem eq_of_isSpace {c : Char} (h : isSpace c = true) :
    c = ' ' ∨ c = '\n' ∨ c = '\t' ∨ c = '\r' := by
  simpa [isSpace, or_assoc] using h

theorem SpellsToken.head {text : List Char} {token : Token}
    (h : SpellsToken text token) :
    ∃ c tail, text = c :: tail ∧ isSpace c = false ∧
      (token.isNumber = false → isNumberPart c = false) := by
  cases h with
  | number h =>
      obtain ⟨c, tail, rfl, hhead⟩ := h.head
      refine ⟨c, tail, rfl, ?_, by simp [Token.isNumber]⟩
      rw [Bool.eq_false_iff]
      intro hspace
      rcases eq_of_isSpace hspace with rfl | rfl | rfl | rfl <;> simp at hhead
  | string h => exact ⟨'"', _, rfl, by decide, fun _ => by decide⟩
  | _ => exact ⟨_, _, rfl, by decide, fun _ => by decide⟩

private theorem scan?_space {c : Char} {rest : List Char} (h : isSpace c = true) :
    scan? (c :: rest) = scan? rest := by
  rw [scan?, if_pos h]

private theorem scan?_token {text rest : List Char} {token : Token}
    (h : SpellsToken text token)
    (hrest : token.isNumber = true → StopsAt isNumberPart rest) :
    scan? (text ++ rest) = (scan? rest).map (token :: ·) := by
  have hread := token?_spelled h hrest
  obtain ⟨c, tail, rfl, hspace, -⟩ := h.head
  rw [List.cons_append] at hread ⊢
  rw [scan?, hspace]
  split
  · contradiction
  · split <;> simp_all

def Apart (token next : Token) : Prop := token.isNumber = true → next.isNumber = false

private theorem stopsAt_spelled {text rest : List Char} {tokens : List Token}
    (h : Spells text tokens)
    (hhead : ∀ token ∈ tokens.head?, token.isNumber = false)
    (hrest : tokens = [] → StopsAt isNumberPart rest) :
    StopsAt isNumberPart (text ++ rest) := by
  cases h with
  | nil => exact hrest rfl
  | space hspace =>
      rcases eq_of_isSpace hspace with rfl | rfl | rfl | rfl <;> rfl
  | token htoken h =>
      obtain ⟨c, tail, rfl, -, hpart⟩ := htoken.head
      exact hpart (hhead _ rfl)

/-- Tokens are found again in whatever they were spelled, and the text after them is read on. -/
theorem scan?_spelled {text rest : List Char} {tokens : List Token}
    (h : Spells text tokens)
    (hapart : tokens.IsChain Apart)
    (hlast : ∀ token ∈ tokens.getLast?, token.isNumber = true → StopsAt isNumberPart rest) :
    scan? (text ++ rest) = (scan? rest).map (tokens ++ ·) := by
  induction h with
  | nil => simp
  | space hspace _ ih => rw [List.cons_append, scan?_space hspace, ih hapart hlast]
  | @token text tail token tokens htoken h ih => 
      rw [List.append_assoc, scan?_token htoken]
      -- What is behind a number has to stop it: the next token, or the text after the last.
      · rw [ih hapart.tail]
        · simp [Function.comp_def]
        · exact fun last hmem => hlast last (by rw [List.getLast?_cons, hmem]; rfl)
      · intro hnumber
        refine stopsAt_spelled h (fun next hnext => ?_) ?_
        · cases tokens with
          | nil => contradiction
          | cons following tokens =>
              cases hnext
              exact (List.isChain_cons_cons.mp hapart).1 hnumber
        · rintro rfl
          exact hlast token rfl hnumber

end RemoteCalc.Json
