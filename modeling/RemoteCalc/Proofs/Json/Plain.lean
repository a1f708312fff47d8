import RemoteCalc.Json.Plain
import RemoteCalc.Proofs.Json.Library
import RemoteCalc.Proofs.Number.Digits

/-!
# The library that comes with the program

It does all that a JSON library is documented to do.
-/

namespace RemoteCalc.Json

open Number (IsDigits digitValue)

/-! ## Texts -/

theorem textOfPieces?_single {code : Nat} (h : code < 0xd800 ∨ 0xe000 ≤ code)
    (rest : List Piece) :
    textOfPieces? (.unit code :: rest) =
      (textOfPieces? rest).map (Char.ofNat code :: ·) := by
  rw [textOfPieces?.eq_def]
  exact if_pos h

private theorem textOfPieces?_pair {high low : Nat}
    (hhigh : 0xd800 ≤ high ∧ high < 0xdc00)
    (hlow : 0xdc00 ≤ low ∧ low < 0xe000) (rest : List Piece) :
    textOfPieces? (.unit high :: .unit low :: rest) =
      (textOfPieces? rest).map
        (Char.ofNat (0x10000 + (high - 0xd800) * 0x400 + (low - 0xdc00)) :: ·) := by
  have hpaired : ¬ (high < 0xd800 ∨ 0xe000 ≤ high) := by omega
  rw [textOfPieces?, if_neg hpaired, if_pos hhigh.2, if_pos hlow]

theorem textOfPieces?_eq_some_iff {pieces : List Piece} {text : List Char} :
    textOfPieces? pieces = some text ↔ IsText pieces text := by
  constructor
  · intro h
    induction pieces using textOfPieces?.induct generalizing text with
    | case1 =>
        cases h
        exact .nil
    | case2 c rest ih =>
        obtain ⟨text, htext, rfl⟩ := Option.map_eq_some_iff.mp h
        exact .char (ih htext)
    | case3 code rest hsingle ih =>
        rw [textOfPieces?_single hsingle] at h
        obtain ⟨text, htext, rfl⟩ := Option.map_eq_some_iff.mp h
        exact .unit hsingle (ih htext)
    | case4 high hpaired hhigh low rest hlow ih =>
        have hhigh' : 0xd800 ≤ high ∧ high < 0xdc00 := by omega
        rw [textOfPieces?_pair hhigh' hlow] at h
        obtain ⟨text, htext, rfl⟩ := Option.map_eq_some_iff.mp h
        exact .pair hhigh' hlow (ih htext)
    | case5 high hpaired hhigh low rest hlow =>
        rw [textOfPieces?, if_neg hpaired, if_pos hhigh, if_neg hlow] at h
        contradiction
    | case6 high rest hpaired hhigh hsecond =>
        rw [textOfPieces?.eq_4 _ _ hsecond, if_neg hpaired, if_pos hhigh] at h
        contradiction
    | case7 high rest hpaired hhigh =>
        rw [textOfPieces?.eq_def] at h
        simp only [if_neg hpaired, if_neg hhigh] at h
        contradiction
  · intro h
    induction h with
    | nil => rfl
    | char _ ih => simp [textOfPieces?, ih]
    | unit hsingle _ ih => simp [textOfPieces?_single hsingle, ih]
    | pair hhigh hlow _ ih => simp [textOfPieces?_pair hhigh hlow, ih]

namespace Plain

theorem text?_eq_some_iff {value : Value} {text : String} :
    text? value = some text ↔ IsString text value := by
  cases value with
  | string pieces =>
      simp only [text?, Option.map_eq_some_iff, textOfPieces?_eq_some_iff, IsString,
        Value.string.injEq, exists_eq_left']
      constructor
      · rintro ⟨cs, hcs, rfl⟩
        rwa [String.toList_ofList]
      · exact fun h => ⟨text.toList, h, String.ofList_toList⟩
  | _ => simp [text?, IsString]

theorem natural?_eq_some_iff {limit : Nat} {value : Value} {n : Nat} :
    natural? limit value = some n ↔ IsNatural n value ∧ n ≤ limit := by
  cases value with
  | number literal =>
      simp only [natural?, Option.bind_eq_some_iff, Number.natural?_eq_some_iff,
        Number.atMost?, IsNatural, Value.number.injEq, exists_eq_left']
      constructor
      · rintro ⟨_, ⟨hdigits, rfl⟩, hn⟩
        split_ifs at hn with hle
        cases hn
        exact ⟨⟨hdigits, rfl⟩, hle⟩
      · rintro ⟨⟨hdigits, rfl⟩, hle⟩
        exact ⟨_, ⟨hdigits, rfl⟩, if_pos hle⟩
  | _ => simp [natural?, IsNatural]

theorem mapM_eq_some_iff {α β : Type} {f : α → Option β} {as : List α} {bs : List β} :
    as.mapM f = some bs ↔ List.Forall₂ (fun b a => f a = some b) bs as := by
  induction as generalizing bs with
  | nil => simp [eq_comm]
  | cons a as ih =>
      simp only [List.mapM_cons, Option.bind_eq_bind, Option.bind_eq_some_iff, ih]
      constructor
      · rintro ⟨b, hb, bs, hbs, ⟨⟩⟩
        exact .cons hb hbs
      · rintro (_ | ⟨hb, hbs⟩)
        exact ⟨_, hb, _, hbs, rfl⟩

theorem list?_eq_some_iff {α : Type} {item : Reader α} {value : Value}
    {items : List α} :
    list? item value = some items ↔
      ∃ values, value = .array values ∧
        List.Forall₂ (fun other value => item value = some other) items values := by
  cases value with
  | array values => simp [list?, mapM_eq_some_iff]
  | _ => simp [list?]

theorem word?_eq_some_iff {words : List String} {value : Value} {word : String} :
    word? words value = some word ↔ word ∈ words ∧ IsWord word value := by
  have htext (value : Value) : (text? value).filter (· ∈ words) = some word ↔
      word ∈ words ∧ IsString word value := by
    simp [Option.filter_eq_some_iff, text?_eq_some_iff, and_comm]
  constructor
  · intro h
    unfold word? at h
    split at h
    · obtain ⟨hword, pieces, hpieces, hkey⟩ := (htext _).mp h
      cases hpieces
      exact ⟨hword, .member hkey⟩
    · obtain ⟨hword, hstring⟩ := (htext _).mp h
      exact ⟨hword, .word hstring⟩
  · rintro ⟨hword, ⟨pieces, rfl, hkey⟩ | hkey⟩
    · exact (htext _).mpr ⟨hword, pieces, rfl, hkey⟩
    · exact (htext _).mpr ⟨hword, _, rfl, hkey⟩

/-! ## Records -/

theorem namedMembers?_eq_some_iff {members : List Member}
    {named : List (String × Value)} :
    namedMembers? members = some named ↔ IsNamed members named := by
  induction members generalizing named with
  | nil => simp [namedMembers?, IsNamed, eq_comm]
  | cons member members ih =>
      obtain ⟨key, value⟩ := member
      have hkey (name : String) : text? (.string key) = some name ↔
          IsText key name.toList := by
        simp [text?_eq_some_iff, IsString]
      simp only [namedMembers?, Option.bind_eq_bind, Option.bind_eq_some_iff, hkey, ih]
      constructor
      · rintro ⟨name, hname, rest, hrest, ⟨⟩⟩
        exact .cons ⟨hname, rfl⟩ hrest
      · intro h
        cases h with
        | @cons _ member _ rest hmember hrest =>
            obtain ⟨hname, rfl⟩ := hmember
            exact ⟨member.1, hname, rest, hrest, rfl⟩

theorem only?_eq_some_iff {name : String} {named : List (String × Value)}
    {value : Value} :
    only? named name = some value ↔
      named.filter (fun member => member.1 = name) = [(name, value)] := by
  unfold only?
  constructor
  · intro h
    split at h
    · rename_i other _ heq
      cases h
      have hmem : (other, value) ∈ named.filter fun member => member.1 = name :=
        heq ▸ List.mem_singleton_self _
      have hname : other = name := of_decide_eq_true (List.mem_filter.mp hmem).2
      rw [heq, hname]
    · contradiction
  · intro h
    rw [h]

theorem record?_eq_some_iff {names : List String} (hnodup : names.Nodup) {value : Value}
    {fields : List Value} : record? names value = some fields ↔
      IsRecord names fields value := by
  cases value with
  | array values =>
      simp only [record?, Option.ite_none_right_eq_some, Option.some.injEq]
      constructor
      · rintro ⟨hlength, rfl⟩
        exact .row hlength
      · rintro ⟨hlength⟩
        exact ⟨hlength, rfl⟩
  | object members =>
      simp only [record?, Option.bind_eq_some_iff, namedMembers?_eq_some_iff,
        mapM_eq_some_iff, only?_eq_some_iff]
      constructor
      · rintro ⟨named, hnamed, hfields⟩
        exact .members hfields.length_eq hnamed (filter_mem_perm hnodup hfields.flip)
      · rintro (_ | ⟨hlength, hnamed, hknown⟩)
        refine ⟨_, hnamed, List.Forall₂.flip (List.forall₂_iff_zip.mpr ⟨hlength.symm, ?_⟩)⟩
        exact fun hmem => filter_eq_of_perm hnodup hknown hmem
  | _ =>
      simp only [record?, reduceCtorEq, false_iff]
      rintro ⟨⟩

/-! ## Written texts -/

theorem unit?_control :
    ∀ code < 32, unit? '0' '0' (Nat.digitChar (code / 16)) (Nat.digitChar (code % 16)) =
      some (.unit code) := by
  decide

private theorem exists_piece (c : Char) :
    ∃ piece, SpellsPiece (writeChar c) piece ∧
      ∀ pieces text, IsText pieces text → IsText (piece :: pieces) (c :: text) := by
  have hletter {letter c : Char} (h : escaped? letter = some c) :
      ∃ piece, SpellsPiece ['\\', letter] piece ∧
        ∀ pieces text, IsText pieces text → IsText (piece :: pieces) (c :: text) :=
    ⟨_, .letter h, fun _ _ => .char⟩
  unfold writeChar
  split_ifs with hquote hescape _ _ _ _ _ hcontrol
  any_goals
    subst_vars
    exact hletter rfl
  · have hlt : c.toNat < 32 := hcontrol
    refine ⟨_, .unit (unit?_control c.toNat hlt), fun pieces text htext => ?_⟩
    have hunit := IsText.unit (.inl (show c.toNat < 0xd800 by omega)) htext
    rwa [Char.ofNat_toNat] at hunit
  · exact ⟨_, .plain (not_lt.mp hcontrol) hquote hescape, fun _ _ => .char⟩

private theorem exists_pieces (text : List Char) :
    ∃ pieces, SpellsPieces (text.flatMap writeChar) pieces ∧ IsText pieces text := by
  induction text with
  | nil => exact ⟨[], .nil, .nil⟩
  | cons c text ih =>
      obtain ⟨piece, hpiece, hchar⟩ := exists_piece c
      obtain ⟨pieces, hpieces, htext⟩ := ih
      exact ⟨piece :: pieces, .cons hpiece hpieces, hchar _ _ htext⟩

theorem isNumber_digits (n : Nat) : IsNumber (Number.digits n) := by
  have hdigits : IsDigits (Number.digits n) :=
    ⟨Number.digits_ne_nil n, Number.isDigit_digits⟩
  simpa using IsNumber.unsigned
    (.intro hdigits (Number.isCanonical_digits n) .missing .missing)

private theorem writeRecord_spells {members : List (String × List Char)}
    {values : List Value}
    (hmembers : List.Forall₂ (fun member value => Spells member.2 value.tokens) members values) :
    ∃ pairs : List Member, Spells (writeRecord members) (Value.object pairs).tokens ∧
      IsNamed pairs ((members.map Prod.fst).zip values) := by
  have hwritten : ∃ pairs : List Member,
      List.Forall₂ (fun text pair => Spells text (pairTokens pair)) (members.map writeMember)
        pairs ∧ IsNamed pairs ((members.map Prod.fst).zip values) := by
    induction hmembers with
    | nil => exact ⟨[], .nil, .nil⟩
    | @cons member value members values hvalue _ ih =>
        obtain ⟨pieces, hpieces, htext⟩ := exists_pieces member.1.toList
        obtain ⟨pairs, hpairs, hnamed⟩ := ih
        have hmember : Spells (writeMember member) (pairTokens (pieces, value)) :=
          .token (.string hpieces) (.token .colon hvalue)
        exact ⟨(pieces, value) :: pairs, .cons hmember hpairs,
          .cons ⟨htext, rfl⟩ hnamed⟩
  obtain ⟨pairs, hpairs, hnamed⟩ := hwritten
  exact ⟨pairs, spells_object hpairs, hnamed⟩

end Plain

/-! ## The library -/

theorem plain_reads : plain.Reads where
  strings := Plain.text?_eq_some_iff
  parses := by
    intro α parse value result
    simp only [plain, Option.bind_eq_some_iff, Plain.text?_eq_some_iff]
  naturals _ := Plain.natural?_eq_some_iff
  lists := Plain.list?_eq_some_iff
  records := Plain.record?_eq_some_iff
  words := Plain.word?_eq_some_iff

theorem plain_readsTexts {α : Type} (read : Reader α) : plain.ReadsTexts read := by
  intro text result
  simp only [plain, Plain.fromText, ← ofChars?_eq_some_iff, ← Option.bind_eq_some_iff]
  cases (Value.ofChars? text).bind read <;> simp

theorem plain_writes : plain.Writes where
  strings text := by
    obtain ⟨pieces, hpieces, htext⟩ := Plain.exists_pieces text.toList
    refine ⟨.string pieces, ?_, pieces, rfl, htext⟩
    rw [Value.tokens]
    exact (SpellsToken.string hpieces).alone
  naturals n := by
    refine ⟨.number (Number.digits n), ?_, _, rfl,
      ⟨Number.digits_ne_nil n, Number.isDigit_digits⟩, Nat.ofDigitChars_ten_toDigits⟩
    rw [Value.tokens]
    exact (SpellsToken.number (Plain.isNumber_digits n)).alone
  records := Plain.writeRecord_spells

end RemoteCalc.Json
