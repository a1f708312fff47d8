import RemoteCalc.Json.Library
import RemoteCalc.Number.Natural
import RemoteCalc.Proofs.Json.Value

/-!
# What a JSON library does

The documented behaviour of a library, told by the values that a text spells: how each kind
of reader tells what a value stands for, and what the writers spell.
-/

namespace RemoteCalc.Json

open Number (IsDigits digitValue)

/-! ## What values stand for -/

/-- The text of a string: a UTF-16 unit stands for itself or with another for one character. -/
inductive IsText : List Piece → List Char → Prop
  | nil : IsText [] []
  | char {c : Char} {pieces : List Piece} {text : List Char} (h : IsText pieces text) :
      IsText (.char c :: pieces) (c :: text)
  | unit {code : Nat} {pieces : List Piece} {text : List Char}
      (hsingle : code < 0xd800 ∨ 0xe000 ≤ code) (h : IsText pieces text) :
      IsText (.unit code :: pieces) (Char.ofNat code :: text)
  | pair {high low : Nat} {pieces : List Piece} {text : List Char}
      (hhigh : 0xd800 ≤ high ∧ high < 0xdc00) (hlow : 0xdc00 ≤ low ∧ low < 0xe000)
      (h : IsText pieces text) :
      IsText (.unit high :: .unit low :: pieces)
        (Char.ofNat (0x10000 + (high - 0xd800) * 0x400 + (low - 0xdc00)) :: text)

def IsString (text : String) (value : Value) : Prop :=
  ∃ pieces, value = .string pieces ∧ IsText pieces text.toList

def IsNatural (n : Nat) (value : Value) : Prop :=
  ∃ literal, value = .number literal ∧ IsDigits literal ∧ digitValue literal = n

abbrev Member := List Piece × Value

def IsNamed : List Member → List (String × Value) → Prop :=
  List.Forall₂ fun member named => IsText member.1 named.1.toList ∧ member.2 = named.2

/-- The fields in an array, or under their names in an object, in any order among any others. -/
inductive IsRecord (names : List String) (fields : List Value) : Value → Prop
  | row (hlength : fields.length = names.length) : IsRecord names fields (.array fields)
  | members {members : List Member} {named : List (String × Value)}
      (hlength : fields.length = names.length) (hnamed : IsNamed members named)
      (hknown : (named.filter fun member => member.1 ∈ names).Perm (names.zip fields)) :
      IsRecord names fields (.object members)

/-- The word, or an object that has it as the key of a null. -/
inductive IsWord (word : String) : Value → Prop
  | word {value : Value} (h : IsString word value) : IsWord word value
  | member {key : List Piece} (h : IsText key word.toList) : IsWord word (.object [(key, .null)])

theorem IsText.unique {pieces : List Piece} {text other : List Char}
    (h : IsText pieces text) (hother : IsText pieces other) : text = other := by
  induction h generalizing other with
  | nil =>
      cases hother
      rfl
  | char _ ih =>
      cases hother with
      | char hrest => rw [ih hrest]
  | unit hsingle _ ih =>
      cases hother with
      | unit _ hrest => rw [ih hrest]
      | pair hhigh => omega
  | pair hhigh _ _ ih =>
      cases hother with
      | unit hsingle => omega
      | pair _ _ hrest => rw [ih hrest]

/-! ## Fields by their names -/

section

variable {name : String} {names : List String} {named : List (String × Value)}

theorem filter_mem_perm {values : List Value} (hnodup : names.Nodup)
    (h : List.Forall₂ (fun name value => named.filter (fun member => member.1 = name) =
      [(name, value)]) names values) :
    (named.filter fun member => member.1 ∈ names).Perm (names.zip values) := by
  induction h with
  | nil => simp
  | @cons name value names values hname _ ih =>
      obtain ⟨hfresh, hnodup⟩ := List.nodup_cons.mp hnodup
      have hfirst : (named.filter fun member => member.1 ∈ name :: names).filter
          (fun member => member.1 = name) = [(name, value)] := by
        rw [List.filter_filter, ← hname]
        exact List.filter_congr fun member _ => by simp_all
      have hothers : (named.filter fun member => member.1 ∈ name :: names).filter
          (fun member => !decide (member.1 = name)) =
            named.filter fun member => member.1 ∈ names := by
        rw [List.filter_filter]
        refine List.filter_congr fun member _ => ?_
        by_cases heq : member.1 = name <;> simp_all
      have hsplit := List.filter_append_perm (fun member => decide (member.1 = name))
        (named.filter fun member => member.1 ∈ name :: names)
      rw [hfirst, hothers] at hsplit
      exact hsplit.symm.trans ((ih hnodup).cons _)

private theorem filter_zip {value : Value} {values : List Value} (hnodup : names.Nodup)
    (hmem : (name, value) ∈ names.zip values) :
    (names.zip values).filter (fun member => member.1 = name) = [(name, value)] := by
  induction names generalizing values with
  | nil => simp at hmem
  | cons other names ih =>
      cases values with
      | nil => simp at hmem
      | cons first values =>
          obtain ⟨hfresh, hnodup⟩ := List.nodup_cons.mp hnodup
          rw [List.zip_cons_cons] at hmem ⊢
          rcases List.mem_cons.mp hmem with heq | htail
          · cases heq
            have hnone : (names.zip values).filter (fun member => member.1 = name) = [] := by
              refine List.filter_eq_nil_iff.mpr fun member hmember heq => hfresh ?_
              rw [← of_decide_eq_true heq]
              exact (List.of_mem_zip hmember).1
            rw [List.filter_cons_of_pos (by simp), hnone]
          · have hne : other ≠ name := by
              rintro rfl
              exact hfresh (List.of_mem_zip htail).1
            rw [List.filter_cons_of_neg (by simpa using hne), ih hnodup htail]

theorem filter_eq_of_perm {value : Value} {values : List Value} (hnodup : names.Nodup)
    (h : (named.filter fun member => member.1 ∈ names).Perm (names.zip values))
    (hmem : (name, value) ∈ names.zip values) :
    named.filter (fun member => member.1 = name) = [(name, value)] := by
  have hname : name ∈ names := (List.of_mem_zip hmem).1
  have hfilter := h.filter fun member => member.1 = name
  rw [filter_zip hnodup hmem, List.filter_filter, List.perm_singleton] at hfilter
  rw [← hfilter]
  refine List.filter_congr fun member _ => ?_
  by_cases heq : member.1 = name <;> simp_all

end

/-! ## What libraries do -/

namespace Library

/-- The readers tell what a value stands for, as long as numbers fit in 64 bits. -/
structure Reads (json : Library) : Prop where
  strings {value : Value} {text : String} : json.string value = some text ↔
    IsString text value
  parses {α : Type} {parse : List Char → Option α} {value : Value} {result : α} :
    json.parsed parse value = some result ↔
      ∃ text, IsString text value ∧ parse text.toList = some result
  naturals {limit : Nat} (hlimit : limit < 2 ^ 64) {value : Value} {n : Nat} :
    json.natural limit value = some n ↔ IsNatural n value ∧ n ≤ limit
  lists {α : Type} {item : Reader α} {value : Value} {items : List α} :
    json.list item value = some items ↔
      ∃ values, value = .array values ∧
        List.Forall₂ (fun other value => item value = some other) items values
  records {names : List String} (hnodup : names.Nodup) {value : Value} {fields : List Value} :
    json.record names value = some fields ↔ IsRecord names fields value
  words {words : List String} {value : Value} {word : String} :
    json.word words value = some word ↔ word ∈ words ∧ IsWord word value

/-- With this reader a text is read strictly: one value with nothing but blanks around it. -/
def ReadsTexts (json : Library) {α : Type} (read : Reader α) : Prop :=
  ∀ text result, json.fromText read text = .ok result ↔
    ∃ value, Spells text value.tokens ∧ read value = some result

/-- What is written spells what it was written for. -/
structure Writes (json : Library) : Prop where
  strings (text : String) :
    ∃ value, Spells (json.writeString text) value.tokens ∧ IsString text value
  naturals (n : Nat) : ∃ value, Spells (json.writeNatural n) value.tokens ∧
    IsNatural n value
  records {members : List (String × List Char)} {values : List Value}
    (hmembers : List.Forall₂ (fun member value => Spells member.2 value.tokens) members values) :
    ∃ pairs : List Member, Spells (json.writeRecord members) (Value.object pairs).tokens ∧
      IsNamed pairs ((members.map Prod.fst).zip values)

end Library

end RemoteCalc.Json
