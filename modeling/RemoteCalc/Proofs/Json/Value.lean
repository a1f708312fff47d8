import RemoteCalc.Json.Value
import RemoteCalc.Proofs.Json.Token

/-!
# Values and their tokens

The stack reader and the printer are inverse to each other: a row of tokens is read as a
value exactly if the value prints as that row.  One direction follows a value through the
reader, the other keeps an account of what each state of the reader has consumed.
-/

namespace RemoteCalc.Json

/-- What holds of an array or object if it holds of all that is in it holds of every value. -/
theorem Value.induction {motive : Value → Prop} (null : motive .null)
    (bool : ∀ value, motive (.bool value))
    (number : ∀ literal, motive (.number literal))
    (string : ∀ pieces, motive (.string pieces))
    (array : ∀ items, (∀ item ∈ items, motive item) → motive (.array items))
    (object : ∀ members, (∀ member ∈ members, motive member.2) → motive (.object members))
    (value : Value) : motive value :=
  match value with
  | .null => null
  | .bool value => bool value
  | .number literal => number literal
  | .string pieces => string pieces
  | .array items => array items fun item _ =>
      Value.induction null bool number string array object item
  | .object members => object members fun member _ =>
      Value.induction null bool number string array object member.2
termination_by sizeOf value
decreasing_by
  · have := List.sizeOf_lt_of_mem ‹item ∈ items›
    simp
    omega
  · have := List.sizeOf_lt_of_mem ‹member ∈ members›
    have : sizeOf member.2 < sizeOf member := by
      cases member
      simp
    simp
    omega

/-! ## A value goes through the reader -/

attribute [simp] Value.tokens itemTokens memberTokens Reading.step beginValue beginMember separate

@[simp] theorem Reading.run_cons (reading : Reading) (token : Token)
    (tokens : List Token) :
    reading.run (token :: tokens) = (reading.step token).bind (·.run tokens) := by
  rw [Reading.run]
  cases reading.step token <;> rfl

@[simp] theorem settle_array (value : Value) (done : List Value) (stack : List Open) :
    settle value (.array done :: stack) =
      some (.within (.array (value :: done) :: stack) .separator) := rfl

@[simp] theorem settle_member (value : Value) (done : List (List Piece × Value))
    (key : List Piece) (stack : List Open) :
    settle value (.member done key :: stack) =
      some (.within (.object ((key, value) :: done) :: stack) .separator) := rfl

def IsRead (value : Value) : Prop :=
  ∀ stack rest, Reading.run (.within stack .value) (value.tokens ++ rest) =
    (settle value stack).bind (·.run rest)

private theorem run_items {item : Value} {items : List Value}
    (h : ∀ other ∈ item :: items, IsRead other)
    (done : List Value) (stack : List Open) (rest : List Token) :
    Reading.run (.within (.array done :: stack) .value)
        (itemTokens (item :: items) ++ .closeArray :: rest) =
      (settle (.array (done.reverse ++ item :: items)) stack).bind (·.run rest) := by
  induction items generalizing item done with
  | nil =>
      rw [itemTokens, h item (by simp)]
      simp
  | cons next items ih =>
      obtain ⟨hitem, hitems⟩ := List.forall_mem_cons.mp h
      rw [itemTokens, List.append_assoc, hitem]
      simp [ih hitems]

private theorem run_members {key : List Piece} {value : Value}
    {members : List (List Piece × Value)}
    (h : ∀ member ∈ (key, value) :: members, IsRead member.2)
    (done : List (List Piece × Value)) (stack : List Open) (rest : List Token) :
    Reading.run (.within (.object done :: stack) .key)
        (memberTokens ((key, value) :: members) ++ .closeObject :: rest) =
      (settle (.object (done.reverse ++ (key, value) :: members)) stack).bind (·.run rest) := by
  induction members generalizing key value done with
  | nil =>
      have hvalue := h (key, value) (by simp)
      simp [hvalue _ _]
  | cons next members ih =>
      obtain ⟨hvalue, hmembers⟩ := List.forall_mem_cons.mp h
      simp [hvalue _ _, ih hmembers]

private theorem run_firstItem (value : Value) (stack : List Open) (rest : List Token) :
    Reading.run (.within (.array [] :: stack) .firstItem) (value.tokens ++ rest) =
      Reading.run (.within (.array [] :: stack) .value) (value.tokens ++ rest) := by
  cases value <;> simp

private theorem exists_itemTokens (item : Value) (items : List Value) :
    ∃ rest, itemTokens (item :: items) = item.tokens ++ rest := by
  cases items with
  | nil => exact ⟨[], by rw [itemTokens, List.append_nil]⟩
  | cons next items => exact ⟨_, by rw [itemTokens]⟩

private theorem exists_memberTokens (key : List Piece) (value : Value)
    (members : List (List Piece × Value)) :
    ∃ rest, memberTokens ((key, value) :: members) = .string key :: rest := by
  cases members with
  | nil => exact ⟨_, by rw [memberTokens]⟩
  | cons next members => exact ⟨_, by rw [memberTokens]; rfl⟩

private theorem isRead (value : Value) : IsRead value := by
  induction value using Value.induction with
  | null => simp [IsRead]
  | bool value => simp [IsRead]
  | number literal => simp [IsRead]
  | string pieces => simp [IsRead]
  | array items ih =>
      intro stack rest
      cases items with
      | nil => simp
      | cons item items =>
          have hitems := run_items ih [] stack rest
          obtain ⟨tail, htail⟩ := exists_itemTokens item items
          rw [htail, List.append_assoc, ← run_firstItem] at hitems
          simpa [htail] using hitems
  | object members ih =>
      intro stack rest
      cases members with
      | nil => simp
      | cons member members =>
          obtain ⟨key, value⟩ := member
          have hmembers := run_members ih [] stack rest
          obtain ⟨tail, htail⟩ := exists_memberTokens key value members
          rw [htail] at hmembers
          simpa [htail] using hmembers

private theorem ofTokens?_tokens (value : Value) :
    Value.ofTokens? value.tokens = some value := by
  have h := isRead value [] []
  rw [List.append_nil] at h
  simp [Value.ofTokens?, h, settle, Reading.run]

/-! ## What the reader has consumed -/

@[simp] def pairTokens (member : List Piece × Value) : List Token :=
  .string member.1 :: .colon :: member.2.tokens

/-- What an open array or object has shown of itself when it waits for what comes next. -/
@[simp] def Open.tokens : Open → List Token
  | .array done => .openArray :: done.reverse.flatMap fun item => item.tokens ++ [.comma]
  | .object done =>
      .openObject :: done.reverse.flatMap fun member => pairTokens member ++ [.comma]
  | .member done key =>
      .openObject :: (done.reverse.flatMap fun member => pairTokens member ++ [.comma]) ++
        [.string key, .colon]

@[simp] def before : List Open → List Token
  | [] => []
  | frame :: stack => before stack ++ frame.tokens

/--
The states that the reader can be in, with all the tokens it has seen.  A frame on top that
does not suit what comes next, as a member before a separator, has no constructor.
-/
inductive Consumed : Reading → List Token → Prop
  | finished (value : Value) : Consumed (.finished value) value.tokens
  | value (stack : List Open) : Consumed (.within stack .value) (before stack)
  | firstItem (stack : List Open) :
      Consumed (.within (.array [] :: stack) .firstItem) (before (.array [] :: stack))
  | firstKey (stack : List Open) :
      Consumed (.within (.object [] :: stack) .firstKey) (before (.object [] :: stack))
  | key (done : List (List Piece × Value)) (stack : List Open) :
      Consumed (.within (.object done :: stack) .key) (before (.object done :: stack))
  | colon (done : List (List Piece × Value)) (key : List Piece) (stack : List Open) :
      Consumed (.within (.member done key :: stack) .colon)
        (before (.object done :: stack) ++ [.string key])
  | item (done : List Value) (value : Value) (stack : List Open) :
      Consumed (.within (.array (value :: done) :: stack) .separator)
        (before (.array done :: stack) ++ value.tokens)
  | member (done : List (List Piece × Value)) (key : List Piece) (value : Value)
      (stack : List Open) :
      Consumed (.within (.object ((key, value) :: done) :: stack) .separator)
        (before (.member done key :: stack) ++ value.tokens)

private theorem consumed_finished {value : Value} {tokens : List Token}
    (h : Consumed (.finished value) tokens) : tokens = value.tokens := by
  cases h
  rfl

private theorem itemTokens_append (items : List Value) (last : Value) :
    itemTokens (items ++ [last]) =
      (items.flatMap fun item => item.tokens ++ [.comma]) ++ last.tokens := by
  induction items with
  | nil => simp
  | cons item items ih =>
      cases items with
      | nil => simp
      | cons next items => simp_all

private theorem memberTokens_append (members : List (List Piece × Value))
    (last : List Piece × Value) :
    memberTokens (members ++ [last]) =
      (members.flatMap fun member => pairTokens member ++ [.comma]) ++ pairTokens last := by
  induction members with
  | nil => simp
  | cons member members ih =>
      cases members with
      | nil => simp
      | cons next members => simp_all

private theorem consumed_settle {value : Value} {stack : List Open} {reading : Reading}
    (h : settle value stack = some reading) :
    Consumed reading (before stack ++ value.tokens) := by
  unfold settle at h
  split at h <;> cases h
  · exact .finished value
  · exact .item _ value _
  · exact .member _ _ value _

private theorem consumed_beginValue {stack : List Open} {token : Token}
    {reading : Reading} (h : beginValue stack token = some reading) :
    Consumed reading (before stack ++ [token]) := by
  unfold beginValue at h
  split at h
  · exact consumed_settle h
  · exact consumed_settle h
  · exact consumed_settle h
  · exact consumed_settle h
  · cases h
    exact .firstItem stack
  · cases h
    exact .firstKey stack
  · contradiction

private theorem consumed_beginMember {done : List (List Piece × Value)}
    {stack : List Open} {token : Token} {reading : Reading}
    (h : beginMember (.object done :: stack) token = some reading) :
    Consumed reading (before (.object done :: stack) ++ [token]) := by
  unfold beginMember at h
  split at h
  · rename_i heq
    cases heq
    cases h
    exact .colon done _ stack
  · contradiction

private theorem consumed_step {reading next : Reading} {tokens : List Token}
    {token : Token}
    (h : Consumed reading tokens) (hstep : reading.step token = some next) :
    Consumed next (tokens ++ [token]) := by
  cases h with
  | finished value => simp at hstep
  | value stack => exact consumed_beginValue hstep
  | firstItem stack =>
      by_cases hclose : token = .closeArray
      · subst hclose
        simpa using consumed_settle hstep
      · exact consumed_beginValue (by simpa [hclose] using hstep)
  | firstKey stack =>
      by_cases hclose : token = .closeObject
      · subst hclose
        simpa using consumed_settle hstep
      · exact consumed_beginMember (by simpa [hclose] using hstep)
  | key done stack => exact consumed_beginMember hstep
  | colon done key stack =>
      cases token with
      | colon => 
          cases hstep
          simpa using Consumed.value (.member done key :: stack)
      | _ => simp at hstep
  | item done value stack =>
      cases token with
      | comma =>
          cases hstep
          simpa using Consumed.value (.array (value :: done) :: stack)
      | closeArray =>
          simpa [itemTokens_append] using consumed_settle hstep
      | _ => simp at hstep
  | member done key value stack =>
      cases token with
      | comma =>
          cases hstep
          simpa using
            Consumed.key ((key, value) :: done) stack
      | closeObject =>
          simpa [memberTokens_append] using
            consumed_settle hstep
      | _ => simp at hstep

private theorem consumed_run {reading last : Reading} {seen tokens : List Token}
    (h : Consumed reading seen) (hrun : reading.run tokens = some last) :
    Consumed last (seen ++ tokens) := by
  induction tokens generalizing reading seen with
  | nil =>
      cases hrun
      rwa [List.append_nil]
  | cons token tokens ih =>
      rw [Reading.run_cons] at hrun
      obtain ⟨next, hstep, hrest⟩ := Option.bind_eq_some_iff.mp hrun
      have := ih (consumed_step h hstep) hrest
      rwa [List.append_assoc] at this

/-- Tokens are read as a value exactly if they are the tokens of that value. -/
theorem ofTokens?_eq_some_iff {tokens : List Token} {value : Value} :
    Value.ofTokens? tokens = some value ↔ tokens = value.tokens := by
  constructor
  · intro h
    unfold Value.ofTokens? at h
    split at h
    · rename_i last hrun
      cases h
      exact consumed_finished (consumed_run (.value []) hrun)
    · contradiction
  · rintro rfl
    exact ofTokens?_tokens value

/-! ## Texts of values -/

def Follows (tokens : List Token) : Prop :=
  tokens.IsChain Apart ∧ ∀ token ∈ tokens.head?, token.isNumber = false

private theorem isChain_cons {token : Token} {rest : List Token} (h : Follows rest) :
    (token :: rest).IsChain Apart :=
  List.isChain_cons.mpr ⟨fun next hnext _ => h.2 next hnext, h.1⟩

private theorem follows_cons {token : Token} {rest : List Token}
    (htoken : token.isNumber = false)
    (h : rest.IsChain Apart) : Follows (token :: rest) := by
  refine ⟨List.isChain_cons.mpr ⟨fun next _ => ?_, h⟩, by simpa using htoken⟩
  simp [Apart, htoken]

def IsApart (value : Value) : Prop :=
  ∀ rest, Follows rest → (value.tokens ++ rest).IsChain Apart

private theorem isChain_items {items : List Value} (h : ∀ item ∈ items, IsApart item)
    {rest : List Token} (hrest : Follows rest) :
    (itemTokens items ++ rest).IsChain Apart := by
  induction items with
  | nil => exact hrest.1
  | cons item items ih =>
      obtain ⟨hitem, hitems⟩ := List.forall_mem_cons.mp h
      cases items with
      | nil => simpa using hitem rest hrest
      | cons next items => simpa using hitem _ (follows_cons rfl (ih hitems))

private theorem isChain_members {members : List (List Piece × Value)}
    (h : ∀ member ∈ members, IsApart member.2) {rest : List Token}
    (hrest : Follows rest) :
    (memberTokens members ++ rest).IsChain Apart := by
  induction members with
  | nil => exact hrest.1
  | cons member members ih =>
      obtain ⟨hvalue, hmembers⟩ := List.forall_mem_cons.mp h
      have hpair {rest : List Token} (hrest : Follows rest) :
          (.string member.1 :: .colon :: (member.2.tokens ++ rest)).IsChain Apart :=
        isChain_cons (follows_cons rfl (hvalue rest hrest))
      cases members with
      | nil => simpa using hpair hrest
      | cons next members => simpa using hpair (follows_cons rfl (ih hmembers))

private theorem isApart (value : Value) : IsApart value := by
  induction value using Value.induction with
  | null => exact fun _ => isChain_cons
  | bool value => exact fun _ => isChain_cons
  | number literal => exact fun _ => isChain_cons
  | string pieces => exact fun _ => isChain_cons
  | array items ih =>
      intro rest hrest
      have hclose : Follows (.closeArray :: rest) := follows_cons rfl hrest.1
      have hopen : Follows (.openArray :: (itemTokens items ++ .closeArray :: rest)) :=
        follows_cons rfl (isChain_items ih hclose)
      simpa using hopen.1
  | object members ih =>
      intro rest hrest
      have hclose : Follows (.closeObject :: rest) := follows_cons rfl hrest.1
      have hopen : Follows (.openObject :: (memberTokens members ++ .closeObject :: rest)) :=
        follows_cons rfl (isChain_members ih hclose)
      simpa using hopen.1

private theorem isChain_tokens (value : Value) : value.tokens.IsChain Apart := by
  simpa using isApart value [] ⟨.nil, by simp⟩

private theorem scan?_tokens {text : List Char} {value : Value}
    (h : Spells text value.tokens) :
    scan? text = some value.tokens := by
  have hend : Text.StopsAt isNumberPart [] := trivial
  have hscan := scan?_spelled h (isChain_tokens value) fun _ _ _ => hend
  simpa [scan?] using hscan

/-- A text is read as the one value whose tokens it spells. -/
theorem ofChars?_eq_some_iff {text : List Char} {value : Value} :
    Value.ofChars? text = some value ↔ Spells text value.tokens := by
  constructor
  · intro h
    obtain ⟨tokens, hscan, htokens⟩ := Option.bind_eq_some_iff.mp h
    rw [← ofTokens?_eq_some_iff.mp htokens]
    exact spells_of_scan? hscan
  · intro h
    simp [Value.ofChars?, scan?_tokens h, ofTokens?_tokens]

private theorem eq_nil_of_tokens_append {value other : Value} {rest : List Token}
    (h : other.tokens = value.tokens ++ rest) : rest = [] := by
  have hread := ofTokens?_tokens other
  have hrun := isRead value [] rest
  cases rest with
  | nil => rfl
  | cons token rest =>
      simp [settle] at hrun
      simp [Value.ofTokens?, h, hrun] at hread

private theorem isSpace_of_spells {text : List Char} (h : Spells text []) :
    ∀ c ∈ text, isSpace c = true := by
  generalize hnone : ([] : List Token) = tokens at h
  induction h with
  | nil => simp
  | space hspace _ ih => exact List.forall_mem_cons.mpr ⟨hspace, ih hnone⟩
  | token => contradiction

/-- Behind an array nothing but white space can make the text that of a value. -/
theorem not_spells_append {front rest : List Char} {items : List Value} {other : Value}
    (hfront : Spells front (Value.array items).tokens)
    (hrest : ∃ c ∈ rest, isSpace c = false) :
    ¬ Spells (front ++ rest) other.tokens := by
  intro h
  have hlast : ∀ token ∈ (Value.array items).tokens.getLast?, token.isNumber = true →
      Text.StopsAt isNumberPart rest := by
    have hclose : (Value.array items).tokens.getLast? = some .closeArray := by
      simp [List.getLast?_cons]
    rw [hclose]
    rintro _ ⟨⟩ hnumber
    contradiction
  have hscan := scan?_spelled hfront (isChain_tokens _) hlast
  rw [scan?_tokens h] at hscan
  obtain ⟨tokens, htokens, heq⟩ := Option.map_eq_some_iff.mp hscan.symm
  obtain rfl := eq_nil_of_tokens_append heq.symm
  obtain ⟨c, hc, hspace⟩ := hrest
  have := isSpace_of_spells (spells_of_scan? htokens) c hc
  simp [hspace] at this

/-! ## Texts without white space -/

theorem spells_items {texts : List (List Char)} {items : List Value}
    (h : List.Forall₂ (fun text item => Spells text item.tokens) texts items) :
    Spells (List.intercalate [','] texts) (itemTokens items) := by
  induction h with
  | nil => exact .nil
  | cons htext hrest ih =>
      cases hrest with
      | nil => simpa using htext
      | cons => simpa using htext.append (.token .comma ih)

private theorem spells_members {texts : List (List Char)}
    {members : List (List Piece × Value)}
    (h : List.Forall₂ (fun text member => Spells text (pairTokens member)) texts members) :
    Spells (List.intercalate [','] texts) (memberTokens members) := by
  induction h with
  | nil => exact .nil
  | cons htext hrest ih =>
      cases hrest with
      | nil => simpa using htext
      | cons => simpa using htext.append (.token .comma ih)

theorem spells_array {texts : List (List Char)} {items : List Value}
    (h : List.Forall₂ (fun text item => Spells text item.tokens) texts items) :
    Spells ('[' :: List.intercalate [','] texts ++ [']']) (Value.array items).tokens := by
  simpa using
    Spells.token .openArray ((spells_items h).append SpellsToken.closeArray.alone)

theorem spells_object {texts : List (List Char)} {members : List (List Piece × Value)}
    (h : List.Forall₂ (fun text member => Spells text (pairTokens member)) texts members) :
    Spells ('\x7b' :: List.intercalate [','] texts ++ ['\x7d']) (Value.object members).tokens := by
  simpa using
    Spells.token .openObject ((spells_members h).append SpellsToken.closeObject.alone)

end RemoteCalc.Json
