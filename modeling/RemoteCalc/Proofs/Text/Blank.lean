import Mathlib.Data.List.TakeWhile
import RemoteCalc.Proofs.Text.Run
import RemoteCalc.Text.Blank

/-!
# White space around and between words

A text is trimmed to what stands between the white space at its ends.  Its words are found
exactly where white space divides it.
-/

namespace RemoteCalc.Text

def IsBlank (cs : List Char) : Prop := ∀ c ∈ cs, isWhiteSpace c = true

structure IsToken (cs : List Char) : Prop where
  nonempty : cs ≠ []
  solid : ∀ c ∈ cs, isWhiteSpace c = false

structure IsTrim (cs : List Char) : Prop where
  front : StopsAt isWhiteSpace cs
  back : StopsAt isWhiteSpace cs.reverse

theorem IsBlank.reverse {cs : List Char} (h : IsBlank cs) : IsBlank cs.reverse :=
  fun c hc => h c (List.mem_reverse.mp hc)

/-! ## Trimming -/

theorem IsToken.isTrim {cs : List Char} (h : IsToken cs) : IsTrim cs := by
  have hstops {list : List Char} (hlist : ∀ c ∈ list, isWhiteSpace c = false) :
      StopsAt isWhiteSpace list := by
    cases list with
    | nil => trivial
    | cons c list => exact hlist c List.mem_cons_self
  exact ⟨hstops h.solid, hstops fun c hc => h.solid c (List.mem_reverse.mp hc)⟩

theorem trim_append {before core after : List Char} (hbefore : IsBlank before)
    (hcore : IsTrim core) (hafter : IsBlank after) :
    trim (before ++ core ++ after) = core := by
  cases core with
  | nil =>
      have hall : IsBlank (before ++ [] ++ after) := by
        rw [List.append_nil]
        exact List.forall_mem_append.mpr ⟨hbefore, hafter⟩
      rw [trim, List.dropWhile_eq_nil_iff.mpr hall]
      rfl
  | cons c core =>
      have hfront : StopsAt isWhiteSpace (c :: core ++ after) := hcore.front
      rw [trim, List.append_assoc, dropWhile_run hbefore hfront, List.reverse_append,
        dropWhile_run hafter.reverse hcore.back, List.reverse_reverse]

theorem exists_trim (cs : List Char) :
    ∃ before after, IsBlank before ∧ IsBlank after ∧
      cs = before ++ trim cs ++ after := by
  have hrun {list : List Char} : IsBlank (list.takeWhile isWhiteSpace) :=
    fun c hc => List.mem_takeWhile_imp hc
  refine ⟨cs.takeWhile isWhiteSpace,
    ((cs.dropWhile isWhiteSpace).reverse.takeWhile isWhiteSpace).reverse,
    hrun, hrun.reverse, ?_⟩
  rw [trim, List.append_assoc, ← List.reverse_append, List.takeWhile_append_dropWhile,
    List.reverse_reverse, List.takeWhile_append_dropWhile]

/-! ## Words -/

theorem words_blank_append {blanks : List Char} (h : IsBlank blanks) (cs : List Char) :
    words (blanks ++ cs) = words cs := by
  induction blanks with
  | nil => rfl
  | cons blank blanks ih =>
      obtain ⟨hblank, hblanks⟩ := List.forall_mem_cons.mp h
      rw [List.cons_append, words, if_pos hblank, ih hblanks]

private theorem words_blank {blanks : List Char} (h : IsBlank blanks) :
    words blanks = [] := by
  have hwords := words_blank_append h []
  rwa [List.append_nil, words] at hwords

private theorem words_word_append {word rest : List Char} (hword : IsToken word)
    (hrest : StopsAt (!isWhiteSpace ·) rest) :
    words (word ++ rest) = word :: words rest := by
  obtain ⟨hne, hsolid⟩ := hword
  cases word with
  | nil => contradiction
  | cons c word =>
      obtain ⟨hc, hword⟩ := List.forall_mem_cons.mp hsolid
      have hrun : ∀ d ∈ word, (!isWhiteSpace d) = true :=
        fun d hd => by simp [hword d hd]
      rw [List.cons_append, words, if_neg (by simp [hc]), takeWhile_run hrun hrest,
        dropWhile_run hrun hrest]

/-- Where the words of a text stand: before each is white space, or nothing before the first. -/
inductive AreWords : List Char → List (List Char) → Prop
  | none {blanks : List Char} (hblanks : IsBlank blanks) : AreWords blanks []
  | some {blanks word rest : List Char} {words : List (List Char)} (hblanks : IsBlank blanks)
      (hword : IsToken word) (hrest : StopsAt (!isWhiteSpace ·) rest)
      (later : AreWords rest words) :
      AreWords (blanks ++ (word ++ rest)) (word :: words)

private theorem AreWords.words_eq {cs : List Char} {found : List (List Char)}
    (h : AreWords cs found) :
    words cs = found := by
  induction h with
  | none hblanks => exact words_blank hblanks
  | some hblanks hword hrest _ ih =>
      rw [words_blank_append hblanks, words_word_append hword hrest, ih]

private theorem AreWords.blank_cons {blank : Char} {cs : List Char}
    {found : List (List Char)}
    (hblank : isWhiteSpace blank = true) (h : AreWords cs found) :
    AreWords (blank :: cs) found := by
  cases h with
  | none hblanks => exact .none (List.forall_mem_cons.mpr ⟨hblank, hblanks⟩)
  | some hblanks hword hrest later =>
      exact .some (List.forall_mem_cons.mpr ⟨hblank, hblanks⟩) hword hrest later

private theorem areWords_words (cs : List Char) : AreWords cs (words cs) := by
  fun_induction words cs with
  | case1 => exact .none (List.forall_mem_nil _)
  | case2 c cs hblank ih => exact ih.blank_cons hblank
  | case3 c cs hsolid ih =>
      have hword : IsToken (c :: cs.takeWhile (!isWhiteSpace ·)) := by
        refine ⟨List.cons_ne_nil _ _,
          List.forall_mem_cons.mpr ⟨by simpa using hsolid, ?_⟩⟩
        intro d hd
        simpa using List.mem_takeWhile_imp hd
      have hsplit : c :: cs = [] ++
          (c :: cs.takeWhile (!isWhiteSpace ·) ++ cs.dropWhile (!isWhiteSpace ·)) := by
        rw [List.nil_append, List.cons_append, List.takeWhile_append_dropWhile]
      rw [hsplit]
      exact .some (List.forall_mem_nil _) hword (stopsAt_dropWhile _ _) ih

theorem words_eq_iff {cs : List Char} {found : List (List Char)} :
    words cs = found ↔ AreWords cs found :=
  ⟨fun h => h ▸ areWords_words cs, AreWords.words_eq⟩

end RemoteCalc.Text
