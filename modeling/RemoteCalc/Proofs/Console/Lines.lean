import RemoteCalc.Console.Session
import RemoteCalc.Proofs.Number.Grammar
import RemoteCalc.Proofs.Text.Blank

/-!
# What is typed

An input is read line by line.  A line may say a choice of the menu or enter two numbers,
and what it says is found exactly where it stands.
-/

namespace RemoteCalc

open Text

/-! ## Numbers with a limit -/

theorem Number.unsigned?_eq_some_iff {limit n : Nat} {cs : List Char} :
    unsigned? limit cs = some n ↔
      ∃ sign digits, (sign = [] ∨ sign = ['+']) ∧ IsDigits digits ∧
        cs = sign ++ digits ∧
        digitValue digits = n ∧ n ≤ limit := by
  have hread {digits : List Char} :
      (natural? digits).bind (atMost? limit) = some n ↔
        IsDigits digits ∧ digitValue digits = n ∧ n ≤ limit := by
    simp only [Option.bind_eq_some_iff, natural?_eq_some_iff, atMost?]
    constructor
    · rintro ⟨value, ⟨hdigits, rfl⟩, hlimit⟩
      split_ifs at hlimit with hle
      obtain rfl := Option.some.inj hlimit
      exact ⟨hdigits, rfl, hle⟩
    · rintro ⟨hdigits, rfl, hle⟩
      exact ⟨_, ⟨hdigits, rfl⟩, if_pos hle⟩
  constructor
  · intro h
    unfold unsigned? at h
    split at h
    · obtain ⟨hdigits, hvalue, hle⟩ := hread.mp h
      exact ⟨['+'], _, .inr rfl, hdigits, rfl, hvalue, hle⟩
    · obtain ⟨hdigits, hvalue, hle⟩ := hread.mp h
      exact ⟨[], _, .inl rfl, hdigits, rfl, hvalue, hle⟩
  · rintro ⟨sign, digits, rfl | rfl, hdigits, rfl, hvalue, hle⟩
    · unfold unsigned?
      split
      · have := hdigits.2 '+' List.mem_cons_self
        contradiction
      · exact hread.mpr ⟨hdigits, hvalue, hle⟩
    · exact hread.mpr ⟨hdigits, hvalue, hle⟩

namespace Console

open Failover

/-! ## Lines of an input -/

/-- The first line of an input, and what is left behind it. -/
inductive Begins : Wire.Bytes → Line → Wire.Bytes → Prop
  | fed {line rest : Wire.Bytes} (free : lineFeed ∉ line)
      (bare : line.getLast? ≠ some carriageReturn) :
      Begins (line ++ lineFeed :: rest) (decodeLine line) rest
  | returned {line rest : Wire.Bytes} (free : lineFeed ∉ line) :
      Begins (line ++ carriageReturn :: lineFeed :: rest) (decodeLine line) rest
  | last {line : Wire.Bytes} (free : lineFeed ∉ line) (nonempty : line ≠ []) :
      Begins line (decodeLine line) []

def linesOf (input : Wire.Bytes) : List Line := (splitLines input).map decodeLine

private theorem withoutReturn_append (line : Wire.Bytes) :
    withoutReturn (line ++ [carriageReturn]) = line := by
  simp [withoutReturn]

private theorem withoutReturn_of_bare {line : Wire.Bytes}
    (h : line.getLast? ≠ some carriageReturn) :
    withoutReturn line = line := by
  rw [List.getLast?_eq_head?_reverse] at h
  unfold withoutReturn
  split
  · rename_i b rest hreverse
    rw [hreverse] at h
    exact if_neg fun hb => h (congrArg some hb)
  · rfl

private theorem splitLines_eq {input : Wire.Bytes} (h : input ≠ []) :
    splitLines input =
      if input.dropWhile (· ≠ lineFeed) = [] then [input.takeWhile (· ≠ lineFeed)]
      else withoutReturn (input.takeWhile (· ≠ lineFeed)) ::
        splitLines (input.dropWhile (· ≠ lineFeed)).tail := by
  cases input with
  | nil => contradiction
  | cons b rest => rw [splitLines]

private theorem splitLines_feed {line : Wire.Bytes} (h : lineFeed ∉ line)
    (rest : Wire.Bytes) :
    splitLines (line ++ lineFeed :: rest) = withoutReturn line :: splitLines rest := by
  have hrun : ∀ b ∈ line, decide (b ≠ lineFeed) = true := fun b hb =>
    decide_eq_true fun heq => h (heq ▸ hb)
  have hstop : StopsAt (fun b => decide (b ≠ lineFeed)) (lineFeed :: rest) := rfl
  rw [splitLines_eq (by simp), takeWhile_run hrun hstop, dropWhile_run hrun hstop,
    if_neg (List.cons_ne_nil _ _), List.tail_cons]

private theorem splitLines_last {line : Wire.Bytes} (h : lineFeed ∉ line)
    (hne : line ≠ []) :
    splitLines line = [line] := by
  have hrun : ∀ b ∈ line, decide (b ≠ lineFeed) = true := fun b hb =>
    decide_eq_true fun heq => h (heq ▸ hb)
  rw [splitLines_eq hne, if_pos (List.dropWhile_eq_nil_iff.mpr hrun),
    List.takeWhile_eq_self_iff.mpr hrun]

theorem linesOf_nil : linesOf [] = [] := by
  rw [linesOf, splitLines]
  rfl

theorem Begins.linesOf_eq {input rest : Wire.Bytes} {line : Line}
    (h : Begins input line rest) :
    linesOf input = line :: linesOf rest := by
  cases h with
  | fed free bare =>
      rw [linesOf, splitLines_feed free, withoutReturn_of_bare bare]
      rfl
  | @returned line rest free =>
      have hother : lineFeed ≠ carriageReturn := by decide
      have hfree : lineFeed ∉ line ++ [carriageReturn] := by simp [free, hother]
      have hsplit : line ++ carriageReturn :: lineFeed :: rest =
          line ++ [carriageReturn] ++ lineFeed :: rest := by simp
      rw [linesOf, hsplit, splitLines_feed hfree, withoutReturn_append]
      rfl
  | last free nonempty =>
      rw [linesOf, splitLines_last free nonempty, linesOf_nil]
      rfl

theorem exists_begins {input : Wire.Bytes} (h : input ≠ []) :
    ∃ line rest, Begins input line rest ∧ rest.length < input.length := by
  by_cases hfeed : lineFeed ∈ input
  · obtain ⟨line, rest, rfl, hfree⟩ := List.eq_append_cons_of_mem hfeed
    by_cases hbare : line.getLast? = some carriageReturn
    · obtain ⟨bare, rfl⟩ := List.getLast?_eq_some_iff.mp hbare
      refine ⟨decodeLine bare, rest, ?_, ?_⟩
      · rw [List.append_assoc]
        exact .returned fun hmem => hfree (List.mem_append_left _ hmem)
      · simp only [List.length_append, List.length_cons]
        omega
    · refine ⟨decodeLine line, rest, .fed hfree hbare, ?_⟩
      simp only [List.length_append, List.length_cons]
      omega
  · exact ⟨decodeLine input, [], .last hfeed h, List.length_pos_iff.mpr h⟩

/-! ## Choices -/

/-- A line with a whole number in it and nothing else but white space around it. -/
inductive Says : List Char → Nat → Prop
  | intro {before sign digits after : List Char} (hbefore : IsBlank before)
      (hsign : sign = [] ∨ sign = ['+']) (hdigits : Number.IsDigits digits)
      (fits : Number.digitValue digits < 2 ^ 64) (hafter : IsBlank after) :
      Says (before ++ (sign ++ digits) ++ after) (Number.digitValue digits)

private theorem isWhiteSpace_of_isDigit {c : Char} (h : c.isDigit = true) :
    isWhiteSpace c = false := by
  simp only [Char.isDigit, Bool.and_eq_true, decide_eq_true_eq] at h
  have hlo : 48 ≤ c.toNat := h.1
  have hhi : c.toNat ≤ 57 := h.2
  simp [isWhiteSpace, whiteSpace]
  omega

private theorem isToken_unsigned {sign digits : List Char}
    (hsign : sign = [] ∨ sign = ['+'])
    (hdigits : Number.IsDigits digits) : IsToken (sign ++ digits) := by
  obtain ⟨hne, hall⟩ := hdigits
  refine ⟨by simp [hne], List.forall_mem_append.mpr ⟨?_, ?_⟩⟩
  · rcases hsign with rfl | rfl
    · exact List.forall_mem_nil _
    · exact List.forall_mem_singleton.mpr (by decide)
  · exact fun c hc => isWhiteSpace_of_isDigit (hall c hc)

private theorem lt_iff_le_maxChoice {n : Nat} : n < 2 ^ 64 ↔ n ≤ maxChoice := by
  rw [maxChoice]
  omega

theorem choice?_eq_some_iff {line : List Char} {choice : Nat} :
    choice? line = some choice ↔ Says line choice := by
  rw [choice?, Number.unsigned?_eq_some_iff]
  constructor
  · rintro ⟨sign, digits, hsign, hdigits, htrim, rfl, hfits⟩
    obtain ⟨before, after, hbefore, hafter, hline⟩ := exists_trim line
    rw [hline, htrim]
    exact .intro hbefore hsign hdigits (lt_iff_le_maxChoice.mpr hfits) hafter
  · rintro ⟨hbefore, hsign, hdigits, fits, hafter⟩
    exact ⟨_, _, hsign, hdigits,
      trim_append hbefore (isToken_unsigned hsign hdigits).isTrim hafter,
      rfl, lt_iff_le_maxChoice.mp fits⟩

def offers : List (Nat × Operation) :=
  [(1, .add), (2, .subtract), (3, .multiply), (4, .divide)]

theorem operation?_eq_some_iff {choice : Nat} {operation : Operation} :
    operation? choice = some operation ↔ (choice, operation) ∈ offers := by
  match choice with
  | 0 | 1 | 2 | 3 | 4 => cases operation <;> decide
  | choice + 5 => simp [operation?, Operation.arithmetic, offers]

/-! ## Operands -/

/-- A line with two words in it, each of which stands for a number. -/
def Enters (line : List Char) (lhs rhs : Float) : Prop :=
  ∃ first second, AreWords line [first, second] ∧ Number.IsNumber first lhs ∧
    Number.IsNumber second rhs

theorem operands?_eq_some_iff {line : List Char} {lhs rhs : Float} :
    operands? line = some (lhs, rhs) ↔ Enters line lhs rhs := by
  have hread {first second : List Char} :
      (do return (← Number.read? first, ← Number.read? second) : Option (Float × Float)) =
        some (lhs, rhs) ↔ Number.IsNumber first lhs ∧ Number.IsNumber second rhs := by
    simp [Option.bind_eq_some_iff, Number.read?_eq_some_iff]
  constructor
  · intro h
    unfold operands? at h
    split at h
    · rename_i first second hwords
      exact ⟨first, second, words_eq_iff.mp hwords, hread.mp h⟩
    · contradiction
  · rintro ⟨first, second, hwords, hnumbers⟩
    rw [operands?, words_eq_iff.mpr hwords]
    exact hread.mpr hnumbers

end Console

end RemoteCalc
