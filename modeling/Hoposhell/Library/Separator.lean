import Mathlib.Data.List.Infix

/-!
# Splitting a list at separators

`split` cuts a list at the leftmost non-overlapping occurrences of a separator
word, and `splitN` cuts it at the symbols satisfying a predicate into a bounded
number of pieces, the last of which keeps its remaining separators.  Both are the
usual library functions on strings and slices.

A text written as a terminated sequence `body ++ sep ++ …` is recovered by `split`
when no body completes the separator early.  `FirstAt` states this, and
`firstAt_of_absent` reduces it to "the separator does not occur in the body"
for every separator whose last symbol occurs nowhere else in it.
-/

namespace Separator

universe u

variable {α : Type u}

section FirstAt

/-- In `body ++ sep` the separator occurs only at the end. -/
def FirstAt (sep body : List α) : Prop :=
  ∀ before after, body = before ++ after → after ≠ [] → ¬sep <+: after ++ sep

theorem FirstAt.tail {sep : List α} {symbol : α} {body : List α}
    (first : FirstAt sep (symbol :: body)) : FirstAt sep body := by
  intro before after shape
  exact first (symbol :: before) after (by simp [shape])

theorem FirstAt.not_at_head {sep : List α} {symbol : α} {body : List α}
    (first : FirstAt sep (symbol :: body)) (rest : List α) :
    ¬sep <+: symbol :: body ++ sep ++ rest := by
  intro occurs
  refine first [] (symbol :: body) rfl (by simp) ?_
  exact List.prefix_of_prefix_length_le occurs (List.prefix_append _ rest) (by simp; omega)

theorem firstAt_of_absent {stem : List α} {final : α} (fresh : final ∉ stem)
    {body : List α} (absent : ¬stem ++ [final] <:+: body) :
    FirstAt (stem ++ [final]) body := by
  rintro before after rfl nonempty ⟨rest, whole⟩
  rcases List.eq_nil_or_concat rest with rfl | ⟨rest, last, rfl⟩
  · have lengths := congrArg List.length whole
    have positive := List.length_pos_of_ne_nil nonempty
    simp only [List.length_append, List.length_nil] at lengths
    omega
  · rw [List.concat_eq_append, ← List.append_assoc, ← List.append_assoc] at whole
    have whole := (List.append_inj' whole rfl).1
    have inAfter : stem ++ [final] <+: after := by
      rcases List.append_eq_append_iff.mp whole with ⟨middle, inside, _⟩ | ⟨middle, across, inStem⟩
      · exact ⟨middle, inside.symm⟩
      · rcases List.eq_nil_or_concat middle with rfl | ⟨middle, symbol, rfl⟩
        · exact ⟨[], by simpa using across⟩
        · rw [List.concat_eq_append, ← List.append_assoc] at across
          have symbolEq := (List.append_inj' across rfl).2
          refine absurd ?_ fresh
          rw [inStem]
          simp_all
    exact absent (inAfter.isInfix.trans (List.suffix_append before after).isInfix)

/-- A terminated body contains no separator before its terminator is complete. -/
theorem FirstAt.absent {sep body tail more : List α} (first : FirstAt sep body)
    (cut : body ++ sep = tail ++ more) (unfinished : more ≠ []) : ¬sep <:+: tail := by
  rintro ⟨before, after, rfl⟩
  have moreLength := List.length_pos_of_ne_nil unfinished
  have lengths := congrArg List.length cut
  simp only [List.length_append] at lengths
  have inBody : before <+: body :=
    List.prefix_of_prefix_length_le ⟨sep ++ (after ++ more), by simp [cut]⟩
      (List.prefix_append body sep) (by omega)
  rcases inBody with ⟨rest, rfl⟩
  refine first before rest rfl ?_ ⟨after ++ more, ?_⟩
  · rintro rfl
    simp only [List.append_nil] at lengths
    omega
  · simp only [List.append_assoc, List.append_cancel_left_eq] at cut
    exact cut.symm

end FirstAt

section Split

variable [DecidableEq α]

/-- Split the text after its first `skip` symbols, which belong to a separator. -/
def splitFrom (sep : List α) : ℕ → List α → List (List α)
  | _, [] => [[]]
  | skip + 1, _ :: rest => splitFrom sep skip rest
  | 0, symbol :: rest =>
      if sep.isPrefixOf (symbol :: rest) then [] :: splitFrom sep (sep.length - 1) rest
      else (splitFrom sep 0 rest).modifyHead (symbol :: ·)

/-- Split a text at the leftmost non-overlapping occurrences of `sep`. -/
def split (sep text : List α) : List (List α) :=
  splitFrom sep 0 text

@[simp]
theorem split_nil (sep : List α) : split sep [] = [[]] := by
  simp [split, splitFrom]

theorem splitFrom_eq_split_drop (sep : List α) (skip : ℕ) (text : List α) :
    splitFrom sep skip text = split sep (text.drop skip) := by
  induction text generalizing skip with
  | nil => simp [split, splitFrom]
  | cons symbol rest ih =>
      cases skip with
      | zero => rfl
      | succ skip => simpa [splitFrom] using ih skip

theorem split_ne_nil (sep text : List α) : split sep text ≠ [] := by
  suffices nonempty : ∀ skip, splitFrom sep skip text ≠ [] from nonempty 0
  induction text with
  | nil => simp [splitFrom]
  | cons symbol rest ih =>
      intro skip
      cases skip with
      | zero =>
          rw [splitFrom]
          split
          · simp
          · simpa using ih 0
      | succ skip => exact ih skip

theorem split_of_prefix {sep : List α} (nonempty : sep ≠ []) (rest : List α) :
    split sep (sep ++ rest) = [] :: split sep rest := by
  cases sep with
  | nil => exact absurd rfl nonempty
  | cons symbol sep =>
      have occurs : (symbol :: sep).isPrefixOf (symbol :: (sep ++ rest)) = true := by
        rw [List.isPrefixOf_iff_prefix]
        exact List.prefix_append (symbol :: sep) rest
      rw [split, List.cons_append, splitFrom, if_pos occurs, splitFrom_eq_split_drop]
      simp

theorem split_cons_of_not_at_head {sep : List α} {symbol : α} {rest : List α}
    (absent : ¬sep <+: symbol :: rest) :
    split sep (symbol :: rest) = (split sep rest).modifyHead (symbol :: ·) := by
  rw [← List.isPrefixOf_iff_prefix] at absent
  rw [split, splitFrom, if_neg absent]
  rfl

theorem split_of_absent {sep text : List α} (absent : ¬sep <:+: text) :
    split sep text = [text] := by
  induction text with
  | nil => simp
  | cons symbol rest ih =>
      rw [List.infix_cons_iff, not_or] at absent
      rw [split_cons_of_not_at_head absent.1, ih absent.2]
      rfl

/-- The first piece of a terminated text is the body before its terminator. -/
theorem split_append {sep : List α} (nonempty : sep ≠ []) {body : List α}
    (first : FirstAt sep body) (rest : List α) :
    split sep (body ++ sep ++ rest) = body :: split sep rest := by
  induction body with
  | nil => simpa using split_of_prefix nonempty rest
  | cons symbol body ih =>
      have absent := first.not_at_head rest
      simp only [List.cons_append] at absent ⊢
      rw [split_cons_of_not_at_head absent, ih first.tail]
      rfl

/-- The pieces of a sequence of terminated bodies followed by an unterminated rest. -/
theorem split_flatMap_append {sep : List α} (nonempty : sep ≠ []) {bodies : List (List α)}
    (first : ∀ body ∈ bodies, FirstAt sep body) {rest : List α} (absent : ¬sep <:+: rest) :
    split sep (bodies.flatMap (· ++ sep) ++ rest) = bodies ++ [rest] := by
  induction bodies with
  | nil => simpa using split_of_absent absent
  | cons body bodies ih =>
      have firstHere := first body (by simp)
      have firstRest := fun other mem => first other (List.mem_cons_of_mem body mem)
      rw [List.flatMap_cons, List.append_assoc, split_append nonempty firstHere, ih firstRest]
      rfl

/-- A sequence of terminated bodies is known from its text. -/
theorem flatMap_append_injective {sep : List α} (nonempty : sep ≠ []) {left right : List (List α)}
    (leftFirst : ∀ body ∈ left, FirstAt sep body) (rightFirst : ∀ body ∈ right, FirstAt sep body)
    (same : left.flatMap (· ++ sep) = right.flatMap (· ++ sep)) : left = right := by
  have absent : ¬sep <:+: [] := by simpa using nonempty
  have leftPieces := split_flatMap_append nonempty leftFirst absent
  have rightPieces := split_flatMap_append nonempty rightFirst absent
  rw [same, rightPieces] at leftPieces
  exact ((List.append_inj' leftPieces rfl).1).symm

end Split

section SplitN

/-- Split a list at the first symbols satisfying `isSep` into at most `pieces` pieces. -/
def splitN (isSep : α → Bool) : ℕ → List α → List (List α)
  | 0, _ => []
  | 1, text => [text]
  | _ + 2, [] => [[]]
  | pieces + 2, symbol :: rest =>
      if isSep symbol then [] :: splitN isSep (pieces + 1) rest
      else (splitN isSep (pieces + 2) rest).modifyHead (symbol :: ·)

@[simp]
theorem splitN_one (isSep : α → Bool) (text : List α) : splitN isSep 1 text = [text] := by
  cases text <;> rfl

/-- The first piece of a bounded split ends at the first separator. -/
theorem splitN_append {isSep : α → Bool} {piece : List α} {sep : α}
    (free : ∀ symbol ∈ piece, isSep symbol = false) (isSepSep : isSep sep = true)
    (pieces : ℕ) (rest : List α) :
    splitN isSep (pieces + 2) (piece ++ sep :: rest) =
      piece :: splitN isSep (pieces + 1) rest := by
  induction piece with
  | nil => simp [splitN, isSepSep]
  | cons symbol piece ih =>
      have freeRest := fun other mem => free other (List.mem_cons_of_mem symbol mem)
      simp only [List.cons_append, splitN, free symbol (by simp), ih freeRest]
      rfl

theorem splitN_ne_nil (isSep : α → Bool) (pieces : ℕ) (text : List α) :
    splitN isSep (pieces + 1) text ≠ [] := by
  induction text with
  | nil => cases pieces <;> simp [splitN]
  | cons symbol rest ih =>
      cases pieces with
      | zero => simp
      | succ pieces =>
          rw [splitN]
          split
          · simp
          · simpa using ih

/--
The first of several pieces has no separator in it.  It is the whole text when it is
the only piece, and otherwise a separator follows it.
-/
theorem splitN_eq_cons {isSep : α → Bool} {pieces : ℕ} {text piece : List α}
    {others : List (List α)} (cut : splitN isSep (pieces + 2) text = piece :: others) :
    (∀ symbol ∈ piece, isSep symbol = false) ∧
      (others = [] ∧ text = piece ∨
        ∃ sep rest, isSep sep = true ∧ text = piece ++ sep :: rest ∧
          others = splitN isSep (pieces + 1) rest) := by
  induction text generalizing piece with
  | nil =>
      simp only [splitN, List.cons.injEq] at cut
      rcases cut with ⟨rfl, rfl⟩
      simp
  | cons symbol text ih =>
      rw [splitN] at cut
      split at cut
      · rename_i isSepSymbol
        rw [List.cons.injEq] at cut
        rcases cut with ⟨rfl, rfl⟩
        exact ⟨by simp, .inr ⟨symbol, text, isSepSymbol, rfl, rfl⟩⟩
      · rename_i notSep
        rcases List.exists_cons_of_ne_nil (splitN_ne_nil isSep (pieces + 1) text) with
          ⟨first, more, shape⟩
        rw [shape, List.modifyHead_cons, List.cons.injEq] at cut
        rcases cut with ⟨rfl, rfl⟩
        rcases ih shape with ⟨free, whole⟩
        have symbolFree : isSep symbol = false := by simpa using notSep
        refine ⟨by simpa [symbolFree] using free, ?_⟩
        apply whole.imp
        · rintro ⟨alone, rfl⟩
          exact ⟨alone, rfl⟩
        · rintro ⟨sep, rest, isSepSep, rfl, tail⟩
          exact ⟨sep, rest, isSepSep, rfl, tail⟩

theorem length_splitN_le (isSep : α → Bool) (pieces : ℕ) (text : List α) :
    (splitN isSep pieces text).length ≤ pieces := by
  induction pieces generalizing text with
  | zero => simp [splitN]
  | succ pieces ih =>
      cases pieces with
      | zero => simp
      | succ pieces =>
          rcases List.exists_cons_of_ne_nil (splitN_ne_nil isSep (pieces + 1) text) with
            ⟨piece, others, cut⟩
          rw [cut]
          rcases (splitN_eq_cons cut).2 with ⟨rfl, _⟩ | ⟨_, rest, _, _, rfl⟩
          · simp
          · simpa using ih rest

theorem free_of_mem_take_splitN {isSep : α → Bool} {pieces : ℕ} {text piece : List α}
    (mem : piece ∈ (splitN isSep (pieces + 1) text).take pieces) :
    ∀ symbol ∈ piece, isSep symbol = false := by
  induction pieces generalizing text with
  | zero => simp at mem
  | succ pieces ih =>
      rcases List.exists_cons_of_ne_nil (splitN_ne_nil isSep (pieces + 1) text) with
        ⟨first, others, cut⟩
      rcases splitN_eq_cons cut with ⟨free, shape⟩
      rw [cut, List.take_succ_cons, List.mem_cons] at mem
      rcases mem with rfl | mem
      · exact free
      · rcases shape with ⟨rfl, _⟩ | ⟨_, rest, _, _, rfl⟩
        · simp at mem
        · exact ih mem

/-- The pieces put together again. -/
theorem intercalate_splitN [DecidableEq α] (sep : α) (pieces : ℕ) (text : List α) :
    [sep].intercalate (splitN (· == sep) (pieces + 1) text) = text := by
  induction pieces generalizing text with
  | zero => simp [List.intercalate]
  | succ pieces ih =>
      rcases List.exists_cons_of_ne_nil (splitN_ne_nil (· == sep) (pieces + 1) text) with
        ⟨piece, others, cut⟩
      rw [cut]
      rcases (splitN_eq_cons cut).2 with ⟨rfl, rfl⟩ | ⟨symbol, rest, isSepSymbol, rfl, rfl⟩
      · simp [List.intercalate]
      · rw [List.intercalate_cons_of_ne_nil (splitN_ne_nil _ pieces rest), ih rest]
        simpa using (beq_iff_eq.mp isSepSymbol).symm

end SplitN

end Separator
