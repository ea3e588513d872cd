import Mathlib.Data.List.Basic

/-!
# Readers of texts

A reader takes a value off the front of a text and leaves the rest.  One that is
`Stable` reads the same when the text goes on, so that no proper beginning of a text
it reads whole is read whole.
-/

/-- A value off the front of a text, and what is left of it. -/
abbrev TextReader (α β : Type) := List α → Option (β × List α)

namespace TextReader

variable {α β γ : Type}

/-- What is read does not depend on how the text goes on. -/
def Stable (reader : TextReader α β) : Prop :=
  ∀ text value rest, reader text = some (value, rest) →
    ∀ more, reader (text ++ more) = some (value, rest ++ more)

/-- What is printed is read back, whatever follows. -/
def Reads (reader : TextReader α β) (print : β → List α) : Prop :=
  ∀ value rest, reader (print value ++ rest) = some (value, rest)

/-- One reader after the other. -/
def andThen (reader : TextReader α β) (next : β → TextReader α γ) : TextReader α γ :=
  fun text => (reader text).bind fun read => next read.1 read.2

/-- A fixed piece of text. -/
def token [DecidableEq α] (expected : List α) : TextReader α Unit :=
  fun text =>
    if expected <+: text then some ((), text.drop expected.length) else none

/-- A value, or a fixed piece of text in its place. -/
def nullable [DecidableEq α] (absent : List α) (reader : TextReader α β) :
    TextReader α (Option β) :=
  fun text =>
    if absent <+: text then some (none, text.drop absent.length)
    else (reader text).map fun read => (some read.1, read.2)

/-- The whole of a text. -/
def whole (reader : TextReader α β) (text : List α) : Option β :=
  (reader text).bind fun read => if read.2 = [] then some read.1 else none

theorem andThen_eq_some_iff {reader : TextReader α β} {next : β → TextReader α γ}
    {text rest : List α} {value : γ} :
    reader.andThen next text = some (value, rest) ↔
      ∃ first middle, reader text = some (first, middle) ∧
        next first middle = some (value, rest) := by
  simp [andThen, Option.bind_eq_some_iff]

theorem Reads.andThen_eq {reader : TextReader α β} {print : β → List α}
    (reads : reader.Reads print) (next : β → TextReader α γ) (value : β) (rest : List α) :
    reader.andThen next (print value ++ rest) = next value rest := by
  rw [TextReader.andThen, reads value rest]
  rfl

theorem Stable.andThen {reader : TextReader α β} {next : β → TextReader α γ}
    (stable : reader.Stable) (nextStable : ∀ first, (next first).Stable) :
    (reader.andThen next).Stable := by
  intro text value rest read more
  rw [andThen_eq_some_iff] at read ⊢
  rcases read with ⟨first, middle, readFirst, readNext⟩
  exact ⟨first, middle ++ more, stable _ _ _ readFirst more, nextStable _ _ _ _ readNext more⟩

section Token

variable [DecidableEq α]

theorem token_append (expected rest : List α) :
    token expected (expected ++ rest) = some ((), rest) := by
  simp [token]

theorem token_andThen (expected : List α) (next : Unit → TextReader α γ) (rest : List α) :
    (token expected).andThen next (expected ++ rest) = next () rest := by
  rw [TextReader.andThen, token_append]
  rfl

theorem stable_token (expected : List α) : (token expected).Stable := by
  intro text value rest read more
  simp only [token, Option.ite_none_right_eq_some, Option.some.injEq, Prod.mk.injEq] at read
  rcases read with ⟨⟨tail, rfl⟩, _, rfl⟩
  rw [List.append_assoc, token_append]
  simp

theorem Reads.nullable {reader : TextReader α β} {print : β → List α} {absent : List α}
    (reads : reader.Reads print) (apart : ∀ value rest, ¬absent <+: print value ++ rest) :
    (nullable absent reader).Reads fun value => value.elim absent print := by
  intro value rest
  cases value with
  | none => simp [TextReader.nullable]
  | some value =>
      have read := reads value rest
      simp only [TextReader.nullable, Option.elim_some, if_neg (apart value rest), read,
        Option.map_some]

end Token

theorem whole_eq_some_iff {reader : TextReader α β} {text : List α} {value : β} :
    reader.whole text = some value ↔ reader text = some (value, []) := by
  simp only [whole, Option.bind_eq_some_iff, Option.ite_none_right_eq_some, Option.some.injEq,
    Prod.exists]
  constructor
  · rintro ⟨value, rest, read, rfl, rfl⟩
    exact read
  · intro read
    exact ⟨value, [], read, rfl, rfl⟩

theorem Reads.whole {reader : TextReader α β} {print : β → List α} (reads : reader.Reads print)
    (value : β) : reader.whole (print value) = some value := by
  have read := reads value []
  rw [List.append_nil] at read
  exact whole_eq_some_iff.mpr read

/-- A proper beginning of a text that is read whole is not read whole. -/
theorem Stable.whole_eq_none {reader : TextReader α β} (stable : reader.Stable)
    {part rest : List α} {value : β} (read : reader.whole (part ++ rest) = some value)
    (proper : rest ≠ []) : reader.whole part = none := by
  rw [whole_eq_some_iff] at read
  cases readPart : reader.whole part with
  | none => rfl
  | some other =>
      have longer := stable _ _ _ (whole_eq_some_iff.mp readPart) rest
      rw [read] at longer
      simp only [List.nil_append, Option.some.injEq, Prod.mk.injEq] at longer
      exact absurd longer.2.symm proper

end TextReader
