import Hoposhell.Serialization
import Hoposhell.StdinLoop

/-!
# Numbers as texts

The numbers of a size message are printed in decimal, and those of a resize command are
parsed as `u16`.  What is printed is parsed back, and has no separator in it.
-/

namespace Hoposhell

theorem asBytes_append (left right : String) :
    asBytes (left ++ right) = asBytes left ++ asBytes right := by
  simp [asBytes, String.toByteArray_append]

theorem asBytes_digitChar {digit : ℕ} (small : digit < 10) :
    asBytes (String.singleton (Nat.digitChar digit)) = [UInt8.ofNat (48 + digit)] := by
  have table : ∀ digit < 10,
      asBytes (String.singleton (Nat.digitChar digit)) = [UInt8.ofNat (48 + digit)] := by
    decide
  exact table digit small

theorem isDigit_ofNat {digit : ℕ} (small : digit < 10) :
    48 ≤ UInt8.ofNat (48 + digit) ∧ UInt8.ofNat (48 + digit) ≤ 57 ∧
      (UInt8.ofNat (48 + digit)).toNat - 48 = digit := by
  have table : ∀ digit < 10, 48 ≤ UInt8.ofNat (48 + digit) ∧ UInt8.ofNat (48 + digit) ≤ 57 ∧
      (UInt8.ofNat (48 + digit)).toNat - 48 = digit := by
    decide
  exact table digit small

/-- The last digit of a number, behind the others if there are any. -/
theorem asBytes_repr (n : ℕ) :
    asBytes n.repr =
      (if n < 10 then [] else asBytes (n / 10).repr) ++ [UInt8.ofNat (48 + n % 10)] := by
  split_ifs with small
  · rw [Nat.repr_of_lt small, asBytes_digitChar small, Nat.mod_eq_of_lt small, List.nil_append]
  · rw [Nat.repr_of_ge (by omega), asBytes_append, asBytes_digitChar (Nat.mod_lt n (by decide))]

theorem parseDigits_repr (n : ℕ) : parseDigits 0 (asBytes n.repr) = some n := by
  induction n using Nat.strongRecOn with
  | ind n ih =>
      rcases isDigit_ofNat (Nat.mod_lt n (by decide : 0 < 10)) with ⟨low, high, value⟩
      rw [asBytes_repr, parseDigits_concat]
      have front : parseDigits 0 (if n < 10 then [] else asBytes (n / 10).repr) = some (n / 10) := by
        split_ifs with small
        · rw [Nat.div_eq_of_lt small]
          rfl
        · exact ih (n / 10) (by omega)
      rw [front, Option.bind_some, if_pos ⟨low, high⟩, value, Nat.div_add_mod']

theorem isDigit_of_mem_repr {n : ℕ} :
    ∀ byte ∈ asBytes n.repr, (48 : UInt8) ≤ byte ∧ byte ≤ 57 := by
  induction n using Nat.strongRecOn with
  | ind n ih =>
      intro byte mem
      rw [asBytes_repr] at mem
      rcases List.mem_append.mp mem with inFront | isLast
      · split_ifs at inFront with small
        · exact absurd inFront List.not_mem_nil
        · exact ih (n / 10) (by omega) byte inFront
      · rw [List.mem_singleton.mp isLast]
        have digit := isDigit_ofNat (Nat.mod_lt n (by decide : 0 < 10))
        exact ⟨digit.1, digit.2.1⟩

theorem separator_not_mem_repr (n : ℕ) : messagePartsSeparator ∉ asBytes n.repr := by
  intro mem
  exact absurd (isDigit_of_mem_repr _ mem).1 (by decide)

theorem asBytes_repr_ne_nil (n : ℕ) : asBytes n.repr ≠ [] := by
  rw [asBytes_repr]
  simp

/-- `parse::<u16>` reads what `to_string` prints. -/
theorem parseU16_repr {n : ℕ} (fits : n < 65536) : parseU16 n.repr = some n := by
  have digits := parseDigits_repr n
  rw [parseU16]
  cases text : asBytes n.repr with
  | nil => exact absurd text (asBytes_repr_ne_nil n)
  | cons first rest =>
      have notPlus : first ≠ 43 := by
        rintro rfl
        have digit := isDigit_of_mem_repr (n := n) 43 (by rw [text]; exact List.mem_cons_self)
        exact absurd digit.1 (by decide)
      rw [text] at digits
      simp [notPlus, digits, fits]

end Hoposhell
