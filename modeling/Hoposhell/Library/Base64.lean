import Mathlib.Data.List.Basic
import Mathlib.Tactic.IntervalCases

/-!
# Base64

An `Engine` is a pair of an encoder and a decoder as a program calls them; the
texts are given by their ASCII bytes.  `Engine.Lawful` collects what a user of an
engine relies on: decoding inverts encoding, and encoded text is made of the 64
symbols of the standard alphabet and the padding `=`.

`standard` is an executable engine with the standard alphabet and canonical
padding: a decoded group must have its padding where it belongs and its unused low
bits zero.
-/

namespace Base64

structure Engine where
  encode : List UInt8 → List UInt8
  decode : List UInt8 → Option (List UInt8)

def padding : UInt8 := 61

/-- `A-Z`, `a-z`, `0-9`, `+`, `/` and the padding symbol. -/
def IsSymbol (byte : UInt8) : Prop :=
  (65 ≤ byte ∧ byte ≤ 90) ∨ (97 ≤ byte ∧ byte ≤ 122) ∨ (48 ≤ byte ∧ byte ≤ 57) ∨
    byte = 43 ∨ byte = 47 ∨ byte = padding

instance (byte : UInt8) : Decidable (IsSymbol byte) :=
  inferInstanceAs (Decidable (_ ∨ _))

structure Engine.Lawful (engine : Engine) : Prop where
  decode_encode : ∀ content, engine.decode (engine.encode content) = some content
  isSymbol_encode : ∀ content, ∀ byte ∈ engine.encode content, IsSymbol byte

theorem Engine.Lawful.encode_injective {engine : Engine} (lawful : engine.Lawful) :
    Function.Injective engine.encode := by
  intro left right same
  have decoded := congrArg engine.decode same
  rw [lawful.decode_encode, lawful.decode_encode] at decoded
  exact Option.some.inj decoded

theorem IsSymbol.lt_128 {byte : UInt8} (isSymbol : IsSymbol byte) : byte < 128 := by
  simp only [IsSymbol, padding] at isSymbol
  grind

def symbol (value : ℕ) : UInt8 :=
  if value < 26 then UInt8.ofNat (value + 65)
  else if value < 52 then UInt8.ofNat (value + 71)
  else if value < 62 then UInt8.ofNat (value - 4)
  else if value = 62 then 43
  else 47

def value (symbol : UInt8) : Option ℕ :=
  if 65 ≤ symbol ∧ symbol ≤ 90 then some (symbol.toNat - 65)
  else if 97 ≤ symbol ∧ symbol ≤ 122 then some (symbol.toNat - 71)
  else if 48 ≤ symbol ∧ symbol ≤ 57 then some (symbol.toNat + 4)
  else if symbol = 43 then some 62
  else if symbol = 47 then some 63
  else none

/-- Encode three bytes at a time as four symbols, padding the last group. -/
def encode : List UInt8 → List UInt8
  | [] => []
  | [a] => [symbol (a.toNat / 4), symbol (a.toNat % 4 * 16), padding, padding]
  | [a, b] =>
      [symbol (a.toNat / 4), symbol (a.toNat % 4 * 16 + b.toNat / 16),
        symbol (b.toNat % 16 * 4), padding]
  | a :: b :: c :: rest =>
      symbol (a.toNat / 4) :: symbol (a.toNat % 4 * 16 + b.toNat / 16) ::
        symbol (b.toNat % 16 * 4 + c.toNat / 64) :: symbol (c.toNat % 64) :: encode rest

def decodeGroup (s₁ s₂ s₃ s₄ : UInt8) : Option (List UInt8) := do
  let v₁ ← value s₁
  let v₂ ← value s₂
  let v₃ ← value s₃
  let v₄ ← value s₄
  some [UInt8.ofNat (v₁ * 4 + v₂ / 16), UInt8.ofNat (v₂ % 16 * 16 + v₃ / 4),
    UInt8.ofNat (v₃ % 4 * 64 + v₄)]

/-- Decode a last group whose fourth symbol is padding. -/
def decodePadded (s₁ s₂ s₃ : UInt8) : Option (List UInt8) := do
  let v₁ ← value s₁
  let v₂ ← value s₂
  if s₃ = padding then
    if v₂ % 16 = 0 then some [UInt8.ofNat (v₁ * 4 + v₂ / 16)] else none
  else
    let v₃ ← value s₃
    if v₃ % 4 = 0 then
      some [UInt8.ofNat (v₁ * 4 + v₂ / 16), UInt8.ofNat (v₂ % 16 * 16 + v₃ / 4)]
    else none

/-- Decode four symbols at a time; only the last group may be padded. -/
def decode : List UInt8 → Option (List UInt8)
  | [] => some []
  | s₁ :: s₂ :: s₃ :: s₄ :: rest =>
      if s₄ = padding then
        if rest = [] then decodePadded s₁ s₂ s₃ else none
      else do
        let group ← decodeGroup s₁ s₂ s₃ s₄
        let bytes ← decode rest
        some (group ++ bytes)
  | _ => none

/-- The standard alphabet with canonical padding. -/
def standard : Engine where
  encode := encode
  decode := decode

theorem value_symbol (digit : ℕ) (small : digit < 64) : value (symbol digit) = some digit := by
  interval_cases digit <;> decide

theorem symbol_ne_padding (digit : ℕ) (small : digit < 64) : symbol digit ≠ padding := by
  interval_cases digit <;> decide

theorem isSymbol_symbol (digit : ℕ) (small : digit < 64) : IsSymbol (symbol digit) := by
  interval_cases digit <;> decide

theorem ofNat_eq_of_eq_toNat {number : ℕ} {byte : UInt8} (eq : number = byte.toNat) :
    UInt8.ofNat number = byte := by
  rw [eq, UInt8.ofNat_toNat]

theorem decodeGroup_symbols (v₁ v₂ v₃ v₄ : ℕ) (small₁ : v₁ < 64) (small₂ : v₂ < 64)
    (small₃ : v₃ < 64) (small₄ : v₄ < 64) :
    decodeGroup (symbol v₁) (symbol v₂) (symbol v₃) (symbol v₄) =
      some [UInt8.ofNat (v₁ * 4 + v₂ / 16), UInt8.ofNat (v₂ % 16 * 16 + v₃ / 4),
        UInt8.ofNat (v₃ % 4 * 64 + v₄)] := by
  simp only [decodeGroup, value_symbol, small₁, small₂, small₃, small₄]
  rfl

theorem decodePadded_padding (v₁ v₂ : ℕ) (small₁ : v₁ < 64) (small₂ : v₂ < 64)
    (unused : v₂ % 16 = 0) :
    decodePadded (symbol v₁) (symbol v₂) padding = some [UInt8.ofNat (v₁ * 4 + v₂ / 16)] := by
  simp [decodePadded, value_symbol, small₁, small₂, unused, -UInt8.ofNat_add, -UInt8.ofNat_mul]

theorem decodePadded_symbols (v₁ v₂ v₃ : ℕ) (small₁ : v₁ < 64) (small₂ : v₂ < 64)
    (small₃ : v₃ < 64) (unused : v₃ % 4 = 0) :
    decodePadded (symbol v₁) (symbol v₂) (symbol v₃) =
      some [UInt8.ofNat (v₁ * 4 + v₂ / 16), UInt8.ofNat (v₂ % 16 * 16 + v₃ / 4)] := by
  simp [decodePadded, value_symbol, small₁, small₂, small₃, symbol_ne_padding v₃ small₃, unused,
    -UInt8.ofNat_add, -UInt8.ofNat_mul]

theorem decode_encode (content : List UInt8) : decode (encode content) = some content := by
  fun_induction encode content with
  | case1 => rfl
  | case2 a =>
      have aSmall := a.toNat_lt
      rw [decode, if_pos rfl, if_pos rfl, decodePadded_padding _ _ (by omega) (by omega) (by omega)]
      congr 2
      exact ofNat_eq_of_eq_toNat (by omega)
  | case3 a b =>
      have aSmall := a.toNat_lt
      have bSmall := b.toNat_lt
      rw [decode, if_pos rfl, if_pos rfl,
        decodePadded_symbols _ _ _ (by omega) (by omega) (by omega) (by omega)]
      congr 3
      · exact ofNat_eq_of_eq_toNat (by omega)
      · exact ofNat_eq_of_eq_toNat (by omega)
  | case4 a b c rest ih =>
      have aSmall := a.toNat_lt
      have bSmall := b.toNat_lt
      have cSmall := c.toNat_lt
      have group : decodeGroup (symbol (a.toNat / 4)) (symbol (a.toNat % 4 * 16 + b.toNat / 16))
          (symbol (b.toNat % 16 * 4 + c.toNat / 64)) (symbol (c.toNat % 64)) =
            some [a, b, c] := by
        rw [decodeGroup_symbols _ _ _ _ (by omega) (by omega) (by omega) (by omega)]
        congr 3
        · exact ofNat_eq_of_eq_toNat (by omega)
        · exact ofNat_eq_of_eq_toNat (by omega)
        · congr 1
          exact ofNat_eq_of_eq_toNat (by omega)
      rw [decode, if_neg (symbol_ne_padding _ (by omega)), group, ih]
      rfl

theorem isSymbol_encode (content : List UInt8) :
    ∀ byte ∈ encode content, IsSymbol byte := by
  have isSymbolPadding : IsSymbol padding := by decide
  fun_induction encode content with
  | case1 => simp
  | case2 a =>
      have aSmall := a.toNat_lt
      simp only [List.mem_cons, forall_eq_or_imp]
      exact ⟨isSymbol_symbol _ (by omega), isSymbol_symbol _ (by omega), isSymbolPadding,
        isSymbolPadding, by simp⟩
  | case3 a b =>
      have aSmall := a.toNat_lt
      have bSmall := b.toNat_lt
      simp only [List.mem_cons, forall_eq_or_imp]
      exact ⟨isSymbol_symbol _ (by omega), isSymbol_symbol _ (by omega),
        isSymbol_symbol _ (by omega), isSymbolPadding, by simp⟩
  | case4 a b c rest ih =>
      have aSmall := a.toNat_lt
      have bSmall := b.toNat_lt
      have cSmall := c.toNat_lt
      simp only [List.mem_cons, forall_eq_or_imp]
      exact ⟨isSymbol_symbol _ (by omega), isSymbol_symbol _ (by omega),
        isSymbol_symbol _ (by omega), isSymbol_symbol _ (by omega), ih⟩

theorem standard_lawful : standard.Lawful where
  decode_encode := decode_encode
  isSymbol_encode := isSymbol_encode

/-- The classical example `Man`, and a text whose padding is wrong. -/
example : standard.encode [77, 97, 110] = [84, 87, 70, 117] ∧
    standard.decode [84, 87, 61, 117] = none := by
  decide

end Base64
