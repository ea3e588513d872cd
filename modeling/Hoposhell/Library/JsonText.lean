import Hoposhell.Library.Json
import Hoposhell.Library.TextReader

/-!
# JSON texts

String literals, natural numbers and their arrays, and the codec of the objects that hold
a single text.  A literal is read by an automaton, one character at a time; escaped
surrogate pairs, which are never printed, are not read.
-/

namespace Json

/-- The quotation mark `"`. -/
def quote : Char := Char.ofNat 34

/-- The character `\`. -/
def backslash : Char := Char.ofNat 92

def openBrace : Char := Char.ofNat 123

def closeBrace : Char := Char.ofNat 125

def hexChar (digit : ℕ) : Char :=
  if digit < 10 then Char.ofNat (48 + digit) else Char.ofNat (87 + digit)

def hexValue (c : Char) : Option ℕ :=
  if 48 ≤ c.toNat ∧ c.toNat < 58 then some (c.toNat - 48)
  else if 97 ≤ c.toNat ∧ c.toNat < 103 then some (c.toNat - 87)
  else if 65 ≤ c.toNat ∧ c.toNat < 71 then some (c.toNat - 55)
  else none

/-- The letter of a character with a short escape. -/
def escapeLetter (c : Char) : Option Char :=
  match c.toNat with
  | 8 => some 'b'
  | 9 => some 't'
  | 10 => some 'n'
  | 12 => some 'f'
  | 13 => some 'r'
  | 34 => some quote
  | 92 => some backslash
  | _ => none

def escapeChar (c : Char) : List Char :=
  match escapeLetter c with
  | some letter => [backslash, letter]
  | none =>
      if c.toNat < 32 then
        [backslash, 'u', '0', '0', hexChar (c.toNat / 16), hexChar (c.toNat % 16)]
      else [c]

/-- The character of the letter of a short escape. -/
def unescapeLetter (letter : Char) : Option Char :=
  match letter.toNat with
  | 98 => some (Char.ofNat 8)
  | 116 => some (Char.ofNat 9)
  | 110 => some (Char.ofNat 10)
  | 102 => some (Char.ofNat 12)
  | 114 => some (Char.ofNat 13)
  | 34 => some quote
  | 47 => some '/'
  | 92 => some backslash
  | _ => none

/-- Where a literal is read; `unicode` has read all but the given number of hex digits. -/
inductive LiteralState where
  | plain
  | escape
  | unicode (value digits : ℕ)

def push (c : Char) (read : List Char × List Char) : List Char × List Char :=
  (c :: read.1, read.2)

/-- The contents of a literal up to its closing quotation mark. -/
def scan : LiteralState → TextReader Char (List Char)
  | _, [] => none
  | .plain, c :: rest =>
      if c = quote then some ([], rest)
      else if c = backslash then scan .escape rest
      else if c.toNat < 32 then none
      else (scan .plain rest).map (push c)
  | .escape, c :: rest =>
      if c = 'u' then scan (.unicode 0 4) rest
      else
        match unescapeLetter c with
        | some c => (scan .plain rest).map (push c)
        | none => none
  | .unicode value digits, c :: rest =>
      match hexValue c with
      | none => none
      | some digit =>
          if 1 < digits then scan (.unicode (16 * value + digit) (digits - 1)) rest
          else if (16 * value + digit).isValidChar then
            (scan .plain rest).map (push (Char.ofNat (16 * value + digit)))
          else none

theorem stable_scan (state : LiteralState) : (scan state).Stable := by
  intro text value rest read more
  induction text generalizing state value rest with
  | nil => simp [scan] at read
  | cons c text ih =>
      have pushed : ∀ c, (scan .plain text).map (push c) = some (value, rest) →
          (scan .plain (text ++ more)).map (push c) = some (value, rest ++ more) := by
        intro c read
        rcases Option.map_eq_some_iff.mp read with ⟨⟨tail, left⟩, readTail, made⟩
        cases made
        rw [ih _ _ _ readTail]
        rfl
      cases state with
      | plain =>
          simp only [List.cons_append, scan] at read ⊢
          split_ifs at read ⊢ with isQuote isBackslash
          · cases read
            rfl
          · exact ih _ _ _ read
          · exact pushed _ read
      | escape =>
          simp only [List.cons_append, scan] at read ⊢
          split_ifs at read ⊢ with isU
          · exact ih _ _ _ read
          · cases letter : unescapeLetter c with
            | none => simp [letter] at read
            | some c =>
                simp only [letter] at read ⊢
                exact pushed _ read
      | unicode value digits =>
          simp only [List.cons_append, scan] at read ⊢
          cases isHex : hexValue c with
          | none => simp [isHex] at read
          | some digit =>
              simp only [isHex] at read ⊢
              split_ifs at read ⊢
              · exact ih _ _ _ read
              · exact pushed _ read

theorem hexValue_hexChar {digit : ℕ} (small : digit < 16) :
    hexValue (hexChar digit) = some digit := by
  have table : ∀ digit < 16, hexValue (hexChar digit) = some digit := by decide
  exact table digit small

theorem escapeLetter_eq_some {c letter : Char} (short : escapeLetter c = some letter) :
    letter ≠ 'u' ∧ unescapeLetter letter = some c := by
  rw [← Char.ofNat_toNat c]
  unfold escapeLetter at short
  split at short <;> first | (rename_i code; cases short; rw [code]; decide) | cases short

theorem escapeLetter_eq_none {c : Char} (long : escapeLetter c = none) :
    c ≠ quote ∧ c ≠ backslash := by
  constructor
  · rintro rfl
    revert long
    decide
  · rintro rfl
    revert long
    decide

/-- An escaped character is read back. -/
theorem scan_escapeChar (c : Char) (rest : List Char) :
    scan .plain (escapeChar c ++ rest) = (scan .plain rest).map (push c) := by
  have backslashNotQuote : backslash ≠ quote := by decide
  unfold escapeChar
  cases short : escapeLetter c with
  | some letter =>
      rcases escapeLetter_eq_some short with ⟨notU, unescaped⟩
      simp [scan, backslashNotQuote, notU, unescaped]
  | none =>
      rcases escapeLetter_eq_none short with ⟨notQuote, notBackslash⟩
      by_cases control : c.toNat < 32
      · have zero : hexValue '0' = some 0 := by decide
        have high := @hexValue_hexChar (c.toNat / 16) (by omega)
        have low := @hexValue_hexChar (c.toNat % 16) (by omega)
        have value : 16 * (c.toNat / 16) + c.toNat % 16 = c.toNat := by omega
        have valid : c.toNat.isValidChar := c.valid
        simp [scan, control, backslashNotQuote, zero, high, low, value, valid]
      · simp [scan, control, notQuote, notBackslash]

/-- A text between quotation marks. -/
def literal (text : List Char) : List Char :=
  quote :: (text.flatMap escapeChar ++ [quote])

def readLiteral : TextReader Char (List Char) :=
  (TextReader.token [quote]).andThen fun _ => scan .plain

theorem reads_literal : readLiteral.Reads literal := by
  intro text rest
  have contents : scan .plain (text.flatMap escapeChar ++ (quote :: rest)) = some (text, rest) := by
    induction text with
    | nil => simp [scan]
    | cons c text ih =>
        rw [List.flatMap_cons, List.append_assoc, scan_escapeChar, ih]
        rfl
  have opened : literal text ++ rest =
      [quote] ++ (text.flatMap escapeChar ++ (quote :: rest)) := by
    simp [literal]
  rw [opened, readLiteral, TextReader.token_andThen, contents]

theorem stable_readLiteral : readLiteral.Stable :=
  (TextReader.stable_token [quote]).andThen fun _ => stable_scan .plain

section Numbers

/-- The digits at the front of a text. -/
def readNat : TextReader Char ℕ :=
  fun text =>
    let digits := text.takeWhile Char.isDigit
    if digits = [] then none
    else some (Nat.ofDigitChars 10 digits 0, text.dropWhile Char.isDigit)

theorem isDigit_of_mem_toDigits {n : ℕ} : ∀ c ∈ Nat.toDigits 10 n, c.isDigit = true :=
  fun _ mem => Nat.isDigit_of_mem_toDigits (by decide) (by decide) mem

theorem readNat_toDigits (n : ℕ) {c : Char} (notDigit : c.isDigit = false) (rest : List Char) :
    readNat (Nat.toDigits 10 n ++ c :: rest) = some (n, c :: rest) := by
  have digits : (Nat.toDigits 10 n ++ c :: rest).takeWhile Char.isDigit = Nat.toDigits 10 n := by
    rw [List.takeWhile_append_of_pos isDigit_of_mem_toDigits]
    simp [notDigit]
  have left : (Nat.toDigits 10 n ++ c :: rest).dropWhile Char.isDigit = c :: rest := by
    rw [List.dropWhile_append_of_pos isDigit_of_mem_toDigits]
    simp [notDigit]
  rw [readNat, digits, left, if_neg Nat.toDigits_ne_nil, Nat.ofDigitChars_ten_toDigits]

/-- The items of an array and its closing bracket. -/
def printItems : List ℕ → List Char
  | [] => [']']
  | [n] => Nat.toDigits 10 n ++ [']']
  | n :: items => Nat.toDigits 10 n ++ ',' :: printItems items

/-- At most as many items as there is fuel. -/
def readItems : ℕ → TextReader Char (List ℕ)
  | 0, _ => none
  | fuel + 1, text =>
      match readNat text with
      | some (n, ',' :: rest) => (readItems fuel rest).map fun read => (n :: read.1, read.2)
      | some (n, ']' :: rest) => some ([n], rest)
      | _ => none

theorem readItems_printItems {fuel : ℕ} {items : List ℕ} (nonempty : items ≠ [])
    (enough : items.length ≤ fuel) (rest : List Char) :
    readItems fuel (printItems items ++ rest) = some (items, rest) := by
  induction items generalizing fuel with
  | nil => exact absurd rfl nonempty
  | cons n items ih =>
      obtain ⟨fuel, rfl⟩ : ∃ more, fuel = more + 1 := by
        refine ⟨fuel - 1, ?_⟩
        simp only [List.length_cons] at enough
        omega
      cases items with
      | nil =>
          rw [printItems, List.append_assoc, List.singleton_append, readItems,
            readNat_toDigits n (by decide)]
          rfl
      | cons next items =>
          rw [printItems, List.append_assoc, List.cons_append, readItems,
            readNat_toDigits n (by decide)]
          · simp [ih (by simp) (by simpa using enough)]
          · simp

/-- An array of numbers. -/
def array (items : List ℕ) : List Char :=
  '[' :: printItems items

def readArray : TextReader Char (List ℕ) :=
  (TextReader.token ['[']).andThen fun _ text =>
    if text.head? = some ']' then some ([], text.tail) else readItems text.length text

theorem length_le_length_printItems (items : List ℕ) :
    items.length ≤ (printItems items).length := by
  induction items with
  | nil => simp
  | cons n items ih =>
      have digits := @Nat.length_toDigits_pos 10 n
      cases items with
      | nil =>
          simp only [printItems, List.length_cons, List.length_append]
          omega
      | cons next items =>
          simp only [printItems, List.length_cons, List.length_append] at ih ⊢
          omega

/-- The items of an array that has some start with a digit. -/
theorem exists_digit_printItems {items : List ℕ} (nonempty : items ≠ []) :
    ∃ digit rest, digit.isDigit = true ∧ printItems items = digit :: rest := by
  cases items with
  | nil => exact absurd rfl nonempty
  | cons n items =>
      cases digits : Nat.toDigits 10 n with
      | nil => exact absurd digits Nat.toDigits_ne_nil
      | cons digit others =>
          have isDigit := @isDigit_of_mem_toDigits n digit (by simp [digits])
          cases items with
          | nil => exact ⟨digit, _, isDigit, by rw [printItems, digits]; rfl⟩
          | cons next items =>
              refine ⟨digit, others ++ ',' :: printItems (next :: items), isDigit, ?_⟩
              rw [printItems, digits]
              · rfl
              · simp

theorem reads_array : readArray.Reads array := by
  intro items rest
  have opened : array items ++ rest = ['['] ++ (printItems items ++ rest) := rfl
  rw [opened, readArray, TextReader.token_andThen]
  by_cases empty : items = []
  · simp [empty, printItems]
  · have notClosed : (printItems items ++ rest).head? ≠ some ']' := by
      rcases exists_digit_printItems empty with ⟨digit, others, isDigit, printed⟩
      rw [printed, List.cons_append, List.head?_cons]
      rintro same
      cases same
      revert isDigit
      decide
    have enough : items.length ≤ (printItems items ++ rest).length := by
      have := length_le_length_printItems items
      simp only [List.length_append]
      omega
    rw [if_neg notClosed, readItems_printItems empty enough]

end Numbers

/-- The object that holds a text under a name. -/
def printObject (field : List Char × List Char) : List Char :=
  [openBrace] ++ (literal field.1 ++ ([':'] ++ (literal field.2 ++ [closeBrace])))

def readObject : TextReader Char (List Char × List Char) :=
  (TextReader.token [openBrace]).andThen fun _ =>
    readLiteral.andThen fun name =>
      (TextReader.token [':']).andThen fun _ =>
        readLiteral.andThen fun text =>
          (TextReader.token [closeBrace]).andThen fun _ rest => some ((name, text), rest)

theorem reads_printObject : readObject.Reads printObject := by
  rintro ⟨name, text⟩ rest
  simp only [readObject, printObject, List.append_assoc]
  rw [TextReader.token_andThen, reads_literal.andThen_eq, TextReader.token_andThen,
    reads_literal.andThen_eq, TextReader.token_andThen]

theorem stable_readObject : readObject.Stable := by
  apply (TextReader.stable_token _).andThen
  intro _
  apply stable_readLiteral.andThen
  intro name
  apply (TextReader.stable_token _).andThen
  intro _
  apply stable_readLiteral.andThen
  intro text
  apply (TextReader.stable_token _).andThen
  intro _ rest value left read more
  cases read
  rfl

/-- The codec of the objects that hold a single text. -/
def textCodec : Codec where
  fromStr text := (readObject.whole text.toList).map fun field =>
    .object [(String.ofList field.1, .string (String.ofList field.2))]
  toString
    | .object [(name, .string text)] => String.ofList (printObject (name.toList, text.toList))
    | _ => "null"

theorem textCodec_lawful : textCodec.Lawful where
  read_print name text := by
    simp [textCodec, reads_printObject.whole (name.toList, text.toList)]
  incomplete name text part rest printed proper := by
    have read := reads_printObject.whole (name.toList, text.toList)
    have split : printObject (name.toList, text.toList) = part.toList ++ rest.toList := by
      have lists := congrArg String.toList printed
      simpa [textCodec] using lists
    rw [split] at read
    have notEmpty : rest.toList ≠ [] := by simpa using proper
    simp [textCodec, stable_readObject.whole_eq_none read notEmpty]
  noNul rest := by
    have rejected (tail : List Char) : readObject.whole (Char.ofNat 0 :: tail) = none := by
      have different : ¬[openBrace] <+: Char.ofNat 0 :: tail := by
        rw [List.cons_prefix_cons]
        exact fun same => absurd same.1 (by decide)
      simp [TextReader.whole, readObject, TextReader.andThen, TextReader.token, different]
    simp [textCodec, rejected]

end Json
