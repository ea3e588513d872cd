import Mathlib.Data.List.Basic

/-!
# Bytes, strings and operations that panic

The program's `Vec<u8>` and `&[u8]` are lists of bytes.  A `String` held in a
record is a Lean `String`, which also is a sequence of bytes known to be valid
UTF-8.  Text that the program only scans and cuts at byte offsets (the receive
buffer and the `&str` parts of it) is given by its bytes.

Operations that can panic return `Except Panic`, so that a caller cannot go on
after one of them.
-/

namespace Hoposhell

/-- A `Vec<u8>`, a `&[u8]` or the bytes of a `&str`. -/
abbrev Bytes := List UInt8

def bufSize : ℕ := 1024 * 16

def commandPayloadSize : ℕ := 1024 * 8

def maxMessageHistorySize : ℕ := 2048

/-- `MESSAGE_PARTS_SEPARATOR`, the byte `/`. -/
def messagePartsSeparator : UInt8 := 47

inductive Panic where
  | unwrap
  | slice
  | overflow
deriving DecidableEq, Repr

/-- `unwrap` on an `Option`, or on a `Result` whose error is not looked at. -/
def unwrap {α : Type} : Option α → Except Panic α
  | some value => .ok value
  | none => .error .unwrap

/-- Subtraction on `usize` with overflow checks. -/
def checkedSub (left right : ℕ) : Except Panic ℕ :=
  if right ≤ left then .ok (left - right) else .error .overflow

/-- `&data[..n]` on a byte slice. -/
def sliceTo (data : Bytes) (n : ℕ) : Except Panic Bytes :=
  if n ≤ data.length then .ok (data.take n) else .error .slice

/-- A byte that continues a multi-byte UTF-8 character. -/
def isContinuation (byte : UInt8) : Bool :=
  byte &&& 0xC0 == 0x80

def isCharBoundary (text : Bytes) (n : ℕ) : Bool :=
  if n = 0 then true
  else
    match text[n]? with
    | some byte => !isContinuation byte
    | none => n == text.length

/-- `&text[..n]` on a `str`. -/
def strSliceTo (text : Bytes) (n : ℕ) : Except Panic Bytes :=
  if isCharBoundary text n then .ok (text.take n) else .error .slice

def asBytes (text : String) : Bytes :=
  text.toByteArray.data.toList

/-- `String::from_utf8` and `str::from_utf8`, without the error they return. -/
def fromUtf8 (bytes : Bytes) : Option String :=
  String.fromUTF8? bytes.toByteArray

@[simp]
theorem fromUtf8_asBytes (text : String) : fromUtf8 (asBytes text) = some text := by
  have same : (asBytes text).toByteArray = text.toByteArray := by
    rw [ByteArray.ext_iff, List.data_toByteArray, asBytes, Array.toArray_toList]
  rw [fromUtf8, same, String.fromUTF8?, dif_pos text.isValidUTF8]
  rfl

theorem asBytes_eq_of_fromUtf8 {bytes : Bytes} {text : String}
    (valid : fromUtf8 bytes = some text) : asBytes text = bytes := by
  simp only [fromUtf8, String.fromUTF8?] at valid
  split at valid
  · cases valid
    simp [asBytes, String.fromUTF8]
  · cases valid

theorem asBytes_injective {left right : String} (eq : asBytes left = asBytes right) :
    left = right := by
  have decoded := congrArg fromUtf8 eq
  simpa using decoded

/-- A text whose bytes begin those of another begins it. -/
theorem exists_append_of_asBytes {part whole : String} {more : Bytes}
    (split : asBytes part ++ more = asBytes whole) : ∃ rest, whole = part ++ rest := by
  have encoded : part.toList.utf8Encode ++ more.toByteArray = whole.toList.utf8Encode := by
    rw [String.utf8Encode_toList, String.utf8Encode_toList, ByteArray.ext_iff]
    apply Array.toList_inj.mp
    simpa [asBytes] using split
  rcases List.isPrefix_of_utf8Encode_append_eq_utf8Encode _ encoded with ⟨rest, together⟩
  refine ⟨String.ofList rest, String.toList_inj.mp ?_⟩
  simp [together]

theorem isValidUTF8_singleton_of_ascii {byte : UInt8} (ascii : byte < 128) :
    [byte].toByteArray.IsValidUTF8 := by
  have small : byte.toNat < 128 := UInt8.lt_iff_toNat_lt.mp ascii
  have encoded : String.utf8EncodeChar (Char.ofNat byte.toNat) = [byte] := by
    have table : ∀ n < 128, String.utf8EncodeChar (Char.ofNat n) = [UInt8.ofNat n] := by decide
    simpa using table byte.toNat small
  rw [← encoded]
  exact Char.isValidUTF8_toByteArray_utf8EncodeChar

theorem isSome_fromUtf8_of_ascii {bytes : Bytes} (ascii : ∀ byte ∈ bytes, byte < 128) :
    (fromUtf8 bytes).isSome := by
  have valid : bytes.toByteArray.IsValidUTF8 := by
    induction bytes with
    | nil => exact ByteArray.isValidUTF8_empty
    | cons byte bytes ih =>
        rw [← List.singleton_append, List.toByteArray_append]
        exact (isValidUTF8_singleton_of_ascii (ascii byte (by simp))).append
          (ih fun other mem => ascii other (List.mem_cons_of_mem byte mem))
  rw [fromUtf8, String.fromUTF8?, dif_pos valid]
  rfl

@[simp]
theorem isOk_ok {ε α : Type} (value : α) : (Except.ok value : Except ε α).isOk = true := rfl

@[simp]
theorem isOk_error {ε α : Type} (error : ε) : (Except.error error : Except ε α).isOk = false := rfl

end Hoposhell
