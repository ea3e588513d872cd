import Mathlib.Data.List.Basic

/-!
# A compressor and its decompressor

Compression may fail, and so may decompression.  `Codec.Lawful` is what a user of the
library relies on: whatever was compressed is restored.  `stored` is a codec for
payloads small enough that the real one keeps them in a single uncompressed block, and
`block` one for payloads that fit in such a block.
-/

namespace Zstd

structure Codec where
  encodeAll : List UInt8 → Option (List UInt8)
  decodeAll : List UInt8 → Option (List UInt8)

/-- Decompression restores what compression was given. -/
structure Codec.Lawful (codec : Codec) : Prop where
  decode_encode : ∀ payload compressed, codec.encodeAll payload = some compressed →
    codec.decodeAll compressed = some payload

/-- The magic number of a frame, an empty descriptor and the window descriptor. -/
def header : List UInt8 := [0x28, 0xB5, 0x2F, 0xFD, 0x00, 0x58]

/-- A frame of one last uncompressed block of fewer than 32 bytes. -/
def storedFrame (payload : List UInt8) : List UInt8 :=
  header ++ [UInt8.ofNat (payload.length * 8 + 1), 0, 0] ++ payload

/-- The codec of such frames. -/
def stored : Codec where
  encodeAll payload := if payload.length < 32 then some (storedFrame payload) else none
  decodeAll compressed :=
    let payload := compressed.drop 9
    if payload.length < 32 ∧ compressed = storedFrame payload then some payload else none

theorem stored_lawful : stored.Lawful where
  decode_encode payload compressed encoded := by
    simp only [stored] at encoded ⊢
    split at encoded
    · rename_i small
      cases encoded
      have payloadEq : (storedFrame payload).drop 9 = payload := by
        simp [storedFrame, header]
      rw [payloadEq, if_pos ⟨small, rfl⟩]
    · cases encoded

/-- A frame of one block that is stored as it is; its header tells its size in three bytes. -/
def blockFrame (payload : List UInt8) : List UInt8 :=
  let size := payload.length * 8 + 1
  header ++ [UInt8.ofNat size, UInt8.ofNat (size / 256), UInt8.ofNat (size / 65536)] ++ payload

/-- The codec of such frames, with blocks of at most 128 KiB. -/
def block : Codec where
  encodeAll payload := if payload.length ≤ 131072 then some (blockFrame payload) else none
  decodeAll compressed :=
    let payload := compressed.drop 9
    if payload.length ≤ 131072 ∧ compressed = blockFrame payload then some payload else none

theorem block_lawful : block.Lawful where
  decode_encode payload compressed encoded := by
    simp only [block] at encoded ⊢
    split at encoded
    · rename_i small
      cases encoded
      have payloadEq : (blockFrame payload).drop 9 = payload := by
        simp [blockFrame, header]
      rw [payloadEq, if_pos ⟨small, rfl⟩]
    · cases encoded

end Zstd
