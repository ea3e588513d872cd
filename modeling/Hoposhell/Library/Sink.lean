import Mathlib.Data.List.Basic

/-!
# Sinks that take a part of what they are given

A call of `write` is given some data and accepts a prefix of it, which is empty only when
there was nothing to write.  What a sink receives over a sequence of calls is the
concatenation of these prefixes.

A caller that never offers the rest of a short write again loses it: the sink receives all
that was offered exactly when every call accepts the whole of its data.
-/

namespace Sink

universe u

variable {α : Type u}

/-- One call of `write`: what it is given, and how much of it is accepted. -/
structure Write (α : Type u) where
  data : List α
  accepted : ℕ
deriving DecidableEq

namespace Write

/-- The contract of a sink. -/
structure Obeys (write : Write α) : Prop where
  within : write.accepted ≤ write.data.length
  progress : write.data ≠ [] → 0 < write.accepted

def IsWhole (write : Write α) : Prop :=
  write.accepted = write.data.length

def taken (write : Write α) : List α :=
  write.data.take write.accepted

theorem length_taken {write : Write α} (obeys : write.Obeys) :
    write.taken.length = write.accepted := by
  rw [taken, List.length_take]
  exact Nat.min_eq_left obeys.within

theorem taken_of_isWhole {write : Write α} (whole : write.IsWhole) : write.taken = write.data := by
  rw [taken, whole, List.take_length]

theorem isWhole_iff {write : Write α} (obeys : write.Obeys) :
    write.IsWhole ↔ write.taken = write.data := by
  constructor
  · exact taken_of_isWhole
  · intro same
    rw [IsWhole, ← length_taken obeys, same]

end Write

/-- All that the calls are given. -/
def offered (writes : List (Write α)) : List α :=
  writes.flatMap Write.data

/-- All that the calls accept. -/
def received (writes : List (Write α)) : List α :=
  writes.flatMap Write.taken

/-- Nothing is received that was not offered, or out of its turn. -/
theorem received_sublist_offered (writes : List (Write α)) :
    (received writes).Sublist (offered writes) := by
  induction writes with
  | nil => exact List.Sublist.refl _
  | cons write writes ih => exact (List.take_sublist _ _).append ih

theorem length_received_le {writes : List (Write α)} (obeys : ∀ write ∈ writes, write.Obeys) :
    (received writes).length ≤ (offered writes).length := by
  induction writes with
  | nil => simp [received, offered]
  | cons write writes ih =>
      rw [List.forall_mem_cons] at obeys
      have here := obeys.1.within
      have rest := ih obeys.2
      simp only [received, offered, List.flatMap_cons, List.length_append,
        Write.length_taken obeys.1] at rest ⊢
      omega

/-- Nothing is lost exactly when no write is short. -/
theorem received_eq_offered_iff {writes : List (Write α)}
    (obeys : ∀ write ∈ writes, write.Obeys) :
    received writes = offered writes ↔ ∀ write ∈ writes, write.IsWhole := by
  induction writes with
  | nil => simp [received, offered]
  | cons write writes ih =>
      rw [List.forall_mem_cons] at obeys ⊢
      rw [← ih obeys.2, Write.isWhole_iff obeys.1]
      constructor
      · intro same
        have here := obeys.1.within
        have rest := length_received_le obeys.2
        -- what the later calls accept cannot make up for a short write
        have lengths := congrArg List.length same
        simp only [received, offered, List.flatMap_cons, List.length_append,
          Write.length_taken obeys.1] at lengths rest
        apply List.append_inj same
        rw [Write.length_taken obeys.1]
        omega
      · rintro ⟨here, rest⟩
        simp only [received, offered, List.flatMap_cons] at rest ⊢
        rw [here, rest]

end Sink
