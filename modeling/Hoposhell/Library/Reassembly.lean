import Mathlib.Data.List.DropRight
import Mathlib.Data.List.Nodup
import Mathlib.Data.List.ReduceOption

/-!
# Reassembly of interleaved runs of chunks

Chunks carry a key and a mark on the last one of each run.  `absorb` keeps a list of
unfinished items and looks the key of a chunk up in it, which is how a program
demultiplexes interleaved runs.  The reference is `openRun`: the chunks of a key
since the last marked one, whatever else has arrived in between.

`Represents` relates the two, and `Represents.absorb` is the simulation: every chunk
completes what the reference says, and leaves a list that still represents it.
`finished_of_mixed` is what a demultiplexer is for: whole runs come out again, however
they have been mixed.
-/

namespace Reassembly

universe u v w

variable {Key : Type u} {Chunk : Type v} {Item : Type w}

/-- How chunks are put together: an item starts from a chunk and is extended by others. -/
structure Scheme (Key : Type u) (Chunk : Type v) (Item : Type w) where
  chunkKey : Chunk → Key
  isLast : Chunk → Bool
  start : Chunk → Item
  extend : Item → Chunk → Item
  itemKey : Item → Key
  itemKey_start : ∀ chunk, itemKey (start chunk) = chunkKey chunk
  itemKey_extend : ∀ item chunk, itemKey (extend item chunk) = itemKey item

namespace Scheme

section Assemble

variable (scheme : Scheme Key Chunk Item)

def assemble : List Chunk → Option Item
  | [] => none
  | chunk :: run => some (run.foldl scheme.extend (scheme.start chunk))

variable {scheme}

theorem assemble_concat {run : List Chunk} {item : Item} (chunk : Chunk)
    (assembled : scheme.assemble run = some item) :
    scheme.assemble (run ++ [chunk]) = some (scheme.extend item chunk) := by
  cases run with
  | nil => simp [assemble] at assembled
  | cons first run =>
      simp only [assemble, Option.some.injEq] at assembled
      simp [assemble, assembled]

theorem assemble_eq_none_iff {run : List Chunk} : scheme.assemble run = none ↔ run = [] := by
  cases run <;> simp [assemble]

/-- `describe` gives the item that a run of one key and its last chunk make. -/
structure Describes (scheme : Scheme Key Chunk Item) (describe : List Chunk → Chunk → Item) :
    Prop where
  start_eq : ∀ chunk, describe [] chunk = scheme.start chunk
  extend_eq : ∀ run chunk last, scheme.chunkKey chunk = scheme.chunkKey last →
    describe (run ++ [chunk]) last = scheme.extend (describe run chunk) last

theorem Describes.assemble_eq {describe : List Chunk → Chunk → Item}
    (describes : scheme.Describes describe) {run : List Chunk} {last : Chunk}
    (sameKey : ∀ chunk ∈ run, scheme.chunkKey chunk = scheme.chunkKey last) :
    scheme.assemble (run ++ [last]) = some (describe run last) := by
  induction run using List.reverseRecOn generalizing last with
  | nil => simp [assemble, describes.start_eq]
  | append_singleton run chunk ih =>
      have chunkKey := sameKey chunk (by simp)
      have front : scheme.assemble (run ++ [chunk]) = some (describe run chunk) := by
        apply ih
        intro other mem
        rw [chunkKey]
        exact sameKey other (by simp [mem])
      rw [assemble_concat last front, describes.extend_eq run chunk last chunkKey]

end Assemble

section Absorb

variable [DecidableEq Key] (scheme : Scheme Key Chunk Item)

/-- The first pending item with the key of the chunk is extended, or a new one starts. -/
def absorb (pending : List Item) (chunk : Chunk) : Option Item × List Item :=
  match pending.findIdx? (fun item => scheme.itemKey item = scheme.chunkKey chunk) with
  | some pos =>
      let extended := pending.modify pos (fun item => scheme.extend item chunk)
      if scheme.isLast chunk then (extended[pos]?, extended.eraseIdx pos) else (none, extended)
  | none =>
      if scheme.isLast chunk then (some (scheme.start chunk), pending)
      else (none, pending ++ [scheme.start chunk])

/-- The chunks of a key since its last marked chunk. -/
def openRun (key : Key) (chunks : List Chunk) : List Chunk :=
  (chunks.filter fun chunk => scheme.chunkKey chunk = key).rtakeWhile fun chunk =>
    !scheme.isLast chunk

/-- No two pending items share a key, and each is the one made of its key's open run. -/
structure Represents (chunks : List Chunk) (pending : List Item) : Prop where
  nodup : (pending.map scheme.itemKey).Nodup
  find?_eq : ∀ key, pending.find? (fun item => scheme.itemKey item = key) =
    scheme.assemble (scheme.openRun key chunks)

variable {scheme}

theorem absorb_of_absent {pending : List Item} {chunk : Chunk}
    (absent : ∀ item ∈ pending, scheme.itemKey item ≠ scheme.chunkKey chunk) :
    scheme.absorb pending chunk =
      if scheme.isLast chunk then (some (scheme.start chunk), pending)
      else (none, pending ++ [scheme.start chunk]) := by
  have notFound : pending.findIdx?
      (fun item => scheme.itemKey item = scheme.chunkKey chunk) = none := by
    simpa [List.findIdx?_eq_none_iff] using absent
  rw [absorb, notFound]

theorem absorb_of_present {front back : List Item} {item : Item} {chunk : Chunk}
    (absent : ∀ other ∈ front, scheme.itemKey other ≠ scheme.chunkKey chunk)
    (present : scheme.itemKey item = scheme.chunkKey chunk) :
    scheme.absorb (front ++ item :: back) chunk =
      if scheme.isLast chunk then (some (scheme.extend item chunk), front ++ back)
      else (none, front ++ scheme.extend item chunk :: back) := by
  have found : (front ++ item :: back).findIdx?
      (fun item => scheme.itemKey item = scheme.chunkKey chunk) = some front.length := by
    have notFound : front.findIdx?
        (fun item => scheme.itemKey item = scheme.chunkKey chunk) = none := by
      simpa [List.findIdx?_eq_none_iff] using absent
    rw [List.findIdx?_append, notFound, List.findIdx?_cons]
    simp [present]
  have modified : (front ++ item :: back).modify front.length
      (fun item => scheme.extend item chunk) = front ++ scheme.extend item chunk :: back := by
    rw [List.modify_eq_take_cons_drop (by simp)]
    simp
  rw [absorb, found]
  simp only [modified]
  simp [List.eraseIdx_append]

theorem openRun_concat (key : Key) (chunks : List Chunk) (chunk : Chunk) :
    scheme.openRun key (chunks ++ [chunk]) =
      if scheme.chunkKey chunk = key then
        if scheme.isLast chunk then [] else scheme.openRun key chunks ++ [chunk]
      else scheme.openRun key chunks := by
  by_cases same : scheme.chunkKey chunk = key
  · cases marked : scheme.isLast chunk <;> simp [openRun, List.filter_append, same, marked]
  · simp [openRun, List.filter_append, same]

theorem represents_nil : scheme.Represents [] [] where
  nodup := List.nodup_nil
  find?_eq _ := rfl

theorem Represents.mem_keys_iff {chunks : List Chunk} {pending : List Item}
    (represents : scheme.Represents chunks pending) (key : Key) :
    key ∈ pending.map scheme.itemKey ↔ scheme.openRun key chunks ≠ [] := by
  have closed : scheme.assemble (scheme.openRun key chunks) = none ↔
      scheme.openRun key chunks = [] := assemble_eq_none_iff
  rw [ne_eq, ← closed, ← represents.find?_eq key, List.find?_eq_none]
  simp

/-- What a chunk completes, by the reference. -/
def completed (scheme : Scheme Key Chunk Item) (chunks : List Chunk) (chunk : Chunk) :
    Option Item :=
  if scheme.isLast chunk then
    scheme.assemble (scheme.openRun (scheme.chunkKey chunk) chunks ++ [chunk])
  else none

theorem openRun_sublist (scheme : Scheme Key Chunk Item) (key : Key) (chunks : List Chunk) :
    (scheme.openRun key chunks).Sublist chunks :=
  (List.rtakeWhile_suffix _ _).sublist.trans List.filter_sublist

theorem chunkKey_of_mem_openRun {key : Key} {chunks : List Chunk} {chunk : Chunk}
    (mem : chunk ∈ scheme.openRun key chunks) : scheme.chunkKey chunk = key := by
  have kept := (List.rtakeWhile_suffix _ _).subset mem
  simpa using (List.mem_filter.mp kept).2

theorem Describes.completed_eq {describe : List Chunk → Chunk → Item}
    (describes : scheme.Describes describe) (chunks : List Chunk) (chunk : Chunk) :
    scheme.completed chunks chunk =
      if scheme.isLast chunk then
        some (describe (scheme.openRun (scheme.chunkKey chunk) chunks) chunk)
      else none := by
  rw [completed, describes.assemble_eq fun other mem => chunkKey_of_mem_openRun mem]

/-- A chunk of a key that is not pending starts an item, or is one by itself. -/
theorem Represents.absorb_absent {chunks : List Chunk} {pending : List Item}
    (represents : scheme.Represents chunks pending) {chunk : Chunk}
    (absent : ∀ item ∈ pending, scheme.itemKey item ≠ scheme.chunkKey chunk) :
    (scheme.absorb pending chunk).1 = scheme.completed chunks chunk ∧
      scheme.Represents (chunks ++ [chunk]) (scheme.absorb pending chunk).2 := by
  have notFound : pending.find?
      (fun item => scheme.itemKey item = scheme.chunkKey chunk) = none := by
    simpa using absent
  have noRun : scheme.openRun (scheme.chunkKey chunk) chunks = [] := by
    have lookup := represents.find?_eq (scheme.chunkKey chunk)
    rw [notFound] at lookup
    exact assemble_eq_none_iff.mp lookup.symm
  rw [absorb_of_absent absent, completed, noRun]
  cases marked : scheme.isLast chunk with
  | true =>
      refine ⟨rfl, represents.nodup, ?_⟩
      intro key
      rw [openRun_concat, marked]
      by_cases same : scheme.chunkKey chunk = key
      · subst same
        simpa [assemble] using notFound
      · simpa [same] using represents.find?_eq key
  | false =>
      refine ⟨rfl, ?_, ?_⟩
      · have fresh : scheme.chunkKey chunk ∉ pending.map scheme.itemKey := by
          simpa using absent
        simpa [List.nodup_append, represents.nodup, scheme.itemKey_start] using
          fun item mem => absent item mem
      · intro key
        rw [openRun_concat, marked]
        by_cases same : scheme.chunkKey chunk = key
        · subst same
          simp [List.find?_append, notFound, noRun, assemble, scheme.itemKey_start]
        · have skipped := represents.find?_eq key
          simp [List.find?_append, same, scheme.itemKey_start, skipped]

/-- A chunk of a pending key extends its item, and takes it out if it is the last one. -/
theorem Represents.absorb_present {chunks : List Chunk} {front back : List Item} {item : Item}
    (represents : scheme.Represents chunks (front ++ item :: back)) {chunk : Chunk}
    (absent : ∀ other ∈ front, scheme.itemKey other ≠ scheme.chunkKey chunk)
    (present : scheme.itemKey item = scheme.chunkKey chunk) :
    (scheme.absorb (front ++ item :: back) chunk).1 = scheme.completed chunks chunk ∧
      scheme.Represents (chunks ++ [chunk]) (scheme.absorb (front ++ item :: back) chunk).2 := by
  have notInFront : front.find?
      (fun item => scheme.itemKey item = scheme.chunkKey chunk) = none := by
    simpa using absent
  have assembled : scheme.assemble (scheme.openRun (scheme.chunkKey chunk) chunks) = some item := by
    rw [← represents.find?_eq (scheme.chunkKey chunk), List.find?_append, notInFront]
    simp [present]
  have nodup := represents.nodup
  rw [absorb_of_present absent present, completed, assemble_concat chunk assembled]
  cases marked : scheme.isLast chunk with
  | true =>
      refine ⟨rfl, nodup.sublist (by simp), ?_⟩
      intro key
      rw [openRun_concat, marked]
      by_cases same : scheme.chunkKey chunk = key
      · subst same
        have notInBack : ∀ other ∈ back, scheme.itemKey other ≠ scheme.chunkKey chunk := by
          rw [← present]
          intro other mem eq
          simp only [List.map_append, List.map_cons, List.nodup_append, List.nodup_cons] at nodup
          exact nodup.2.1.1 (eq ▸ List.mem_map_of_mem mem)
        simpa [assemble] using And.intro absent notInBack
      · have lookup := represents.find?_eq key
        have other : scheme.itemKey item ≠ key := by rwa [present]
        simpa [same, List.find?_append, List.find?_cons, other] using lookup
  | false =>
      refine ⟨rfl, by simpa [scheme.itemKey_extend] using nodup, ?_⟩
      intro key
      rw [openRun_concat, marked]
      by_cases same : scheme.chunkKey chunk = key
      · subst same
        simp [List.find?_append, notInFront, scheme.itemKey_extend, present,
          assemble_concat chunk assembled]
      · have lookup := represents.find?_eq key
        have other : scheme.itemKey item ≠ key := by rwa [present]
        simpa [same, List.find?_append, List.find?_cons, scheme.itemKey_extend, other] using lookup

/-- A chunk completes what the reference says and leaves a list that represents it. -/
theorem Represents.absorb {chunks : List Chunk} {pending : List Item}
    (represents : scheme.Represents chunks pending) (chunk : Chunk) :
    (scheme.absorb pending chunk).1 = scheme.completed chunks chunk ∧
      scheme.Represents (chunks ++ [chunk]) (scheme.absorb pending chunk).2 := by
  cases found : pending.find? (fun item => scheme.itemKey item = scheme.chunkKey chunk) with
  | none =>
      exact represents.absorb_absent (by simpa using found)
  | some item =>
      rcases List.find?_eq_some_iff_append.mp found with ⟨present, front, back, rfl, absent⟩
      exact represents.absorb_present (by simpa using absent) (by simpa using present)

/-- Only the chunks of a key matter to its open run. -/
theorem openRun_filter (key : Key) (chunks : List Chunk) :
    scheme.openRun key (chunks.filter fun chunk => scheme.chunkKey chunk = key) =
      scheme.openRun key chunks := by
  simp [openRun, List.filter_filter]

variable (scheme) in
/-- Chunks in turn: what each of them completes, and the items left pending. -/
def absorbAll (pending : List Item) : List Chunk → List (Option Item) × List Item
  | [] => ([], pending)
  | chunk :: chunks =>
      let first := scheme.absorb pending chunk
      let rest := absorbAll first.2 chunks
      (first.1 :: rest.1, rest.2)

theorem absorbAll_extend {pending : List Item} {item : Item} {front : List Chunk}
    (absent : ∀ other ∈ pending, scheme.itemKey other ≠ scheme.itemKey item)
    (sameKey : ∀ chunk ∈ front, scheme.chunkKey chunk = scheme.itemKey item)
    (unmarked : ∀ chunk ∈ front, scheme.isLast chunk = false) {last : Chunk}
    (lastKey : scheme.chunkKey last = scheme.itemKey item) (marked : scheme.isLast last = true) :
    scheme.absorbAll (pending ++ [item]) (front ++ [last]) =
      (List.replicate front.length none ++
        [some (scheme.extend (front.foldl scheme.extend item) last)], pending) := by
  induction front generalizing item with
  | nil =>
      rw [← lastKey] at absent
      simp [absorbAll, absorb_of_present absent lastKey.symm, marked]
  | cons chunk front ih =>
      have chunkKey := sameKey chunk (by simp)
      have chunkUnmarked := unmarked chunk (by simp)
      have rest : scheme.absorbAll (pending ++ [scheme.extend item chunk]) (front ++ [last]) = _ :=
        ih (by simpa [scheme.itemKey_extend] using absent)
          (fun other mem => by simpa [scheme.itemKey_extend] using sameKey other (by simp [mem]))
          (fun other mem => unmarked other (by simp [mem]))
          (by simpa [scheme.itemKey_extend] using lastKey)
      rw [← chunkKey] at absent
      simp [absorbAll, absorb_of_present absent chunkKey.symm, chunkUnmarked, rest,
        List.replicate_succ]

/--
A whole run of a key that is not pending completes one item, at its last chunk, and
leaves the pending items as they were.
-/
theorem absorbAll_run {pending : List Item} {key : Key} {front : List Chunk} {last : Chunk}
    (absent : ∀ item ∈ pending, scheme.itemKey item ≠ key)
    (sameKey : ∀ chunk ∈ front ++ [last], scheme.chunkKey chunk = key)
    (unmarked : ∀ chunk ∈ front, scheme.isLast chunk = false)
    (marked : scheme.isLast last = true) :
    scheme.absorbAll pending (front ++ [last]) =
      (List.replicate front.length none ++ [scheme.assemble (front ++ [last])], pending) := by
  cases front with
  | nil =>
      rw [← sameKey last (by simp)] at absent
      simp [absorbAll, absorb_of_absent absent, marked, assemble]
  | cons first front =>
      have firstKey := sameKey first (by simp)
      have lastKey := sameKey last (by simp)
      have rest : scheme.absorbAll (pending ++ [scheme.start first]) (front ++ [last]) = _ :=
        absorbAll_extend (by simpa [scheme.itemKey_start, firstKey] using absent)
          (fun chunk mem => by simp [scheme.itemKey_start, firstKey, sameKey chunk (by simp [mem])])
          (fun chunk mem => unmarked chunk (by simp [mem]))
          (by rw [scheme.itemKey_start, firstKey, lastKey]) marked
      rw [← firstKey] at absent
      simp [absorbAll, absorb_of_absent absent, unmarked first (by simp), rest, assemble,
        List.replicate_succ]

/-- A marked chunk completes an item of its key, and no other chunk completes one. -/
theorem completed_eq_some {chunks : List Chunk} {chunk : Chunk} {item : Item}
    (completes : scheme.completed chunks chunk = some item) :
    scheme.itemKey item = scheme.chunkKey chunk := by
  have itemKey_foldl : ∀ (run : List Chunk) (start : Item),
      scheme.itemKey (run.foldl scheme.extend start) = scheme.itemKey start := by
    intro run
    induction run with
    | nil => exact fun _ => rfl
    | cons first run ih =>
        intro start
        rw [List.foldl_cons, ih, scheme.itemKey_extend]
  rw [completed, Option.ite_none_right_eq_some] at completes
  rcases completes with ⟨_, assembled⟩
  cases open? : scheme.openRun (scheme.chunkKey chunk) chunks with
  | nil =>
      simp only [open?, List.nil_append, assemble, Option.some.injEq] at assembled
      rw [← assembled, itemKey_foldl, scheme.itemKey_start]
  | cons first run =>
      simp only [open?, List.cons_append, assemble, Option.some.injEq] at assembled
      rw [← assembled, itemKey_foldl, scheme.itemKey_start]
      exact chunkKey_of_mem_openRun (by rw [open?]; exact List.mem_cons_self)

variable (scheme) in
/-- The items that chunks complete in turn. -/
def finished (pending : List Item) (chunks : List Chunk) : List Item :=
  (scheme.absorbAll pending chunks).1.reduceOption

theorem finished_cons (pending : List Item) (chunk : Chunk) (chunks : List Chunk) :
    scheme.finished pending (chunk :: chunks) =
      (scheme.absorb pending chunk).1.toList ++
        scheme.finished (scheme.absorb pending chunk).2 chunks := by
  rw [finished, absorbAll]
  cases (scheme.absorb pending chunk).1 <;> rfl

theorem absorbAll_append (pending : List Item) (front back : List Chunk) :
    scheme.absorbAll pending (front ++ back) =
      ((scheme.absorbAll pending front).1 ++
          (scheme.absorbAll (scheme.absorbAll pending front).2 back).1,
        (scheme.absorbAll (scheme.absorbAll pending front).2 back).2) := by
  induction front generalizing pending with
  | nil => rfl
  | cons chunk front ih => simp only [List.cons_append, absorbAll, ih]

theorem finished_append (pending : List Item) (front back : List Chunk) :
    scheme.finished pending (front ++ back) =
      scheme.finished pending front ++
        scheme.finished (scheme.absorbAll pending front).2 back := by
  rw [finished, absorbAll_append, List.reduceOption_append]
  rfl

/--
The items of a key are those that the chunks of the key complete by themselves: chunks of
other keys do not interfere, wherever they stand.
-/
theorem Represents.finished_filter {seen seenOfKey : List Chunk} {pending pendingOfKey : List Item}
    {key : Key} (represents : scheme.Represents seen pending)
    (representsOfKey : scheme.Represents seenOfKey pendingOfKey)
    (sameRun : scheme.openRun key seenOfKey = scheme.openRun key seen) (chunks : List Chunk) :
    (scheme.finished pending chunks).filter (fun item => scheme.itemKey item = key) =
      scheme.finished pendingOfKey (chunks.filter fun chunk => scheme.chunkKey chunk = key) := by
  induction chunks generalizing seen seenOfKey pending pendingOfKey with
  | nil => rfl
  | cons chunk chunks ih =>
      rcases represents.absorb chunk with ⟨completes, nextRepresents⟩
      rw [finished_cons, List.filter_append]
      by_cases same : scheme.chunkKey chunk = key
      · rcases representsOfKey.absorb chunk with ⟨completesOfKey, nextOfKey⟩
        have nextRun : scheme.openRun key (seenOfKey ++ [chunk]) =
            scheme.openRun key (seen ++ [chunk]) := by
          rw [openRun_concat, openRun_concat, sameRun]
        have sameItem : (scheme.absorb pendingOfKey chunk).1 = (scheme.absorb pending chunk).1 := by
          rw [completes, completesOfKey, completed, completed, same, sameRun]
        rw [List.filter_cons_of_pos (by simpa using same), finished_cons, sameItem,
          ih nextRepresents nextOfKey nextRun]
        congr 1
        cases completed : (scheme.absorb pending chunk).1 with
        | none => rfl
        | some item =>
            have itemKey := completed_eq_some (completes.symm.trans completed)
            simp [itemKey, same]
      · have nextRun : scheme.openRun key seenOfKey = scheme.openRun key (seen ++ [chunk]) := by
          rw [openRun_concat, if_neg same, sameRun]
        rw [List.filter_cons_of_neg (by simpa using same),
          ih nextRepresents representsOfKey nextRun]
        cases completed : (scheme.absorb pending chunk).1 with
        | none => rfl
        | some item =>
            have itemKey := completed_eq_some (completes.symm.trans completed)
            simp [itemKey, same]

/-- A whole run of a key: only its last chunk is marked. -/
structure IsRun (scheme : Scheme Key Chunk Item) (key : Key) (run : List Chunk) : Prop where
  sameKey : ∀ chunk ∈ run, scheme.chunkKey chunk = key
  shape : ∃ front last, run = front ++ [last] ∧ (∀ chunk ∈ front, scheme.isLast chunk = false) ∧
    scheme.isLast last = true

theorem IsRun.openRun_append {key : Key} {run : List Chunk} (isRun : scheme.IsRun key run)
    (chunks : List Chunk) : scheme.openRun key (chunks ++ run) = [] := by
  rcases isRun.shape with ⟨front, last, rfl, _, marked⟩
  rw [← List.append_assoc, openRun_concat, if_pos (isRun.sameKey last (by simp)), if_pos marked]

/-- Whole runs of one key in turn complete one item each. -/
theorem finished_flatten {pending : List Item} {key : Key}
    (absent : ∀ item ∈ pending, scheme.itemKey item ≠ key) {runs : List (List Chunk)}
    (areRuns : ∀ run ∈ runs, scheme.IsRun key run) :
    scheme.finished pending runs.flatten = runs.filterMap scheme.assemble := by
  induction runs with
  | nil => rfl
  | cons run runs ih =>
      rw [List.forall_mem_cons] at areRuns
      rcases areRuns.1.shape with ⟨front, last, rfl, unmarked, marked⟩
      have whole := absorbAll_run absent areRuns.1.sameKey unmarked marked
      have here : scheme.finished pending (front ++ [last]) =
          (scheme.assemble (front ++ [last])).toList := by
        rw [finished, whole, List.reduceOption_append, List.reduceOption_replicate_none,
          List.reduceOption_singleton, List.nil_append]
      rw [List.flatten_cons, finished_append, here, whole, ih areRuns.2, List.filterMap_cons]
      cases scheme.assemble (front ++ [last]) <;> rfl

/--
Runs of a key that are cut up and mixed with chunks of other keys in any way come out whole,
in their order, and leave nothing of the key pending.
-/
theorem finished_of_mixed {chunks : List Chunk} {key : Key} {runs : List (List Chunk)}
    (areRuns : ∀ run ∈ runs, scheme.IsRun key run)
    (mixed : (chunks.filter fun chunk => scheme.chunkKey chunk = key) = runs.flatten) :
    (scheme.finished [] chunks).filter (fun item => scheme.itemKey item = key) =
        runs.filterMap scheme.assemble ∧
      scheme.openRun key chunks = [] := by
  constructor
  · rw [represents_nil.finished_filter represents_nil rfl, mixed]
    exact finished_flatten (by simp) areRuns
  · rw [← openRun_filter, mixed]
    rcases List.eq_nil_or_concat runs with rfl | ⟨front, last, rfl⟩
    · rfl
    · rw [List.concat_eq_append, List.flatten_append, List.flatten_singleton]
      exact (areRuns last (by simp)).openRun_append front.flatten

end Absorb

end Scheme

end Reassembly
