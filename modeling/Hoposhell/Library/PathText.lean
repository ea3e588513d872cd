import Mathlib.Data.List.DropRight

/-!
# Paths as texts

What a path library does with the text of a path, without asking the operating system: the
last component, the parent, and joining a path and a name.  A path is cut into pieces at the
separators.  An empty piece and a single dot do not count as components, except for a dot
that starts a relative path.

The text of a path begins with its `stem`: the separator of an absolute path, or a leading
dot.  The pieces after it, without the trailing ones that do not count, are its `parts`.
-/

namespace PathText

universe u

/-- The symbols that paths are written with. -/
structure Symbols (α : Type u) where
  sep : α
  dot : α
  sep_ne_dot : sep ≠ dot

namespace Symbols

variable {α : Type u} [DecidableEq α] (symbols : Symbols α)

/-- A piece that does not count as a component. -/
def isTrivial (piece : List α) : Bool :=
  piece = [] ∨ piece = [symbols.dot]

def pieces (path : List α) : List (List α) :=
  path.splitOn symbols.sep

def stem : List α → List α
  | [] => []
  | first :: rest =>
      if first = symbols.sep then [symbols.sep]
      else if first = symbols.dot ∧ (rest = [] ∨ rest.head? = some symbols.sep) then [symbols.dot]
      else []

/-- The rest of a path after its stem. -/
def body (path : List α) : List α :=
  path.drop (symbols.stem path).length

def parts (path : List α) : List (List α) :=
  (symbols.pieces (symbols.body path)).rdropWhile symbols.isTrivial

/-- The last component, unless it is a stem or leads to the directory above. -/
def fileName (path : List α) : Option (List α) :=
  (symbols.parts path).getLast?.filter (· ≠ [symbols.dot, symbols.dot])

/-- The path without its last component. -/
def parent (path : List α) : Option (List α) :=
  if symbols.parts path = [] then
    if symbols.stem path = [symbols.dot] then some [] else none
  else
    some (symbols.stem path ++ [symbols.sep].intercalate
      ((symbols.parts path).dropLast.rdropWhile symbols.isTrivial))

/-- A path seen from a folder: an absolute path stays what it is. -/
def join (folder path : List α) : List α :=
  if path.head? = some symbols.sep then path
  else if folder = [] ∨ folder.getLast? = some symbols.sep then folder ++ path
  else folder ++ symbols.sep :: path

def endsWithSep (path : List α) : Bool :=
  path.getLast? = some symbols.sep

/-- A file name in front of its last dot, unless nothing is in front of it. -/
def beforeDot (name : List α) : List α :=
  let front := (name.rdropWhile (· ≠ symbols.dot)).dropLast
  if front = [] then name else front

/-- The last component without its extension. -/
def fileStem (path : List α) : Option (List α) :=
  (symbols.fileName path).map symbols.beforeDot

/-- The pieces that count. -/
def components (path : List α) : List (List α) :=
  (symbols.pieces path).filter fun piece => !symbols.isTrivial piece

variable {symbols}

section Components

theorem free_of_mem_pieces {path piece : List α} (mem : piece ∈ symbols.pieces path) :
    symbols.sep ∉ piece := by
  unfold pieces at mem
  induction path generalizing piece with
  | nil => simp_all
  | cons first rest ih =>
      rw [List.splitOn_cons_eq_if_modifyHead] at mem
      split_ifs at mem with isSep
      · rcases List.mem_cons.mp mem with rfl | later
        · exact List.not_mem_nil
        · exact ih later
      · cases split : List.splitOn symbols.sep rest with
        | nil => exact absurd split (List.splitOn_ne_nil _ _)
        | cons head tail =>
            rw [split, List.modifyHead_cons] at mem
            rcases List.mem_cons.mp mem with rfl | later
            · have headFree := ih (by rw [split]; exact List.mem_cons_self)
              have firstFree : symbols.sep ≠ first := fun same => isSep (by simp [same])
              simp [headFree, firstFree]
            · exact ih (by rw [split]; exact List.mem_cons_of_mem head later)

@[simp]
theorem components_nil : symbols.components [] = [] := by
  simp [components, pieces, isTrivial]

theorem components_append_sep (front rest : List α) :
    symbols.components (front ++ symbols.sep :: rest) =
      symbols.components front ++ symbols.components rest := by
  rw [components, pieces, List.splitOn_append_cons_self, List.filter_append]
  rfl

theorem components_of_free {piece : List α} (free : symbols.sep ∉ piece) :
    symbols.components piece = if symbols.isTrivial piece then [] else [piece] := by
  rw [components, pieces, List.splitOn_eq_singleton free, List.filter_singleton]
  cases symbols.isTrivial piece <;> rfl

theorem components_intercalate {front : List (List α)} (free : ∀ piece ∈ front, symbols.sep ∉ piece) :
    symbols.components ([symbols.sep].intercalate front) =
      front.filter fun piece => !symbols.isTrivial piece := by
  by_cases isNil : front = []
  · simp [isNil]
  · rw [components, pieces, List.splitOn_intercalate symbols.sep free isNil]

end Components

section Parent

theorem stem_append_body (path : List α) :
    symbols.stem path ++ symbols.body path = path := by
  cases path with
  | nil => rfl
  | cons first rest =>
      simp only [body, stem]
      split_ifs with isSep isDot
      · simp [isSep]
      · simp [isDot.1]
      · simp

/-- The stem of a path brings no component. -/
theorem components_stem_append {path part : List α} (isPart : part <+: symbols.body path) :
    symbols.components (symbols.stem path ++ part) = symbols.components part := by
  cases path with
  | nil => rfl
  | cons first rest =>
      simp only [body, stem] at isPart ⊢
      split_ifs at isPart ⊢ with isSep isDot
      · exact components_append_sep [] part
      · have dotFree : symbols.sep ∉ [symbols.dot] := by
          simpa using symbols.sep_ne_dot
        have ofDot : symbols.components [symbols.dot] = [] := by
          simp [components_of_free dotFree, isTrivial]
        cases part with
        | nil => simpa using ofDot
        | cons symbol part =>
            -- a dot is a stem only in front of a separator
            have inRest : symbol :: part <+: rest := by simpa using isPart
            rcases inRest with ⟨more, rfl⟩
            obtain rfl : symbol = symbols.sep := by simpa using isDot.2
            rw [components_append_sep, ofDot]
            exact (components_append_sep [] part).symm
      · rfl

theorem components_body (path : List α) :
    symbols.components (symbols.body path) = symbols.components path := by
  conv_rhs => rw [← @stem_append_body α _ symbols path]
  exact (components_stem_append (List.prefix_refl _)).symm

omit [DecidableEq α] in
theorem filter_rdropWhile (drops : List α → Bool) (all : List (List α)) :
    (all.rdropWhile drops).filter (fun piece => !drops piece) =
      all.filter fun piece => !drops piece := by
  induction all using List.reverseRecOn with
  | nil => rfl
  | append_singleton front last ih =>
      cases dropped : drops last with
      | true => rw [List.rdropWhile_concat_pos _ _ _ dropped, ih]; simp [dropped]
      | false => rw [List.rdropWhile_concat_neg _ _ _ (by simp [dropped])]

theorem filter_parts (path : List α) :
    (symbols.parts path).filter (fun piece => !symbols.isTrivial piece) =
      symbols.components path := by
  rw [parts, filter_rdropWhile, ← components_body]
  rfl

/-- The last part is the last component. -/
theorem getLast?_parts (path : List α) :
    (symbols.parts path).getLast? = (symbols.components path).getLast? := by
  rw [← filter_parts path]
  rcases List.eq_nil_or_concat (symbols.parts path) with isNil | ⟨front, last, shape⟩
  · rw [isNil]
    rfl
  · have counts : symbols.isTrivial last = false := by
      have lastNot : symbols.isTrivial ((symbols.parts path).getLast (by simp [shape])) ≠ true :=
        List.rdropWhile_last_not _ _ (by rw [← parts, shape]; simp)
      simpa [shape] using lastNot
    simp [shape, counts]

omit [DecidableEq α] in
/-- The text of the first pieces begins the text of all of them. -/
theorem intercalate_front {front all : List (List α)} (isPrefix : front <+: all) :
    [symbols.sep].intercalate front <+: [symbols.sep].intercalate all := by
  rcases isPrefix with ⟨rest, rfl⟩
  induction front with
  | nil => exact List.nil_prefix
  | cons piece front ih =>
      cases front with
      | nil => cases rest <;> simp
      | cons next front =>
          simp only [List.cons_append, List.intercalate_cons_cons] at ih ⊢
          exact (List.prefix_append_right_inj _).mpr ih

/-- The parent is a first part of the path, with all components but the last. -/
theorem parent_spec {path : List α} (hasParts : symbols.parts path ≠ []) :
    ∃ folder, symbols.parent path = some folder ∧ symbols.stem path <+: folder ∧
      folder <+: path ∧
      symbols.components folder = (symbols.components path).dropLast := by
  rcases List.eq_nil_or_concat (symbols.parts path) with isNil | ⟨front, last, shape⟩
  · exact absurd isNil hasParts
  have counts : symbols.isTrivial last = false := by
    have lastNot : symbols.isTrivial ((symbols.parts path).getLast hasParts) ≠ true :=
      List.rdropWhile_last_not _ _ hasParts
    simpa [shape] using lastNot
  have piecesPrefix : front.rdropWhile symbols.isTrivial <+: symbols.pieces (symbols.body path) := by
    have inParts : front <+: symbols.parts path := ⟨[last], by simpa using shape.symm⟩
    exact (List.rdropWhile_prefix _ _).trans (inParts.trans (List.rdropWhile_prefix _ _))
  have textPrefix : [symbols.sep].intercalate (front.rdropWhile symbols.isTrivial) <+:
      symbols.body path := by
    have inAll := @intercalate_front α symbols _ _ piecesPrefix
    rwa [pieces, List.intercalate_splitOn] at inAll
  refine ⟨_, by rw [parent, if_neg hasParts, shape, List.concat_eq_append, List.dropLast_concat],
    List.prefix_append _ _, ?_, ?_⟩
  · conv_rhs => rw [← @stem_append_body α _ symbols path]
    exact (List.prefix_append_right_inj _).mpr textPrefix
  · rw [components_stem_append textPrefix, components_intercalate, filter_rdropWhile,
      ← filter_parts path, shape]
    · simp [counts]
    · intro piece mem
      exact free_of_mem_pieces (piecesPrefix.subset mem)

end Parent

section Last

omit [DecidableEq α] in
theorem exists_last_sep {path : List α} (mem : symbols.sep ∈ path) :
    ∃ front last, path = front ++ symbols.sep :: last ∧ symbols.sep ∉ last := by
  rcases List.eq_append_cons_of_mem (List.mem_reverse.mpr mem) with ⟨last, front, shape, free⟩
  refine ⟨front.reverse, last.reverse, ?_, by simpa using free⟩
  rw [← List.reverse_inj, shape]
  simp

theorem stem_of_isTrivial {piece rest : List α} (isTrivial : symbols.isTrivial piece = true) :
    symbols.stem (piece ++ symbols.sep :: rest) ≠ [] := by
  rcases of_decide_eq_true isTrivial with rfl | rfl
  · simp [stem]
  · simp [stem, symbols.sep_ne_dot.symm]

/-- The last piece is what follows the last separator. -/
theorem pieces_append_sep {front last : List α} (free : symbols.sep ∉ last) :
    symbols.pieces (front ++ symbols.sep :: last) = symbols.pieces front ++ [last] := by
  rw [pieces, List.splitOn_append_cons_self, List.splitOn_eq_singleton free]
  rfl

/-- What is in front of the last separator of a path without stem has a component. -/
theorem components_ne_nil_of_stem {front last : List α}
    (noStem : symbols.stem (front ++ symbols.sep :: last) = []) :
    symbols.components front ≠ [] := by
  intro nothing
  have firstTrivial : ∀ piece ∈ symbols.pieces front, symbols.isTrivial piece = true := by
    simpa [components] using nothing
  by_cases mem : symbols.sep ∈ front
  · rcases List.eq_append_cons_of_mem mem with ⟨first, rest, rfl, free⟩
    have here : symbols.isTrivial first = true := by
      apply firstTrivial
      rw [pieces, List.splitOn_append_cons_self_of_not_mem free]
      exact List.mem_cons_self
    rw [List.append_assoc, List.cons_append] at noStem
    exact stem_of_isTrivial here noStem
  · have here : symbols.isTrivial front = true := by
      apply firstTrivial
      rw [pieces, List.splitOn_eq_singleton mem]
      exact List.mem_cons_self
    exact stem_of_isTrivial here noStem

/-- The parent of a mere name is the empty path. -/
theorem parent_of_free {name : List α} (free : symbols.sep ∉ name)
    (counts : symbols.isTrivial name = false) : symbols.parent name = some [] := by
  have noStem : symbols.stem name = [] := by
    cases name with
    | nil => rfl
    | cons first rest =>
        rw [List.mem_cons, not_or] at free
        have notDot : ¬(first = symbols.dot ∧ (rest = [] ∨ rest.head? = some symbols.sep)) := by
          rintro ⟨rfl, rfl | follows⟩
          · simp [isTrivial] at counts
          · exact free.2 (List.mem_of_head? follows)
        simp only [stem, if_neg (Ne.symm free.1), if_neg notDot]
  have onePart : symbols.parts name = [name] := by
    simp [parts, body, noStem, pieces, List.splitOn_eq_singleton free, List.rdropWhile_singleton,
      counts]
  simp [parent, onePart, noStem]

/-- What is in front of the last dot of the last component. -/
theorem fileStem_append {front name extension : List α} (nonempty : name ≠ [])
    (free : symbols.sep ∉ name ++ symbols.dot :: extension) (extended : extension ≠ [])
    (dotFree : symbols.dot ∉ extension) :
    symbols.fileStem (front ++ symbols.sep :: (name ++ symbols.dot :: extension)) = some name := by
  have endsInExtension : (name ++ symbols.dot :: extension).getLast? = extension.getLast? := by
    rw [List.getLast?_append_cons, List.getLast?_cons, List.getLast?_eq_some_getLast extended]
    rfl
  have notDots : ∀ dots : List α, dots.getLast? = some symbols.dot →
      name ++ symbols.dot :: extension ≠ dots := by
    rintro dots ends rfl
    rw [endsInExtension] at ends
    exact dotFree (List.mem_of_getLast? ends)
  have counts : symbols.isTrivial (name ++ symbols.dot :: extension) = false := by
    simp [isTrivial, notDots [symbols.dot] rfl]
  have fileName : symbols.fileName (front ++ symbols.sep :: (name ++ symbols.dot :: extension)) =
      some (name ++ symbols.dot :: extension) := by
    rw [Symbols.fileName, getLast?_parts, components_append_sep, components_of_free free, counts]
    simp [Option.filter, notDots [symbols.dot, symbols.dot] rfl]
  have cut : (name ++ symbols.dot :: extension).rdropWhile (· ≠ symbols.dot) =
      name ++ [symbols.dot] := by
    have reversed : (name ++ symbols.dot :: extension).reverse =
        extension.reverse ++ (symbols.dot :: name.reverse) := by simp
    rw [List.rdropWhile, reversed, List.dropWhile_append_of_pos, List.dropWhile_cons_of_neg]
    · simp
    · simp
    · intro symbol mem
      rw [List.mem_reverse] at mem
      simpa using fun same : symbol = symbols.dot => dotFree (same ▸ mem)
  rw [fileStem, fileName, Option.map_some, beforeDot, cut, List.dropLast_concat, if_neg nonempty]

end Last

end Symbols

end PathText
