import Hoposhell.Library.PathText

/-!
# Resolving paths in a tree of files

The files of a machine as an operating system sees them: every file is a directory, a
regular file or something else, and directories have entries.  A path is resolved piece by
piece from the root or from the current directory.  A piece that does not count as a
component stays where it is, but only a directory can be passed in this way; the empty path
names nothing.

A symbolic link is not a file of its own: an entry leads to the file that the link leads to,
and there is no entry where it leads to nothing.
-/

universe u v

namespace FileTree

inductive Kind where
  | dir
  | file
  | other
deriving DecidableEq, Repr

end FileTree

/-- The files of a machine, and the current directory of a process. -/
structure FileTree (α : Type u) (File : Type v) where
  kind : File → FileTree.Kind
  entry : File → List α → Option File
  root : File
  cwd : File
  root_isDir : kind root = .dir
  cwd_isDir : kind cwd = .dir

namespace FileTree

open PathText

variable {α : Type u} {File : Type v} [DecidableEq α] (tree : FileTree α File)
  (symbols : Symbols α)

def step (file : File) (piece : List α) : Option File :=
  if tree.kind file = .dir then
    if symbols.isTrivial piece then some file else tree.entry file piece
  else none

def walk (file : File) : List (List α) → Option File
  | [] => some file
  | piece :: pieces => (tree.step symbols file piece).bind fun next => walk next pieces

def start (path : List α) : File :=
  if path.head? = some symbols.sep then tree.root else tree.cwd

/-- The file that a path names. -/
def resolve (path : List α) : Option File :=
  if path = [] then none else tree.walk symbols (tree.start symbols path) (symbols.pieces path)

def isKind (kind : Kind) (file : Option File) : Bool :=
  file.any fun file => tree.kind file = kind

def isDir (path : List α) : Bool :=
  tree.isKind .dir (tree.resolve symbols path)

def isFile (path : List α) : Bool :=
  tree.isKind .file (tree.resolve symbols path)

/--
What comes in front of the last separator is the directory in which a file of this path is
created; it is the current directory when there is no separator.
-/
def creationDir (path : List α) : Option File :=
  if path = [] then none
  else tree.walk symbols (tree.start symbols path) (symbols.pieces path).dropLast

variable {tree symbols}

theorem walk_append (file : File) (front rest : List (List α)) :
    tree.walk symbols file (front ++ rest) =
      (tree.walk symbols file front).bind fun next => tree.walk symbols next rest := by
  induction front generalizing file with
  | nil => rfl
  | cons piece front ih =>
      rw [List.cons_append, walk, walk]
      cases tree.step symbols file piece with
      | none => rfl
      | some next => exact ih next

theorem start_isDir (path : List α) : tree.kind (tree.start symbols path) = .dir := by
  unfold start
  split
  · exact tree.root_isDir
  · exact tree.cwd_isDir

theorem step_of_not_dir {file : File} (notDir : tree.kind file ≠ .dir) (piece : List α) :
    tree.step symbols file piece = none :=
  if_neg notDir

/-- Only the components of a path matter for whether it leads to a directory. -/
theorem isDir_walk_filter (file : File) (pieces : List (List α)) :
    tree.isKind .dir (tree.walk symbols file (pieces.filter fun piece => !symbols.isTrivial piece)) =
      tree.isKind .dir (tree.walk symbols file pieces) := by
  induction pieces generalizing file with
  | nil => rfl
  | cons piece pieces ih =>
      cases counts : symbols.isTrivial piece with
      | true =>
          rw [List.filter_cons_of_neg (by simp [counts]), ih, walk]
          by_cases isDir : tree.kind file = .dir
          · simp [step, isDir, counts]
          · -- neither way goes on from a file that is no directory
            rw [step_of_not_dir isDir, Option.bind_none]
            cases pieces with
            | nil => simp [walk, isKind, isDir]
            | cons next pieces => rw [walk, step_of_not_dir isDir]; rfl
      | false =>
          rw [List.filter_cons_of_pos (by simp [counts]), walk, walk]
          cases tree.step symbols file piece with
          | none => rfl
          | some next => exact ih next

theorem isDir_eq {path : List α} (nonempty : path ≠ []) :
    tree.isDir symbols path =
      tree.isKind .dir (tree.walk symbols (tree.start symbols path) (symbols.components path)) := by
  rw [isDir, resolve, if_neg nonempty, Symbols.components, isDir_walk_filter]

@[simp]
theorem isDir_nil : tree.isDir symbols [] = false := by
  simp [isDir, resolve, isKind]

theorem start_of_prefix {part path : List α} (nonempty : part ≠ []) (isPart : part <+: path) :
    tree.start symbols part = tree.start symbols path := by
  rcases isPart with ⟨rest, rfl⟩
  simp [start, List.head?_append_of_ne_nil part nonempty]

section LastPiece

variable {front last : List α}

/-- The last step to a file is made from the directory in front of the last separator. -/
theorem resolve_append_sep (free : symbols.sep ∉ last) :
    tree.resolve symbols (front ++ symbols.sep :: last) =
      (tree.creationDir symbols (front ++ symbols.sep :: last)).bind
        fun dir => tree.step symbols dir last := by
  rw [resolve, creationDir, if_neg (by simp), if_neg (by simp), Symbols.pieces_append_sep free,
    List.dropLast_concat, walk_append]
  simp [walk]

/-- A path whose last piece does not count names a directory or nothing. -/
theorem resolve_of_isTrivial (free : symbols.sep ∉ last) (isTrivial : symbols.isTrivial last = true) :
    tree.resolve symbols (front ++ symbols.sep :: last) =
      (tree.creationDir symbols (front ++ symbols.sep :: last)).filter
        fun dir => tree.kind dir = .dir := by
  rw [resolve_append_sep free]
  cases tree.creationDir symbols (front ++ symbols.sep :: last) with
  | none => rfl
  | some dir => simp [step, isTrivial, Option.filter]

/-- The parent, as a text, is the directory in which the file is created. -/
theorem isDir_parent (free : symbols.sep ∉ last) (counts : symbols.isTrivial last = false) :
    ∃ folder, symbols.parent (front ++ symbols.sep :: last) = some folder ∧
      tree.isDir symbols folder =
        tree.isKind .dir (tree.creationDir symbols (front ++ symbols.sep :: last)) := by
  have components : symbols.components (front ++ symbols.sep :: last) =
      symbols.components front ++ [last] := by
    rw [Symbols.components_append_sep, Symbols.components_of_free free, counts]
    rfl
  have hasParts : symbols.parts (front ++ symbols.sep :: last) ≠ [] := by
    intro noParts
    have filtered := @Symbols.filter_parts α _ symbols (front ++ symbols.sep :: last)
    simp [noParts, components] at filtered
  rcases Symbols.parent_spec hasParts with ⟨folder, isParent, stemFirst, isPart, folderComponents⟩
  rw [components, List.dropLast_concat] at folderComponents
  have nonempty : folder ≠ [] := by
    rintro rfl
    rw [Symbols.components_nil] at folderComponents
    have noStem := List.prefix_nil.mp stemFirst
    exact Symbols.components_ne_nil_of_stem noStem folderComponents.symm
  refine ⟨folder, isParent, ?_⟩
  rw [isDir_eq nonempty, start_of_prefix nonempty isPart, folderComponents, creationDir,
    if_neg (by simp), Symbols.pieces_append_sep free, List.dropLast_concat]
  exact isDir_walk_filter _ _

end LastPiece

end FileTree
