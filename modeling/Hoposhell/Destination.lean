import Hoposhell.ProcessResponse

/-!
# Where a download is stored

`compute_destination` tells from the text of a destination and from what its parent names
whether a file can be created there.  The operating system creates a file in the directory
that it reaches over what comes in front of the last separator.  The two agree except for a
mere name, whose parent is the empty path and names nothing, and for a path that ends in a
dot behind a separator, whose parent is too far up.
-/

namespace Hoposhell

open PathText

/-- What the operating system makes of a destination. -/
def expectedDestination {File : Type} (tree : FileTree Char File) (fileName : List Char)
    (dstPath : String) : Option String :=
  match tree.resolve posix dstPath.toList with
  | some file =>
      if tree.kind file = .dir then some (String.ofList (posix.join dstPath.toList fileName))
      else some dstPath
  | none =>
      if posix.endsWithSep dstPath.toList = false ∧
          tree.isKind .dir (tree.creationDir posix dstPath.toList) = true then
        some dstPath
      else none

/-- The parent of a path that is neither a folder nor a file, as a text, is where it belongs. -/
def ParentTells {File : Type} (tree : FileTree Char File) (path : List Char) : Prop :=
  tree.isDir posix path = false → tree.isFile posix path = false →
    posix.endsWithSep path = false →
      (path = [] ∨ '/' ∈ path) ∧
        (['/', '.'] <:+ path →
          ∀ folder, posix.parent path = some folder → tree.isDir posix folder = false)

section Path

variable {front last : List Char}

theorem endsWithSep_append_sep (free : '/' ∉ last) :
    posix.endsWithSep (front ++ '/' :: last) = true ↔ last = [] := by
  rcases List.eq_nil_or_concat last with rfl | ⟨init, final, rfl⟩
  · simp [Symbols.endsWithSep, posix]
  · have notSep : final ≠ '/' := by
      rintro rfl
      simp at free
    simp [Symbols.endsWithSep, posix, List.getLast?_cons, notSep]

theorem endsWithSep_of_free {path : List Char} (free : '/' ∉ path) :
    posix.endsWithSep path = false := by
  rw [← Bool.not_eq_true]
  intro endsInSep
  exact free (List.mem_of_getLast? (of_decide_eq_true endsInSep))

theorem dot_suffix_iff (free : '/' ∉ last) :
    ['/', '.'] <:+ front ++ '/' :: last ↔ last = ['.'] := by
  constructor
  · rintro ⟨before, shape⟩
    have same : before ++ posix.sep :: ['.'] = front ++ posix.sep :: last := by
      simpa [posix] using shape
    have pieces := congrArg posix.pieces same
    rw [Symbols.pieces_append_sep (by decide), Symbols.pieces_append_sep free] at pieces
    simpa [eq_comm] using (List.append_inj' pieces rfl).2
  · rintro rfl
    exact ⟨front, by simp⟩

end Path

section Destination

variable {File : Type} {tree : FileTree Char File}

/-- Of a path that is neither a folder nor a file, `compute_destination` asks for the parent. -/
def createdUnderParent (tree : FileTree Char File) (dstPath : String) : Option String :=
  if posix.endsWithSep dstPath.toList then none
  else if (posix.parent dstPath.toList).any (tree.isDir posix) then some dstPath else none

theorem computeDestination_eq {remoteFilePath : String} {fileName : List Char}
    (named : posix.fileName remoteFilePath.toList = some fileName) (dstPath : Option String) :
    computeDestination tree remoteFilePath dstPath =
      .ok (if tree.isDir posix (dstPath.getD "./").toList then
          some (String.ofList (posix.join (dstPath.getD "./").toList fileName))
        else if tree.isFile posix (dstPath.getD "./").toList then some (dstPath.getD "./")
        else createdUnderParent tree (dstPath.getD "./")) := by
  rw [computeDestination, createdUnderParent, named]
  simp only [unwrap, bind, Except.bind, String.ofList_toList]
  split_ifs with isDir isFile isSep underParent
  all_goals cases parent : posix.parent (dstPath.getD "./").toList <;> simp_all

variable {fileName : List Char} {dstPath : String} {front last : List Char}

/-- A mere name is never accepted, although it would be created in the current directory. -/
theorem destinations_of_free (free : '/' ∉ dstPath.toList) (nonempty : dstPath.toList ≠ [])
    (notDir : tree.isDir posix dstPath.toList = false) :
    expectedDestination tree fileName dstPath = some dstPath ∧
      createdUnderParent tree dstPath = none := by
  have onePiece : posix.pieces dstPath.toList = [dstPath.toList] :=
    List.splitOn_eq_singleton free
  have startsInDir := @FileTree.start_isDir Char File _ tree posix dstPath.toList
  have counts : posix.isTrivial dstPath.toList = false := by
    rw [← Bool.not_eq_true]
    intro isTrivial
    rw [FileTree.isDir, FileTree.resolve, if_neg nonempty, onePiece] at notDir
    simp [FileTree.walk, FileTree.step, startsInDir, isTrivial, FileTree.isKind] at notDir
  have notSep := endsWithSep_of_free free
  constructor
  · rw [expectedDestination]
    cases resolved : tree.resolve posix dstPath.toList with
    | some file =>
        have other : tree.kind file ≠ .dir := by
          simpa [FileTree.isDir, resolved, FileTree.isKind] using notDir
        simp [other]
    | none =>
        have inCwd : tree.isKind .dir (tree.creationDir posix dstPath.toList) = true := by
          simp [FileTree.creationDir, nonempty, onePiece, FileTree.walk, FileTree.isKind, startsInDir]
        simp [notSep, inCwd]
  · simp [createdUnderParent, notSep, Symbols.parent_of_free free counts]

/-- A path whose last piece does not count names no folder only if it could not be created. -/
theorem nothing_of_isTrivial (shape : dstPath.toList = front ++ '/' :: last) (free : '/' ∉ last)
    (isTrivial : posix.isTrivial last = true)
    (notDir : tree.isDir posix dstPath.toList = false) :
    expectedDestination tree fileName dstPath = none := by
  have resolved : tree.resolve posix dstPath.toList =
      (tree.creationDir posix dstPath.toList).filter fun dir => tree.kind dir = .dir := by
    rw [shape]
    exact FileTree.resolve_of_isTrivial free isTrivial
  rw [FileTree.isDir, resolved] at notDir
  rw [expectedDestination, resolved]
  cases created : tree.creationDir posix dstPath.toList with
  | none => simp [FileTree.isKind]
  | some dir =>
      have notThere : tree.kind dir ≠ .dir := by
        intro isDir
        simp [created, FileTree.isKind, Option.filter, isDir] at notDir
      simp [FileTree.isKind, Option.filter, notThere]

/-- A path whose last piece counts is accepted as it should be. -/
theorem destinations_of_counts (shape : dstPath.toList = front ++ '/' :: last)
    (free : '/' ∉ last) (counts : posix.isTrivial last = false)
    (notDir : tree.isDir posix dstPath.toList = false) :
    createdUnderParent tree dstPath = expectedDestination tree fileName dstPath := by
  have notSep : posix.endsWithSep dstPath.toList = false := by
    rw [← Bool.not_eq_true, shape, endsWithSep_append_sep free]
    rintro rfl
    simp [Symbols.isTrivial] at counts
  have parent : ∃ folder, posix.parent dstPath.toList = some folder ∧
      tree.isDir posix folder = tree.isKind .dir (tree.creationDir posix dstPath.toList) := by
    rw [shape]
    exact FileTree.isDir_parent free counts
  rcases parent with ⟨folder, isParent, sameDir⟩
  have resolved : tree.resolve posix dstPath.toList =
      (tree.creationDir posix dstPath.toList).bind fun dir => tree.step posix dir last := by
    rw [shape]
    exact FileTree.resolve_append_sep free
  rw [createdUnderParent, expectedDestination, isParent, Option.any_some, sameDir, notSep]
  cases named : tree.resolve posix dstPath.toList with
  | none => simp
  | some file =>
      -- what is there is in a directory, and is none itself
      rw [resolved, Option.bind_eq_some_iff] at named
      rcases named with ⟨dir, created, step⟩
      have isDir : tree.kind dir = .dir := by
        by_contra notThere
        rw [FileTree.step_of_not_dir notThere] at step
        cases step
      have notFolder : tree.kind file ≠ .dir := by
        simpa [FileTree.isDir, resolved, created, step, FileTree.isKind] using notDir
      simp [FileTree.isKind, created, isDir, notFolder]

/-- The two ways agree on a path that names neither a folder nor a file. -/
theorem createdUnderParent_iff (notDir : tree.isDir posix dstPath.toList = false)
    (notFile : tree.isFile posix dstPath.toList = false) :
    createdUnderParent tree dstPath = expectedDestination tree fileName dstPath ↔
      ParentTells tree dstPath.toList := by
  by_cases empty : dstPath.toList = []
  · have nowhere : expectedDestination tree fileName dstPath = none := by
      simp [expectedDestination, FileTree.resolve, FileTree.creationDir, empty, FileTree.isKind]
    simp [nowhere, ParentTells, createdUnderParent, empty, Symbols.parent, Symbols.parts,
      Symbols.pieces, Symbols.body, Symbols.stem, Symbols.isTrivial, posix]
  by_cases mem : '/' ∈ dstPath.toList
  · rcases @Symbols.exists_last_sep Char posix _ mem with ⟨front, last, atSep, free⟩
    have shape : dstPath.toList = front ++ '/' :: last := atSep
    cases isTrivial : posix.isTrivial last with
    | false =>
        have notDot : ¬['/', '.'] <:+ dstPath.toList := by
          rw [shape]
          intro isSuffix
          rw [(dot_suffix_iff free).mp isSuffix] at isTrivial
          cases isTrivial
        have tells : ParentTells tree dstPath.toList :=
          fun _ _ _ => ⟨.inr mem, fun isSuffix => absurd isSuffix notDot⟩
        exact iff_of_true (destinations_of_counts shape free isTrivial notDir) tells
    | true =>
        rw [nothing_of_isTrivial shape free isTrivial notDir, createdUnderParent, ParentTells]
        rcases of_decide_eq_true isTrivial with rfl | rfl
        · have isSep : posix.endsWithSep dstPath.toList = true := by
            rw [shape, endsWithSep_append_sep free]
          simp [isSep]
        · have notSep : posix.endsWithSep dstPath.toList = false := by
            rw [← Bool.not_eq_true, shape, endsWithSep_append_sep free]
            simp
          have isDot : ['/', '.'] <:+ dstPath.toList := by
            rw [shape]
            exact (dot_suffix_iff free).mpr rfl
          cases posix.parent dstPath.toList <;> simp [notDir, notFile, notSep, mem, isDot]
  · have destinations := @destinations_of_free File tree fileName dstPath mem empty notDir
    rw [destinations.1, destinations.2]
    have notSep := endsWithSep_of_free mem
    constructor
    · intro same
      cases same
    · intro tells
      rcases (tells notDir notFile notSep).1 with isEmpty | isMem
      · exact absurd isEmpty empty
      · exact absurd isMem mem

end Destination

/-- A destination is the one expected exactly when its parent, as a text, tells where it is. -/
theorem computeDestination_iff {File : Type} (tree : FileTree Char File)
    {remoteFilePath : String} {fileName : List Char} (dstPath : Option String)
    (named : posix.fileName remoteFilePath.toList = some fileName) :
    computeDestination tree remoteFilePath dstPath =
        .ok (expectedDestination tree fileName (dstPath.getD "./")) ↔
      ParentTells tree (dstPath.getD "./").toList := by
  rw [computeDestination_eq named, Except.ok.injEq]
  cases isDir : tree.isDir posix (dstPath.getD "./").toList with
  | true =>
      rcases Option.any_eq_true _ _ |>.mp isDir with ⟨file, names, kind⟩
      simp [expectedDestination, ParentTells, names, of_decide_eq_true kind, isDir]
  | false =>
      cases isFile : tree.isFile posix (dstPath.getD "./").toList with
      | true =>
          rcases Option.any_eq_true _ _ |>.mp isFile with ⟨file, names, kind⟩
          simp [expectedDestination, ParentTells, names, of_decide_eq_true kind, isFile]
      | false => simpa using createdUnderParent_iff isDir isFile

/-- An empty folder `b` in the current directory, which is the root. -/
def smallTree : FileTree Char Bool where
  kind _ := .dir
  entry folder name := if folder = false ∧ name = ['b'] then some true else none
  root := false
  cwd := false
  root_isDir := rfl
  cwd_isDir := rfl

theorem computeDestination_small :
    computeDestination smallTree "/tmp/f" (some "b/x") =
        .ok (expectedDestination smallTree ['f'] "b/x") ↔
      ParentTells smallTree "b/x".toList :=
  computeDestination_iff smallTree (some "b/x") (by decide)

/-- A mere name is refused, and a path that cannot be created is accepted. -/
theorem computeDestination_differs :
    computeDestination smallTree "/tmp/f" (some "x") = .ok none ∧
      expectedDestination smallTree ['f'] "x" = some "x" ∧
      computeDestination smallTree "/tmp/f" (some "b/a/.") = .ok (some "b/a/.") ∧
      expectedDestination smallTree ['f'] "b/a/." = none := by
  decide

end Hoposhell
