import Hoposhell.CommandSafety
import Hoposhell.Library.PathText

/-!
# Which programs a request can run

The name of a script is chosen by the remote party.  It is never made part of a path: it is
compared with the names of the entries of the scripts folder, and the program is the entry
that has it.  This file runs `process_scripts_command` with the programs given to `output`, and
takes the name of an entry from its path, as the source does.
-/

namespace Hoposhell

open PathText

/-- Paths given by their bytes. -/
def bytePath : Symbols UInt8 where
  sep := 47
  dot := 46
  sep_ne_dot := by decide

/-- The name of a direct child of a folder. -/
structure IsComponent (name : Bytes) : Prop where
  nonempty : name ≠ []
  free : 47 ∉ name
  notHere : name ≠ [46]
  notUp : name ≠ [46, 46]

/-- `find_file_in_folder`, which asks the path of an entry for its file name. -/
def findFileByPath (system : System) (folderPath : Bytes) (targetFileName : String) :
    Option Bytes := do
  let names ← system.readDir folderPath
  names.findSome? fun entry => do
    let name ← entry
    let filePath := joinPath folderPath name
    let fileName ← bytePath.fileName filePath
    let fileName ← fromUtf8 fileName
    if fileName = targetFileName then some filePath else none

/-- `process_scripts_command`, with the programs that it has given to `output`. -/
def runScripts (system : System) (bodies : RequestBodies) (json : Json.Codec) (payload : Bytes)
    (hoposhellFolder : String) : Except Panic (List Bytes × Except Bytes Bytes) :=
  match maybeString (some payload) with
  | none => .ok ([], .error (makeErrorBytesWithPrefix json [0, 0, 0, 1] "No text payload provided"))
  | some textPayload =>
      match bodies.scripts textPayload with
      | .error error =>
          .ok ([], .error (makeErrorBytesWithPrefix json [0, 0, 0, 1]
            ("Invalid json payload: " ++ error)))
      | .ok requestInfos =>
          let scriptFolderPath := joinPath (asBytes hoposhellFolder) (asBytes "scripts")
          match findFileByPath system scriptFolderPath requestInfos.name with
          | none =>
              .ok ([], .error (makeErrorBytesWithPrefix json [0, 0, 0, 1]
                ("Unable to find a script with name: " ++ requestInfos.name)))
          | some scriptPath => do
              let _ ← unwrap (fromUtf8 scriptPath)
              match system.output scriptPath with
              | .error error =>
                  .ok ([scriptPath], .error (makeErrorBytesWithPrefix json [0, 0, 0, 1]
                    ("Error while executing script: " ++ error)))
              | .ok output =>
                  let code := output.code.getD (if output.success then 0 else 1)
                  .ok ([scriptPath], .ok (toNeBytes code ++ output.stdout))

def scriptsFolder (hoposhellFolder : String) : Bytes :=
  joinPath (asBytes hoposhellFolder) (asBytes "scripts")

/-- `read_dir` yields direct children only. -/
def ListsChildren (system : System) (folder : Bytes) : Prop :=
  ∀ names, system.readDir folder = some names → ∀ name, some name ∈ names → IsComponent name

/-- The payload decodes to the name of a readable entry of the folder. -/
def Requests (system : System) (bodies : RequestBodies) (payload folder name : Bytes) : Prop :=
  ∃ text body names, fromUtf8 payload = some text ∧ bodies.scripts text = .ok body ∧
    system.readDir folder = some names ∧ some name ∈ names ∧ fromUtf8 name = some body.name

/-- What has been given to `output` for a payload, and what is returned. -/
structure Confined (system : System) (bodies : RequestBodies) (payload folder : Bytes)
    (executed : List Bytes) (result : Except Bytes Bytes) : Prop where
  executed_iff : ∀ path, path ∈ executed ↔
    ∃ name, Requests system bodies payload folder name ∧ path = joinPath folder name
  once : executed.length ≤ 1
  refused : (¬∃ name, Requests system bodies payload folder name) →
    executed = [] ∧ ∃ error, result = .error error
  /-- A name that is no component selects nothing. -/
  outside : ∀ text body, fromUtf8 payload = some text → bodies.scripts text = .ok body →
    ¬IsComponent (asBytes body.name) → executed = [] ∧ ∃ error, result = .error error
  direct : ∀ path ∈ executed, ∃ name, IsComponent name ∧ path = joinPath folder name ∧
    bytePath.components path = bytePath.components folder ++ [name]

section Path

variable {folder name : Bytes}

theorem IsComponent.isTrivial_eq (isComponent : IsComponent name) :
    bytePath.isTrivial name = false := by
  simp [Symbols.isTrivial, bytePath, isComponent.nonempty, isComponent.notHere]

/-- A child has one component more than its folder. -/
theorem components_joinPath (isComponent : IsComponent name) :
    bytePath.components (joinPath folder name) = bytePath.components folder ++ [name] := by
  have ofName : bytePath.components name = [name] := by
    rw [Symbols.components_of_free isComponent.free, isComponent.isTrivial_eq]
    rfl
  have ofSep : ∀ front : Bytes, bytePath.components (front ++ 47 :: name) =
      bytePath.components front ++ [name] := by
    intro front
    rw [← ofName]
    exact Symbols.components_append_sep front name
  rw [joinPath]
  split
  · rename_i ends
    rcases ends with rfl | endsInSep
    · simpa using ofName
    · rcases List.getLast?_eq_some_iff.mp endsInSep with ⟨front, rfl⟩
      have ofFolder : bytePath.components (front ++ 47 :: []) =
          bytePath.components front ++ bytePath.components [] :=
        Symbols.components_append_sep front []
      rw [ofFolder, Symbols.components_nil, List.append_nil, List.append_assoc]
      exact ofSep front
  · rw [List.append_assoc]
    exact ofSep folder

theorem fileName_joinPath (isComponent : IsComponent name) :
    bytePath.fileName (joinPath folder name) = some name := by
  rw [Symbols.fileName, Symbols.getLast?_parts, components_joinPath isComponent]
  have notUp : name ≠ [bytePath.dot, bytePath.dot] := isComponent.notUp
  simp [notUp, Option.filter]

end Path

section Run

variable {system : System} {bodies : RequestBodies} {json : Json.Codec} {payload : Bytes}
  {hoposhellFolder : String} {folder : Bytes}

/-- An entry has the name of its path, so that the name may be asked for instead. -/
theorem findFileByPath_eq (children : ListsChildren system folder) (targetFileName : String) :
    findFileByPath system folder targetFileName = findFileInFolder system folder targetFileName := by
  cases listing : system.readDir folder with
  | none => simp [findFileByPath, findFileInFolder, listing]
  | some names =>
      have single := children names listing
      simp only [findFileByPath, findFileInFolder, listing, Option.bind_eq_bind, Option.bind_some]
      clear listing
      induction names with
      | nil => rfl
      | cons entry names ih =>
          have rest := ih fun name mem => single name (List.mem_cons_of_mem entry mem)
          cases entry with
          | none => simpa using rest
          | some name =>
              have fileName := @fileName_joinPath folder name (single name List.mem_cons_self)
              rw [List.findSome?_cons, List.findSome?_cons]
              by_cases found : fromUtf8 name = some targetFileName
              · simp [fileName, found]
              · cases decoded : fromUtf8 name with
                | none => simpa [fileName, decoded] using rest
                | some text =>
                    have other : text ≠ targetFileName := by
                      rintro rfl
                      exact found decoded
                    simpa [fileName, decoded, other] using rest

/-- The result is that of the command, whatever else is told. -/
theorem runScripts_eq (children : ListsChildren system (scriptsFolder hoposhellFolder)) :
    (runScripts system bodies json payload hoposhellFolder).map Prod.snd =
      processScriptsCommand system bodies json payload hoposhellFolder := by
  rw [runScripts, processScriptsCommand]
  cases maybeString (some payload) with
  | none => rfl
  | some text =>
      cases read : bodies.scripts text with
      | error error => simp only [read]; rfl
      | ok requestInfos =>
          have sameFile := findFileByPath_eq children requestInfos.name
          rw [scriptsFolder] at sameFile
          simp only [read, sameFile]
          cases findFileInFolder system (joinPath (asBytes hoposhellFolder) (asBytes "scripts"))
              requestInfos.name with
          | none => rfl
          | some scriptPath =>
              cases printed : fromUtf8 scriptPath with
              | none => simp only [printed, unwrap, bind, Except.bind, Except.map]
              | some path =>
                  simp only [printed, unwrap, bind, Except.bind]
                  cases system.output scriptPath <;> rfl

theorem fromUtf8_eq_some_iff {bytes : Bytes} {text : String} :
    fromUtf8 bytes = some text ↔ bytes = asBytes text := by
  constructor
  · intro decoded
    exact (asBytes_eq_of_fromUtf8 decoded).symm
  · rintro rfl
    exact fromUtf8_asBytes text

/-- The search finds the entry of this name, and nothing else. -/
theorem findFileInFolder_eq_some_iff {targetFileName : String} {path : Bytes} :
    findFileInFolder system folder targetFileName = some path ↔
      path = joinPath folder (asBytes targetFileName) ∧
        ∃ names, system.readDir folder = some names ∧ some (asBytes targetFileName) ∈ names := by
  cases listing : system.readDir folder with
  | none => simp [findFileInFolder, listing]
  | some names =>
      simp only [findFileInFolder, listing, Option.bind_eq_bind, Option.bind_some,
        Option.bind_eq_some_iff, Option.some.injEq, exists_eq_left']
      clear listing
      induction names with
      | nil => simp
      | cons entry names ih =>
          cases entry with
          | none => simpa using ih
          | some name =>
              by_cases found : fromUtf8 name = some targetFileName
              · obtain rfl := fromUtf8_eq_some_iff.mp found
                simp [eq_comm]
              · have other : name ≠ asBytes targetFileName := by
                  rintro rfl
                  exact found (fromUtf8_asBytes targetFileName)
                simpa [found, Ne.symm other] using ih

theorem Requests.eq_asBytes {name : Bytes} (requests : Requests system bodies payload folder name)
    {text : String} {body : ScriptsCommandRequestBody} (decoded : fromUtf8 payload = some text)
    (read : bodies.scripts text = .ok body) : name = asBytes body.name := by
  rcases requests with ⟨text', body', names, decoded', read', _, _, isName⟩
  obtain rfl : text = text' := Option.some.inj (decoded.symm.trans decoded')
  obtain rfl : body = body' := Except.ok.inj (read.symm.trans read')
  exact fromUtf8_eq_some_iff.mp isName

theorem Requests.isComponent {name : Bytes} (children : ListsChildren system folder)
    (requests : Requests system bodies payload folder name) : IsComponent name := by
  rcases requests with ⟨text, body, names, _, _, listing, mem, _⟩
  exact children names listing name mem

theorem confined_of_not_requests (none : ¬∃ name, Requests system bodies payload folder name)
    (error : Bytes) : Confined system bodies payload folder [] (.error error) where
  executed_iff path := by
    constructor
    · intro mem
      cases mem
    · rintro ⟨name, requests, _⟩
      exact absurd ⟨name, requests⟩ none
  once := by simp
  refused _ := ⟨rfl, error, rfl⟩
  outside _ _ _ _ _ := ⟨rfl, error, rfl⟩
  direct path mem := by cases mem

theorem confined_of_requests (children : ListsChildren system folder) {name : Bytes}
    (requests : Requests system bodies payload folder name) (result : Except Bytes Bytes) :
    Confined system bodies payload folder [joinPath folder name] result where
  executed_iff path := by
    rw [List.mem_singleton]
    constructor
    · rintro rfl
      exact ⟨name, requests, rfl⟩
    · rintro ⟨other, otherRequests, rfl⟩
      rcases requests with ⟨text, body, names, decoded, read, _, _, isName⟩
      rw [otherRequests.eq_asBytes decoded read, fromUtf8_eq_some_iff.mp isName]
  once := by simp
  refused none := absurd ⟨name, requests⟩ none
  outside text body decoded read notComponent := by
    have isComponent := requests.isComponent children
    rw [requests.eq_asBytes decoded read] at isComponent
    exact absurd isComponent notComponent
  direct path mem := by
    obtain rfl := List.mem_singleton.mp mem
    have isComponent := requests.isComponent children
    exact ⟨name, isComponent, rfl, components_joinPath isComponent⟩

end Run

/--
A program is run exactly if the payload decodes to the name of a readable entry of the
scripts folder, it is that entry, and otherwise the answer is an error.
-/
theorem runScripts_confined {system : System} (bodies : RequestBodies) (json : Json.Codec)
    (payload : Bytes) {hoposhellFolder : String}
    (children : ListsChildren system (scriptsFolder hoposhellFolder)) :
    ∃ executed result,
      runScripts system bodies json payload hoposhellFolder = .ok (executed, result) ∧
        processScriptsCommand system bodies json payload hoposhellFolder = .ok result ∧
        Confined system bodies payload (scriptsFolder hoposhellFolder) executed result := by
  have started : ∃ executed result,
      runScripts system bodies json payload hoposhellFolder = .ok (executed, result) ∧
        Confined system bodies payload (scriptsFolder hoposhellFolder) executed result := by
    rw [runScripts, maybeString, Option.bind_some]
    cases decoded : fromUtf8 payload with
    | none =>
        refine ⟨[], _, rfl, confined_of_not_requests ?_ _⟩
        rintro ⟨name, text, body, names, decoded', _⟩
        simp [decoded] at decoded'
    | some text =>
        cases read : bodies.scripts text with
        | error error =>
            refine ⟨[], _, by simp only [read]; rfl, confined_of_not_requests ?_ _⟩
            rintro ⟨name, text', body, names, decoded', read', _⟩
            obtain rfl : text = text' := Option.some.inj (decoded.symm.trans decoded')
            simp [read] at read'
        | ok body =>
            have sameFile := findFileByPath_eq children body.name
            simp only [read]
            rw [← scriptsFolder, sameFile]
            cases found : findFileInFolder system (scriptsFolder hoposhellFolder) body.name with
            | none =>
                refine ⟨[], _, rfl, confined_of_not_requests ?_ _⟩
                rintro ⟨name, requests⟩
                have isName := requests.eq_asBytes decoded read
                rcases requests with ⟨_, _, names, _, _, listing, mem, _⟩
                rw [isName] at mem
                have finds := findFileInFolder_eq_some_iff.mpr ⟨rfl, names, listing, mem⟩
                rw [found] at finds
                cases finds
            | some scriptPath =>
                rcases findFileInFolder_eq_some_iff.mp found with ⟨rfl, names, listing, mem⟩
                have requests : Requests system bodies payload (scriptsFolder hoposhellFolder)
                    (asBytes body.name) :=
                  ⟨text, body, names, decoded, read, listing, mem, fromUtf8_asBytes _⟩
                have folderValid : (fromUtf8 (scriptsFolder hoposhellFolder)).isSome = true := by
                  apply fromUtf8_joinPath <;> simp
                have valid := fromUtf8_findFileInFolder folderValid found
                rcases Option.isSome_iff_exists.mp valid with ⟨path, printed⟩
                have confined := confined_of_requests children requests
                cases ran : system.output (joinPath (scriptsFolder hoposhellFolder)
                    (asBytes body.name)) with
                | error error =>
                    exact ⟨_, _, by simp [printed, unwrap, bind, Except.bind, ran]; rfl, confined _⟩
                | ok output =>
                    exact ⟨_, _, by simp [printed, unwrap, bind, Except.bind, ran]; rfl, confined _⟩
  rcases started with ⟨executed, result, runs, confined⟩
  refine ⟨executed, result, runs, ?_, confined⟩
  rw [← runScripts_eq children, runs]
  rfl

/-- A scripts folder with an unreadable entry, a name that is not UTF-8, and `backup`. -/
def backupSystem : System :=
  { refusingSystem [] with
    readDir := fun _ => some [none, some [255], some (asBytes "backup")]
    output := fun _ => .ok { stdout := asBytes "done", code := some 0, success := true } }

/-- A reader of the requests for two names. -/
def scriptBodies : RequestBodies :=
  { tcpBodies with
    scripts := fun text =>
      if text = "\x7b\"name\":\"backup\"\x7d" then .ok { name := "backup" }
      else if text = "\x7b\"name\":\"../backup\"\x7d" then .ok { name := "../backup" }
      else .error "expected value at line 1 column 1" }

theorem listsChildren_backupSystem (folder : Bytes) : ListsChildren backupSystem folder := by
  intro names listing name mem
  cases listing
  simp only [List.mem_cons, List.not_mem_nil, reduceCtorEq, Option.some.injEq, false_or,
    or_false] at mem
  rcases mem with rfl | rfl
  · exact ⟨by decide, by decide, by decide, by decide⟩
  · exact ⟨by decide, by decide, by decide, by decide⟩

theorem runScripts_confined_backup :
    ∃ executed result,
      runScripts backupSystem scriptBodies Json.nullCodec (asBytes "\x7b\"name\":\"backup\"\x7d")
          "/home/a/.hoposhell" = .ok (executed, result) ∧
        processScriptsCommand backupSystem scriptBodies Json.nullCodec
            (asBytes "\x7b\"name\":\"backup\"\x7d") "/home/a/.hoposhell" = .ok result ∧
        Confined backupSystem scriptBodies (asBytes "\x7b\"name\":\"backup\"\x7d")
          (scriptsFolder "/home/a/.hoposhell") executed result :=
  runScripts_confined scriptBodies Json.nullCodec (asBytes "\x7b\"name\":\"backup\"\x7d")
    (listsChildren_backupSystem _)

/-- A name that leads out of the folder runs nothing. -/
example :
    (runScripts backupSystem scriptBodies Json.nullCodec (asBytes "\x7b\"name\":\"../backup\"\x7d")
      "/home/a/.hoposhell").map Prod.fst = .ok [] := by
  decide +kernel

end Hoposhell
