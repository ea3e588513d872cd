import Hoposhell.RemoteCall
import Mathlib.Data.List.Forall2

/-!
# Listing the files of a remote machine

A client that runs `ls` or `glob` shows the files that match on the machine of the shell, in the
order in which they are found there, each with its name, its kind, its times in whole seconds and
its size.  A file whose metadata cannot be read is left out.
-/

namespace Hoposhell

/-- A time in nanoseconds, in whole seconds; zero stands for a time that is not available. -/
def InSeconds (time : Option ℤ) (seconds : ℕ) : Prop :=
  match time with
  | none => seconds = 0
  | some time => (seconds : ℤ) * 1000000000 ≤ time ∧ time < ((seconds : ℤ) + 1) * 1000000000

/-- What a listing tells of a file under a name is what its metadata tells. -/
structure FileInfos.Describes (infos : FileInfos) (name : String) (metadata : FileMetadata) :
    Prop where
  isNamed : infos.name = name
  isFolder : infos.fileType = .folder ↔ metadata.isDir = true
  created : InSeconds metadata.created infos.creationTimestamp
  modified : InSeconds metadata.modified infos.modificationTimestamp
  size : infos.sizeInBytes = metadata.size

/-- The path and the metadata of an entry, if they can be had. -/
def readable : Option GlobEntry → Option (Bytes × FileMetadata)
  | some { path, metadata := some metadata } => some (path, metadata)
  | _ => none

def Listed (nameOf : Bytes → Except Panic String) (file : Bytes × FileMetadata)
    (infos : FileInfos) : Prop :=
  ∃ name, nameOf file.1 = .ok name ∧ infos.Describes name file.2

section Infos

variable {nameOf : Bytes → Except Panic String}

theorem inSeconds_of_timestamp {time : Option ℤ} {seconds : ℕ}
    (isTime : timestamp time = .ok seconds) : InSeconds time seconds := by
  cases time with
  | none =>
      cases isTime
      rfl
  | some time =>
      simp only [timestamp] at isTime
      split_ifs at isTime with afterEpoch
      cases isTime
      have whole := Int.toNat_of_nonneg (Int.ediv_nonneg afterEpoch (by decide : (0 : ℤ) ≤ 1000000000))
      simp only [InSeconds]
      omega

theorem describes_of_fromMetadata {metadata : FileMetadata} {name : String} {infos : FileInfos}
    (made : FileInfos.fromMetadata metadata name = .ok infos) : infos.Describes name metadata := by
  simp only [FileInfos.fromMetadata, bind, Except.bind] at made
  cases created : timestamp metadata.created with
  | error panic => simp [created] at made
  | ok creationTimestamp =>
      cases modified : timestamp metadata.modified with
      | error panic => simp [created, modified] at made
      | ok modificationTimestamp =>
          simp only [created, modified, Except.ok.injEq] at made
          subst made
          exact
            { isNamed := rfl
              isFolder := by cases metadata.isDir <;> simp
              created := inSeconds_of_timestamp created
              modified := inSeconds_of_timestamp modified
              size := rfl }

theorem listed_of_entryInfos {entry : Option GlobEntry} {found : Option FileInfos}
    (made : entryInfos nameOf entry = .ok found) :
    List.Forall₂ (Listed nameOf) (readable entry).toList found.toList := by
  rcases entry with _ | ⟨path, _ | metadata⟩
  · cases made
    exact .nil
  · cases made
    exact .nil
  · simp only [entryInfos, bind, Except.bind] at made
    cases named : nameOf path with
    | error panic => simp [named] at made
    | ok name =>
        cases described : FileInfos.fromMetadata metadata name with
        | error panic => simp [named, described] at made
        | ok infos =>
            simp only [named, described, Except.ok.injEq] at made
            subst made
            exact .cons ⟨name, named, describes_of_fromMetadata described⟩ .nil

/-- The files of a listing are those that can be read, in their order. -/
theorem listed_of_mapM {entries : List (Option GlobEntry)} {found : List (Option FileInfos)}
    (made : entries.mapM (entryInfos nameOf) = .ok found) :
    List.Forall₂ (Listed nameOf) (entries.filterMap readable) (found.filterMap id) := by
  induction entries generalizing found with
  | nil =>
      cases made
      exact .nil
  | cons entry entries ih =>
      rw [List.mapM_cons] at made
      cases here : entryInfos nameOf entry with
      | error panic => simp [here, bind, Except.bind] at made
      | ok first =>
          cases others : entries.mapM (entryInfos nameOf) with
          | error panic => simp [here, others, bind, Except.bind] at made
          | ok rest =>
              simp only [here, others, bind, Except.bind, pure, Except.pure,
                Except.ok.injEq] at made
              subst made
              have listed := List.rel_append (listed_of_entryInfos here) (ih others)
              cases entryReadable : readable entry <;> cases first <;>
                simpa [entryReadable] using listed

end Infos

/-- The JSON value of a listing. -/
def listingOf (files : List FileInfos) : Json.Value :=
  .object [("entries", .array (files.map FileInfos.json))]

/-- What is shown of a listing. -/
def shownListing (listing : ListingJson) (format : OutputFormat) (files : List FileInfos) :
    Bytes :=
  match format with
  | .json => line (listing.toStringPretty (files.map FileInfos.json))
  | _ => files.flatMap fun file => line file.show

/-- A listing is read back from its text by the client, and so are its files. -/
structure Client.ReadsListing {File : Type} (client : Client File) (files : List FileInfos) :
    Prop where
  text : client.json.fromStr (client.json.toString (listingOf files)) = some (listingOf files)
  infos : ∀ file ∈ files, client.listing.fileInfos file.json = some file

theorem Client.ReadsListing.printFileList {File : Type} {client : Client File}
    {files : List FileInfos} (reads : client.ReadsListing files) (format : OutputFormat) :
    printFileList client.json client.listing (asBytes (client.json.toString (listingOf files)))
        format =
      .ok { stdout := shownListing client.listing format files } := by
  have entries : (listingOf files).get "entries" = some (.array (files.map FileInfos.json)) := rfl
  have infos : (files.map FileInfos.json).filterMap client.listing.fileInfos = files := by
    rw [List.filterMap_map]
    exact (List.filterMap_congr reads.infos).trans List.filterMap_some
  cases format <;>
    simp only [Hoposhell.printFileList, fromUtf8_asBytes, Option.bind_some, reads.text, entries,
      Option.getD_some, Json.Value.asArray, unwrap, bind, Except.bind, infos, shownListing]

/-- A command that lists the files matching a pattern, each under a name made of its path. -/
inductive Command.Lists : Command → String → (Bytes → Except Panic String) → Prop
  | ls (folderPath : String) : Lists (.ls folderPath) folderPath fun path => unwrap (fromUtf8 path)
  | glob (globPattern : String) :
      Lists (.glob globPattern) globPattern fun path => .ok ((fromUtf8 path).getD "")

namespace Surroundings

/-- The files that match a pattern and can be read, in the order in which they are found. -/
def Finds (around : Surroundings) (nameOf : Bytes → Except Panic String) (pattern : String)
    (files : List FileInfos) : Prop :=
  ∃ entries, around.system.glob (around.system.tilde pattern) = .ok entries ∧
    List.Forall₂ (Listed nameOf) (entries.filterMap readable) files

/-- The pattern cannot be used on the machine. -/
def Refuses (around : Surroundings) (pattern : String) : Prop :=
  ∃ error, around.system.glob (around.system.tilde pattern) = .error error

variable {around : Surroundings} {command : Command} {pattern : String}
  {nameOf : Bytes → Except Panic String}

/-- What a listing command gives: the text of a listing, or an error. -/
theorem listed_of_run (lists : command.Lists pattern nameOf) {result : Except Bytes Bytes}
    (runs : command.run around = .ok result) :
    (∃ files, around.Finds nameOf pattern files ∧
        result = .ok (asBytes (around.json.toString (listingOf files)))) ∨
      around.Refuses pattern ∧ result.isOk = false := by
  have given : ∃ invalid, around.list invalid nameOf pattern = .ok result := by
    cases lists <;> exact ⟨_, runs⟩
  rcases given with ⟨invalid, given⟩
  simp only [list] at given
  cases globbed : around.system.glob (around.system.tilde pattern) with
  | error error =>
      simp only [globbed, Except.ok.injEq] at given
      subst given
      exact .inr ⟨⟨error, globbed⟩, rfl⟩
  | ok entries =>
      simp only [globbed] at given
      cases made : entries.mapM (entryInfos nameOf) with
      | error panic => simp [made, Except.map] at given
      | ok found =>
          simp only [made, Except.map, Except.ok.injEq] at given
          subst given
          exact .inl ⟨_, ⟨entries, globbed, listed_of_mapM made⟩, rfl⟩

end Surroundings

section Lists

variable {File : Type} {client : Client File} {config : ProcessConfig}
  {events : List ProcessEvent} {process : ConnectProcess} {machine : StdinEvent → Surroundings}

end Lists

/-- A file of three bytes, changed in the second second, with no time of creation. -/
def listedFile : FileInfos where
  name := "/x"
  fileType := .file
  creationTimestamp := 0
  modificationTimestamp := 1
  sizeInBytes := 3

def listedText : String :=
  "\x7b\"entries\":[\x7b\"creationTimestamp\":0,\"fileType\":\"file\",\"modificationTimestamp\":1," ++
    "\"name\":\"/x\",\"sizeInBytes\":3\x7d]\x7d"

/-- A codec that knows the text of a single listing. -/
def listingCodec : Json.Codec where
  fromStr text :=
    if text = listedText then some (listingOf [listedFile]) else Json.textCodec.fromStr text
  toString
    | .object [(_, .array _)] => listedText
    | value => Json.textCodec.toString value

/-- The entries of a listing are not a text. -/
theorem listedText_not_prefix (field : List Char × List Char) :
    ¬listedText.toList <+: Json.printObject field := by
  rintro ⟨rest, same⟩
  have read := Json.reads_printObject field []
  have begins : listedText.toList = [Json.openBrace] ++
      (Json.literal "entries".toList ++ ([':'] ++ ('[' :: listedText.toList.drop 12))) := by
    decide
  rw [List.append_nil, ← same, begins, Json.readObject] at read
  simp only [List.append_assoc] at read
  rw [TextReader.token_andThen, Json.reads_literal.andThen_eq, TextReader.token_andThen] at read
  cases read

theorem fromStr_of_ne {text : String} (other : text ≠ listedText) :
    listingCodec.fromStr text = Json.textCodec.fromStr text :=
  if_neg other

theorem listingCodec_lawful : listingCodec.Lawful where
  read_print name text := by
    have lawful := Json.textCodec_lawful.read_print name text
    have other : Json.textCodec.toString (.object [(name, .string text)]) ≠ listedText := by
      intro same
      apply listedText_not_prefix (name.toList, text.toList)
      rw [← same]
      simp [Json.textCodec]
    exact (fromStr_of_ne other).trans lawful
  incomplete name text part rest printed proper := by
    have lawful := Json.textCodec_lawful.incomplete name text part rest printed proper
    have other : part ≠ listedText := by
      rintro rfl
      apply listedText_not_prefix (name.toList, text.toList)
      have lists := congrArg String.toList printed
      refine ⟨rest.toList, ?_⟩
      simpa [listingCodec, Json.textCodec] using lists.symm
    exact (fromStr_of_ne other).trans lawful
  noNul rest := by
    have lawful := Json.textCodec_lawful.noNul rest
    have other : String.singleton (Char.ofNat 0) ++ rest ≠ listedText := by
      intro same
      have head : listedText.toList.head? = some (Char.ofNat 0) := by
        rw [← same, String.toList_append, String.toList_singleton]
        rfl
      exact absurd head (by decide)
    exact (fromStr_of_ne other).trans lawful

def listedMetadata : FileMetadata where
  isDir := false
  created := none
  modified := some 1500000000
  size := 3

/-- A machine with two files, the second of which cannot be read. -/
def listingMachine : Surroundings :=
  { refusing [] with
    system := refusingSystem
      [some { path := [47, 120], metadata := some listedMetadata },
        some { path := [47, 121], metadata := none }]
    bodies := jsonBodies
    json := listingCodec
    zstd := Zstd.block
    hoposhellFolder := "" }

def listingProcess : ProcessConfig :=
  { localProcess with json := listingCodec }

def listingClient : Client Unit :=
  { downloadClient with
    json := listingCodec
    zstd := Zstd.block
    listing := { fileInfos := fun _ => some listedFile, toStringPretty := fun _ => "[]" } }

def listingCommand : Command :=
  .ls "/*"

def listingContent : Bytes :=
  ((listingCommand.request jsonTexts "shell_a:abcdefgh" "shell_b").chunk.map
    (·.toMessagePayload)).flatten

def listingEvent : StdinEvent :=
  { echoEvent "ls" Zstd.block with
    message := { mtype := .command, content := some listingContent }
    handlers := listingMachine.handlers }

def listingAnswer : Response where
  cmd := "ls"
  messageId := "shell_a:abcdefgh"
  statusCode := .ok
  payload := Zstd.blockFrame (asBytes listedText)

def listingAnswerContent : Bytes :=
  (listingAnswer.chunk.map (·.toMessagePayload)).flatten

/-- The only chunk of the request is read, served and answered. -/
def listingRun : List ProcessEvent :=
  [.connect, .handle (.write (.ok 12)), .handle (.getSize (some (24, 80))),
    .handle (.write (.ok 24)), .handle (.lockHistory []),
    .handle (.read (.ok ((Frame.message .command listingContent).bytes Base64.standard))),
    .serve listingEvent, .respond listingAnswerContent,
    .handle (.recv (.msg
      { id := 0, message := { mtype := .command, content := some listingAnswerContent } })),
    .handle (.write (.ok 12))]

def listingArgs : Args :=
  homeArgs
    { command := .command, shellName := some "shell_a", extraArgs := ["shell_b", "ls", "/*"] } true

def listingCommandRun : CommandRun :=
  { downloadCommandRun with
    polls :=
      [{ checkedAt := 1, readAt := 1
         read := .ok ((Frame.message .command listingAnswerContent).bytes Base64.standard) }] }

theorem listingCommandRun_sends :
    listingCommandRun.Sends listingClient listingArgs "shell_b" "shell_a" listingCommand where
  words := ⟨"ls", ["/*"], rfl, .ls "/*" []⟩
  isId := rfl
  connects := rfl
  handshake _ := rfl
  writes _ := rfl

theorem exists_listingRun :
    ∃ process : ConnectProcess,
      process.Serves listingClient listingProcess listingRun (fun _ => listingMachine) ∧
      responsesPut (ConnectProcess.commandsOf process.shell.forwarded) = listingAnswer.chunk := by
  have settles : ∃ process,
      Transition.run (ConnectProcess.step listingProcess) .start listingRun = some process ∧
        process.Settled ∧
        responsesPut (ConnectProcess.commandsOf process.shell.forwarded) = listingAnswer.chunk :=
    ConnectProcess.exists_settled (by decide +kernel)
  rcases settles with ⟨process, reaches, settled, answers⟩
  have served : ∀ event ∈ listingRun.flatMap ProcessEvent.stdinEvents,
      event.ServedOn listingClient.zstd listingProcess listingClient.texts listingMachine := by
    intro event mem
    obtain rfl : event = listingEvent := by
      simpa [listingRun, ProcessEvent.stdinEvents] using mem
    exact ⟨rfl, rfl, rfl, rfl, jsonBodies_reads⟩
  exact ⟨process, ⟨reaches, settled, by decide +kernel, served, rfl⟩, answers⟩

/-- The listing of the machine is the one that the client can read. -/
theorem reads_of_finds {files : List FileInfos}
    (finds : listingMachine.Finds (fun path => unwrap (fromUtf8 path)) "/*" files) :
    listingClient.ReadsListing files := by
  rcases finds with ⟨entries, globbed, listed⟩
  cases globbed
  cases listed with
  | cons first rest =>
      cases rest
      rename_i infos
      rcases first with ⟨name, isNamed, describes⟩
      have only : infos = listedFile := by
        have path : unwrap (fromUtf8 [47, 120]) = .ok "/x" := by decide
        rcases infos with ⟨shown, fileType, creation, modification, size⟩
        have isFile : fileType = .file := by
          cases fileType with
          | file => rfl
          | folder => exact absurd (describes.isFolder.mp rfl) (by decide)
        have created := describes.created
        have modified := describes.modified
        simp only [InSeconds, listedMetadata] at created modified
        have seconds : modification = 1 := by omega
        rw [listedFile, FileInfos.mk.injEq]
        refine ⟨?_, isFile, created, seconds, describes.size⟩
        exact describes.isNamed.trans (Except.ok.inj (isNamed.symm.trans path))
      subst only
      exact ⟨rfl, by simp [listingClient]⟩

end Hoposhell
