import Hoposhell.CommandSafety
import Hoposhell.ProcessResponse
import Hoposhell.StdinLoop

/-!
# The arguments of the program

`parse_args` makes the configuration of a process out of its command line, its environment and
its working directory, and `main` decides by it what to run.  The shell that a process has
spawned finds the identity of the process in its environment, so that a process started below
the shell knows which shell it runs in.

Durations are in milliseconds.
-/

namespace Hoposhell

open PathText

inductive ArgsCommand where
  | connect
  | setup
  | version
  | command
  | populate
  | forwardTcp
deriving DecidableEq, Repr

/-- What a process is started with; a variable that is not Unicode cannot be read. -/
structure Environment where
  cmdArgs : List String
  var : String → Option String
  /-- The working directory, as a text. -/
  currentDir : Option String

structure Args where
  version : String
  alreadyConnected : Bool
  useSsl : Bool
  cmd : String
  autoReconnect : Bool
  serverUrl : String
  apiUrl : String
  keepAlive : ℕ
  readTimeout : ℕ
  readTimeoutSleep : ℕ
  serverCrtPath : Option String
  shellKeyPath : Option String
  verifyCrt : Bool
  command : ArgsCommand
  shellName : Option String
  hoposhellFolderPath : String
  defaultCols : ℕ
  defaultRows : ℕ
  workingDir : String
  verbose : Bool
  commandTimeout : ℕ
  extraArgs : List String
  format : OutputFormat
deriving DecidableEq, Repr

/-- `items[n]`. -/
def index {α : Type} (items : List α) (n : ℕ) : Except Panic α :=
  match items[n]? with
  | some item => .ok item
  | none => .error .slice

/-- `items[n..]`. -/
def sliceFrom {α : Type} (items : List α) (n : ℕ) : Except Panic (List α) :=
  if n ≤ items.length then .ok (items.drop n) else .error .slice

/-- `Path::join`, of texts. -/
def joinText (folder path : String) : String :=
  String.ofList (posix.join folder.toList path.toList)

/-- `parse::<u64>`. -/
def parseU64 (text : String) : Option ℕ :=
  match asBytes text with
  | [] => none
  | first :: rest =>
      let digits := if first = 43 then rest else first :: rest
      if digits = [] then none
      else (parseDigits 0 digits).filter (· < 18446744073709551616)

def parseDurationFromMsStr (timeMsStr : String) : Except Panic ℕ :=
  unwrap (parseU64 timeMsStr)

/-- No character but their own upper case letters becomes one of these in lower case. -/
def isYes (text : String) : Bool :=
  text.toLower ≠ "no" ∧ text.toLower ≠ "false" ∧ text.toLower ≠ "0"

def Environment.flag (env : Environment) (name : String) (default : Bool) : Bool :=
  match env.var name with
  | some text => isYes text
  | none => default

def Environment.duration (env : Environment) (name : String) (default : ℕ) : Except Panic ℕ :=
  match env.var name with
  | some text => parseDurationFromMsStr text
  | none => .ok default

/-- What the command line names: the command, the shell, and the arguments behind them. -/
structure CommandLine where
  command : ArgsCommand
  shellName : Option String
  extraArgs : List String
deriving DecidableEq, Repr

/-- The command line, read by a process whose environment may name the shell. -/
def parseCommandLine (cmdArgs : List String) (shellName : Option String) :
    Except Panic CommandLine :=
  match cmdArgs[1]? with
  | none => .ok { command := .connect, shellName, extraArgs := [] }
  | some name =>
      if name = "connect" then
        .ok { command := .connect, shellName := cmdArgs[2]?.orElse fun _ => shellName
              extraArgs := [] }
      else if name = "setup" then do
        let shellName ← index cmdArgs 2
        .ok { command := .setup, shellName := some shellName, extraArgs := [] }
      else if name = "command" then do
        let shellName ← match shellName with
          | some shellName => .ok shellName
          | none => index cmdArgs 2
        let extraArgs ← sliceFrom cmdArgs 2
        .ok { command := .command, shellName := some shellName, extraArgs }
      else if name = "version" then .ok { command := .version, shellName, extraArgs := [] }
      else if name = "populate" then .ok { command := .populate, shellName, extraArgs := [] }
      else if name = "forward-tcp" then do
        let shellName ← index cmdArgs 2
        let extraArgs ← sliceFrom cmdArgs 3
        .ok { command := .forwardTcp, shellName := some shellName, extraArgs }
      else .ok { command := .connect, shellName := some name, extraArgs := [] }

namespace Args

/-- The id of the shell: its name, or else the name of its key. -/
def getShellId (args : Args) : Option String :=
  match args.shellName with
  | some shellName => some shellName
  | none => do
      let shellKeyPath ← args.shellKeyPath
      let shellKeyStem ← posix.fileStem shellKeyPath.toList
      some (String.ofList shellKeyStem)

def consumeExtraArg (args : Args) (xa : String) : Bool × Args :=
  if xa ∈ args.extraArgs then (true, { args with extraArgs := args.extraArgs.erase xa })
  else (false, args)

end Args

/-- The key of a shell in the folder of the program. -/
def defaultKeyPath (hoposhellFolderPath shellName : String) : String :=
  hoposhellFolderPath ++ "/" ++ shellName ++ ".pem"

/-- The arguments before the options among the extra arguments are looked at. -/
def Environment.initialArgs (env : Environment) (version : String) : Except Panic Args := do
  let line ← parseCommandLine env.cmdArgs (env.var "HOPOSHELL_SHELL_ID")
  let hoposhellFolderName := (env.var "HOPOSHELL_HOME_NAME").getD ".hoposhell"
  let home ← unwrap (env.var "HOME")
  let hoposhellFolderPath := joinText home hoposhellFolderName
  let defaultCols ← unwrap (parseU16 ((env.var "COLS").getD "80"))
  let defaultRows ← unwrap (parseU16 ((env.var "ROWS").getD "24"))
  let workingDir ← unwrap env.currentDir
  .ok
    { version
      autoReconnect := false
      alreadyConnected := (env.var "HOPOSHELL_CONNECTED").isSome
      cmd := (env.var "SHELL").getD "bash"
      useSsl := true
      serverUrl := "api.hoposhell.com:10000"
      apiUrl := "https://api.hoposhell.com"
      keepAlive := 5000
      readTimeout := 0
      readTimeoutSleep := 0
      serverCrtPath := some (joinText hoposhellFolderPath "server.crt")
      shellKeyPath := line.shellName.map (defaultKeyPath hoposhellFolderPath)
      verifyCrt := true
      command := line.command
      shellName := line.shellName
      hoposhellFolderPath
      defaultCols
      defaultRows
      verbose := (env.var "VERBOSE").isSome
      commandTimeout := 60000
      extraArgs := line.extraArgs
      format := .text
      workingDir }

/-- The output format asked for among the extra arguments; the last option looked at counts. -/
def Args.consumeFormat (args : Args) : Args :=
  let (json, args) := args.consumeExtraArg "--json"
  let args := if json then { args with format := .json } else args
  let (raw, args) := args.consumeExtraArg "--raw"
  if raw then { args with format := .raw } else args

/-- The values of variables that replace those of the arguments. -/
def Environment.override (env : Environment) (args : Args) : Except Panic Args := do
  let keepAlive ← env.duration "KEEP_ALIVE" args.keepAlive
  let readTimeout ← env.duration "READ_TIMEOUT" args.readTimeout
  let readTimeoutSleep ← env.duration "READ_TIMEOUT_SLEEP" args.readTimeoutSleep
  let commandTimeout ← env.duration "COMMAND_TIMEOUT" args.commandTimeout
  .ok
    { args with
      autoReconnect := env.flag "RECONNECT" args.autoReconnect
      useSsl := env.flag "USE_SSL" args.useSsl
      serverUrl := (env.var "HOPOSHELL_URL").getD args.serverUrl
      apiUrl := (env.var "HOPOSHELL_API").getD args.apiUrl
      keepAlive
      readTimeout
      readTimeoutSleep
      serverCrtPath := (env.var "HOPOSHELL_SERVER_CRT").or args.serverCrtPath
      shellKeyPath := (env.var "HOPOSHELL_SHELL_KEY").or args.shellKeyPath
      verifyCrt := env.flag "VERIFY_CRT" args.verifyCrt
      commandTimeout
      workingDir := (env.var "HOPOSHELL_WORKING_FOLDER").getD args.workingDir }

def parseArgs (version : String) (env : Environment) : Except Panic Args := do
  let args ← env.initialArgs version
  env.override args.consumeFormat

/-- What `main` runs with its arguments, unless it exits at once. -/
def dispatch (version : String) (env : Environment) : Except Panic (Option Args) := do
  let args ← parseArgs version env
  if args.alreadyConnected ∧ args.command = .connect then .ok none else .ok (some args)

/-- The command line has the arguments that its command needs. -/
def CompleteLine (cmdArgs : List String) (shellName : Option String) : Prop :=
  cmdArgs.length = 2 → ∀ name ∈ cmdArgs[1]?,
    name ≠ "setup" ∧ name ≠ "forward-tcp" ∧ (name = "command" → shellName.isSome = true)

/-- What has to be there is there, and the numbers among the variables can be read. -/
structure Environment.Readable (env : Environment) : Prop where
  line : CompleteLine env.cmdArgs (env.var "HOPOSHELL_SHELL_ID")
  home : (env.var "HOME").isSome = true
  size : ∀ name ∈ ["COLS", "ROWS"], ∀ text ∈ env.var name, (parseU16 text).isSome = true
  currentDir : env.currentDir.isSome = true
  durations : ∀ name ∈ ["KEEP_ALIVE", "READ_TIMEOUT", "READ_TIMEOUT_SLEEP", "COMMAND_TIMEOUT"],
    ∀ text ∈ env.var name, (parseU64 text).isSome = true

section Returns

variable {env : Environment} {version : String}

theorem exists_of_bind_eq_ok {ε α β : Type} {result : Except ε α} {next : α → Except ε β}
    {value : β} (returns : (result >>= next) = .ok value) :
    ∃ first, result = .ok first ∧ next first = .ok value := by
  cases result with
  | error error => cases returns
  | ok first => exact ⟨first, rfl, returns⟩

theorem isOk_unwrap {α : Type} (value : Option α) : (unwrap value).isOk = value.isSome := by
  cases value <;> rfl

theorem isOk_index_iff {α : Type} {items : List α} {n : ℕ} :
    (index items n).isOk = true ↔ n < items.length := by
  rw [index]
  cases item : items[n]? with
  | none => simpa using item
  | some value =>
      have short := (List.getElem?_eq_some_iff.mp item).1
      simpa using short

theorem isOk_sliceFrom_iff {α : Type} {items : List α} {n : ℕ} :
    (sliceFrom items n).isOk = true ↔ n ≤ items.length := by
  rw [sliceFrom]
  split_ifs with within <;> simp [within]

theorem isOk_duration_iff {name : String} {default : ℕ} :
    (env.duration name default).isOk = true ↔
      ∀ text ∈ env.var name, (parseU64 text).isSome = true := by
  rw [Environment.duration]
  cases env.var name with
  | none => simp
  | some text => simp [parseDurationFromMsStr, isOk_unwrap]

theorem isOk_parseCommandLine_iff {cmdArgs : List String} {shellName : Option String} :
    (parseCommandLine cmdArgs shellName).isOk = true ↔ CompleteLine cmdArgs shellName := by
  rw [parseCommandLine, CompleteLine]
  cases named : cmdArgs[1]? with
  | none => simp
  | some name =>
      have least : 1 < cmdArgs.length := (List.getElem?_eq_some_iff.mp named).1
      have behind : cmdArgs.length = 2 ↔ ¬2 < cmdArgs.length := by omega
      simp only [Option.mem_some_iff, forall_eq', behind]
      by_cases connect : name = "connect"
      · simp [connect]
      by_cases setup : name = "setup"
      · simp [setup, isOk_bind_iff, ← isOk_iff, isOk_index_iff]
      by_cases command : name = "command"
      · have rest : (sliceFrom cmdArgs 2).isOk = true := isOk_sliceFrom_iff.mpr least
        cases shellName with
        | none => simp [command, isOk_bind_iff, ← isOk_iff, isOk_index_iff, rest]
        | some shellName => simp [command, isOk_bind_iff, ← isOk_iff, rest]
      by_cases version : name = "version"
      · simp [version]
      by_cases populate : name = "populate"
      · simp [populate]
      by_cases forwardTcp : name = "forward-tcp"
      · have rest : (sliceFrom cmdArgs 3).isOk = true ↔ 2 < cmdArgs.length := isOk_sliceFrom_iff
        simp [forwardTcp, isOk_bind_iff, ← isOk_iff, isOk_index_iff, rest]
      · simp [connect, setup, command, version, populate, forwardTcp]

theorem isOk_initialArgs_iff :
    (env.initialArgs version).isOk = true ↔
      CompleteLine env.cmdArgs (env.var "HOPOSHELL_SHELL_ID") ∧ (env.var "HOME").isSome = true ∧
        (parseU16 ((env.var "COLS").getD "80")).isSome = true ∧
        (parseU16 ((env.var "ROWS").getD "24")).isSome = true ∧ env.currentDir.isSome = true := by
  simp only [Environment.initialArgs, isOk_bind_iff, isOk_ok, and_true, exists_and_right,
    ← isOk_iff, isOk_parseCommandLine_iff, isOk_unwrap]

/-- A variable with a number, or the number that stands for it, can be read. -/
theorem isSome_parseU16_getD {name default : String} (read : (parseU16 default).isSome = true) :
    (parseU16 ((env.var name).getD default)).isSome = true ↔
      ∀ text ∈ env.var name, (parseU16 text).isSome = true := by
  cases env.var name with
  | none => simpa using read
  | some text => simp

theorem isOk_override_iff {args : Args} :
    (env.override args).isOk = true ↔
      ∀ name ∈ ["KEEP_ALIVE", "READ_TIMEOUT", "READ_TIMEOUT_SLEEP", "COMMAND_TIMEOUT"],
        ∀ text ∈ env.var name, (parseU64 text).isSome = true := by
  simp only [Environment.override, isOk_bind_iff, isOk_ok, and_true, exists_and_right, ← isOk_iff,
    isOk_duration_iff, List.forall_mem_cons]
  simp

/--
A process goes on with its arguments exactly when its command line is complete, it has a home
and a working directory, and every number among its variables can be read.
-/
theorem parseArgs_returns_iff : (parseArgs version env).isOk = true ↔ env.Readable := by
  have format : (parseArgs version env).isOk = true ↔
      (∃ args, env.initialArgs version = .ok args) ∧
        ∀ name ∈ ["KEEP_ALIVE", "READ_TIMEOUT", "READ_TIMEOUT_SLEEP", "COMMAND_TIMEOUT"],
          ∀ text ∈ env.var name, (parseU64 text).isSome = true := by
    simp only [parseArgs, isOk_bind_iff, isOk_override_iff, exists_and_right]
  rw [format, ← isOk_iff, isOk_initialArgs_iff, isSome_parseU16_getD (by decide),
    isSome_parseU16_getD (by decide)]
  constructor
  · rintro ⟨⟨line, home, cols, rows, currentDir⟩, durations⟩
    exact ⟨line, home, by simpa using ⟨cols, rows⟩, currentDir, durations⟩
  · intro readable
    have sizes := readable.size
    simp only [List.forall_mem_cons] at sizes
    exact ⟨⟨readable.line, readable.home, sizes.1, sizes.2.1, readable.currentDir⟩,
      readable.durations⟩

end Returns

end Hoposhell
