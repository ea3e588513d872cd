import Hoposhell.Args
import Mathlib.Logic.Relation

/-!
# The identity of a shell

A shell is known by its id, which is the name it is given or else the name of its key.
`main_connect` picks the key when no shell is named, and `run_shell` tells the shell it spawns
the id and that it is connected.  The processes below the shell run their commands under this
id, with the key of the shell, and do not connect again.
-/

namespace Hoposhell

open PathText

/-- The variables of the shell that `run_shell` spawns. -/
def Args.shellVar (args : Args) (var : String → Option String) (name : String) : Option String :=
  if name = "PATH" then
    some ((var "PATH").getD "" ++ ":" ++ args.hoposhellFolderPath ++ "/" ++ "bin")
  else if name = "HOPOSHELL_SHELL_ID" then args.getShellId.or (var name)
  else if name = "HOPOSHELL_CONNECTED" then some "1"
  else var name

/-- The pattern `shell_.*\.pem`, anywhere in a path; the dot is not the end of a line. -/
def shellPemRegex (path : String) : Bool :=
  path.toList.tails.any fun rest =>
    "shell_".toList.isPrefixOf rest &&
      ((rest.drop 6).takeWhile (· ≠ '\n')).tails.any fun rest => ".pem".toList.isPrefixOf rest

/-- The paths of the entries of a folder that the pattern matches. -/
def listFilesInFolder (readDir : Bytes → Option (List (Option Bytes))) (path : String)
    (filePattern : String → Bool) : Except Panic (List String) := do
  let paths ← unwrap (readDir (asBytes path))
  let files ← paths.mapM fun name => do
    let name ← unwrap name
    unwrap (fromUtf8 (joinPath (asBytes path) name))
  .ok (files.filter filePattern)

def Args.withShellKey (args : Args) (file : String) : Args :=
  { args with shellKeyPath := some file }

/-- The only key in the folder, when no key is given. -/
def Args.pickShellKey (readDir : Bytes → Option (List (Option Bytes))) (args : Args) :
    Except Panic Args :=
  match args.shellKeyPath with
  | some _ => .ok args
  | none => do
      let allFiles ← listFilesInFolder readDir args.hoposhellFolderPath shellPemRegex
      match allFiles with
      | [file] => .ok (args.withShellKey file)
      | _ => .ok args

section ParseArgs

variable {version : String} {env : Environment} {args : Args}

/-- Options change the extra arguments and the format alone. -/
theorem consumeFormat_eq (args : Args) :
    ∃ extraArgs format, args.consumeFormat = { args with extraArgs, format } := by
  simp only [Args.consumeFormat, Args.consumeExtraArg]
  split_ifs <;> exact ⟨_, _, rfl⟩

/-- What the arguments tell of the process and its shell. -/
structure Environment.Identifies (env : Environment) (version : String) (line : CommandLine)
    (args : Args) : Prop where
  version : args.version = version
  command : args.command = line.command
  shellName : args.shellName = line.shellName
  alreadyConnected : args.alreadyConnected = (env.var "HOPOSHELL_CONNECTED").isSome
  shellKeyPath : args.shellKeyPath = (env.var "HOPOSHELL_SHELL_KEY").or
    (line.shellName.map (defaultKeyPath args.hoposhellFolderPath))

theorem identifies_of_parseArgs (parsed : parseArgs version env = .ok args) :
    ∃ line, parseCommandLine env.cmdArgs (env.var "HOPOSHELL_SHELL_ID") = .ok line ∧
      env.Identifies version line args := by
  rcases exists_of_bind_eq_ok parsed with ⟨initial, made, overridden⟩
  rcases exists_of_bind_eq_ok made with ⟨line, read, made⟩
  refine ⟨line, read, ?_⟩
  rcases exists_of_bind_eq_ok made with ⟨home, _, made⟩
  rcases exists_of_bind_eq_ok made with ⟨defaultCols, _, made⟩
  rcases exists_of_bind_eq_ok made with ⟨defaultRows, _, made⟩
  rcases exists_of_bind_eq_ok made with ⟨workingDir, _, made⟩
  rcases exists_of_bind_eq_ok overridden with ⟨keepAlive, _, overridden⟩
  rcases exists_of_bind_eq_ok overridden with ⟨readTimeout, _, overridden⟩
  rcases exists_of_bind_eq_ok overridden with ⟨readTimeoutSleep, _, overridden⟩
  rcases exists_of_bind_eq_ok overridden with ⟨commandTimeout, _, overridden⟩
  cases made
  cases overridden
  rcases consumeFormat_eq _ with ⟨extraArgs, format, consumed⟩
  rw [consumed]
  constructor <;> rfl

end ParseArgs

/-- The variables that tell a process which shell it runs in. -/
def identityVars : List String :=
  ["HOPOSHELL_SHELL_ID", "HOPOSHELL_CONNECTED"]

/--
A process starts another one: any program that does not change the variables that tell the
shell, or a process that connects, whose shell starts the other one.
-/
inductive Starts (version : String) (readDir : Bytes → Option (List (Option Bytes))) :
    Environment → Environment → Prop where
  | program {parent child : Environment}
      (keeps : ∀ name ∈ identityVars, child.var name = parent.var name) :
      Starts version readDir parent child
  | shell {parent child : Environment} {args picked : Args}
      (connects : dispatch version parent = .ok (some args)) (isConnect : args.command = .connect)
      (picks : args.pickShellKey readDir = .ok picked)
      (keeps : ∀ name ∈ identityVars, child.var name = picked.shellVar parent.var name) :
      Starts version readDir parent child

section Below

variable {version : String} {readDir : Bytes → Option (List (Option Bytes))}
  {parent child env : Environment} {args picked started : Args} {id : String}

theorem parseArgs_of_dispatch (dispatched : dispatch version env = .ok (some args)) :
    parseArgs version env = .ok args ∧ ¬(args.alreadyConnected = true ∧ args.command = .connect) := by
  rcases exists_of_bind_eq_ok dispatched with ⟨parsed, read, runs⟩
  split_ifs at runs with nested
  · cases runs
  · obtain rfl : parsed = args := by simpa using runs
    exact ⟨read, nested⟩

/-- A process that runs in a shell never connects. -/
theorem command_ne_connect (connected : (env.var "HOPOSHELL_CONNECTED").isSome = true)
    (dispatched : dispatch version env = .ok (some started)) : started.command ≠ .connect := by
  rcases parseArgs_of_dispatch dispatched with ⟨parsed, notNested⟩
  rcases identifies_of_parseArgs parsed with ⟨line, _, identifies⟩
  intro isConnect
  exact notNested ⟨identifies.alreadyConnected.trans connected, isConnect⟩

/-- All processes below a shell have its variables, as none of them connects. -/
theorem var_of_descends (connected : (parent.var "HOPOSHELL_CONNECTED").isSome = true)
    (descends : Relation.ReflTransGen (Starts version readDir) parent env) :
    ∀ name ∈ identityVars, env.var name = parent.var name := by
  induction descends with
  | refl => exact fun _ _ => rfl
  | tail _ starts ih =>
      intro name mem
      have here := ih "HOPOSHELL_CONNECTED" (by simp [identityVars])
      cases starts with
      | program keeps => rw [keeps name mem, ih name mem]
      | shell connects isConnect =>
          exact absurd isConnect (command_ne_connect (by rw [here, connected]) connects)

/-- Only `connect`, `setup` and `forward-tcp` name a shell when the environment does. -/
theorem shellName_of_parseCommandLine {cmdArgs : List String} {line : CommandLine}
    (read : parseCommandLine cmdArgs (some id) = .ok line) :
    line.shellName = some id ∨
      line.command = .connect ∨ line.command = .setup ∨ line.command = .forwardTcp := by
  rw [parseCommandLine] at read
  split at read
  · cases read
    exact .inl rfl
  · rename_i name _
    by_cases connect : name = "connect"
    · rw [if_pos connect] at read
      cases read
      exact .inr (.inl rfl)
    rw [if_neg connect] at read
    by_cases setup : name = "setup"
    · rw [if_pos setup] at read
      rcases exists_of_bind_eq_ok read with ⟨shellName, _, read⟩
      cases read
      exact .inr (.inr (.inl rfl))
    rw [if_neg setup] at read
    by_cases command : name = "command"
    · rw [if_pos command] at read
      rcases exists_of_bind_eq_ok read with ⟨shellName, isNamed, read⟩
      rcases exists_of_bind_eq_ok read with ⟨extraArgs, _, read⟩
      cases isNamed
      cases read
      exact .inl rfl
    rw [if_neg command] at read
    by_cases version : name = "version"
    · rw [if_pos version] at read
      cases read
      exact .inl rfl
    rw [if_neg version] at read
    by_cases populate : name = "populate"
    · rw [if_pos populate] at read
      cases read
      exact .inl rfl
    rw [if_neg populate] at read
    by_cases forwardTcp : name = "forward-tcp"
    · rw [if_pos forwardTcp] at read
      rcases exists_of_bind_eq_ok read with ⟨shellName, _, read⟩
      rcases exists_of_bind_eq_ok read with ⟨extraArgs, _, read⟩
      cases read
      exact .inr (.inr (.inr rfl))
    · rw [if_neg forwardTcp] at read
      cases read
      exact .inr (.inl rfl)

/-- A process that names no shell itself goes by the id and the key of its environment. -/
theorem shellName_of_parseArgs (named : env.var "HOPOSHELL_SHELL_ID" = some id)
    (parsed : parseArgs version env = .ok started) (unnamed : started.command ≠ .connect ∧
      started.command ≠ .setup ∧ started.command ≠ .forwardTcp) :
    started.shellName = some id ∧
      started.shellKeyPath = (env.var "HOPOSHELL_SHELL_KEY").or
        (some (defaultKeyPath started.hoposhellFolderPath id)) := by
  rcases identifies_of_parseArgs parsed with ⟨line, read, identifies⟩
  rw [identifies.command] at unnamed
  rw [named] at read
  have lineName : line.shellName = some id := by
    rcases shellName_of_parseCommandLine read with same | connect | setup | forwardTcp
    · exact same
    · exact absurd connect unnamed.1
    · exact absurd setup unnamed.2.1
    · exact absurd forwardTcp unnamed.2.2
  rw [identifies.shellName, identifies.shellKeyPath, lineName]
  exact ⟨rfl, rfl⟩

/-- The key of a shell has the name of the shell. -/
theorem getShellId_of_key {hoposhellFolderPath : String} (nonempty : id ≠ "")
    (free : '/' ∉ id.toList) (unnamed : args.shellName = none)
    (key : args.shellKeyPath = some (defaultKeyPath hoposhellFolderPath id)) :
    args.getShellId = some id := by
  have shape : (defaultKeyPath hoposhellFolderPath id).toList =
      hoposhellFolderPath.toList ++ '/' :: (id.toList ++ '.' :: "pem".toList) := by
    simp [defaultKeyPath]
  have pieceFree : '/' ∉ id.toList ++ '.' :: "pem".toList := by
    simpa using free
  have stem : posix.fileStem (hoposhellFolderPath.toList ++ '/' ::
      (id.toList ++ '.' :: "pem".toList)) = some id.toList :=
    Symbols.fileStem_append (by simpa using nonempty) pieceFree (by decide) (by decide)
  simp only [Args.getShellId, unnamed, key, Option.bind_eq_bind, Option.bind_some, shape, stem,
    String.ofList_toList]

theorem identity_of_shell (keeps : ∀ name ∈ identityVars,
      child.var name = picked.shellVar parent.var name)
    (descends : Relation.ReflTransGen (Starts version readDir) child env) :
    (env.var "HOPOSHELL_CONNECTED").isSome = true ∧
      ∀ id, picked.getShellId = some id → env.var "HOPOSHELL_SHELL_ID" = some id := by
  have connected : child.var "HOPOSHELL_CONNECTED" = some "1" :=
    keeps "HOPOSHELL_CONNECTED" (by simp [identityVars])
  have below := var_of_descends (by rw [connected]; rfl) descends
  constructor
  · rw [below "HOPOSHELL_CONNECTED" (by simp [identityVars]), connected]
    rfl
  · intro id isId
    rw [below "HOPOSHELL_SHELL_ID" (by simp [identityVars]),
      keeps "HOPOSHELL_SHELL_ID" (by simp [identityVars])]
    simp [Args.shellVar, isId]

/--
However many processes are between them, a process below a shell does not connect, and unless it
names a shell itself it goes by the id of the process that has spawned the shell and, when the
environment gives no key, by the key with the name of the id.
-/
theorem below_shell (isId : picked.getShellId = some id)
    (keeps : ∀ name ∈ identityVars, child.var name = picked.shellVar parent.var name)
    (descends : Relation.ReflTransGen (Starts version readDir) child env)
    (dispatched : dispatch version env = .ok (some started)) :
    started.command ≠ .connect ∧
      (started.command ≠ .setup → started.command ≠ .forwardTcp →
        started.getShellId = some id ∧
          (env.var "HOPOSHELL_SHELL_KEY" = none →
            started.shellKeyPath = some (defaultKeyPath started.hoposhellFolderPath id))) := by
  rcases identity_of_shell keeps descends with ⟨connected, named⟩
  have notConnect := command_ne_connect connected dispatched
  refine ⟨notConnect, fun notSetup notForward => ?_⟩
  rcases shellName_of_parseArgs (named id isId) (parseArgs_of_dispatch dispatched).1
    ⟨notConnect, notSetup, notForward⟩ with ⟨shellName, shellKeyPath⟩
  refine ⟨by rw [Args.getShellId, shellName], ?_⟩
  intro noKey
  rw [shellKeyPath, noKey, Option.none_or]

theorem setup_key {setupEnv : Environment} {setupArgs : Args} {shell : String}
    (setup : dispatch version setupEnv = .ok (some setupArgs))
    (named : setupArgs.shellName = some shell)
    (noKey : setupEnv.var "HOPOSHELL_SHELL_KEY" = none) :
    setupArgs.shellKeyPath = some (defaultKeyPath setupArgs.hoposhellFolderPath shell) := by
  rcases identifies_of_parseArgs (parseArgs_of_dispatch setup).1 with ⟨line, _, identifies⟩
  rw [identifies.shellName] at named
  rw [identifies.shellKeyPath, noKey, named]
  rfl

end Below

/-- An environment with these variables, and a home. -/
def homeEnv (cmdArgs : List String) (vars : List (String × String)) : Environment where
  cmdArgs
  var name := ((("HOME", "/home/a") :: vars).find? fun var => var.1 = name).map (·.2)
  currentDir := some "/home/a"

/-- The arguments of a process in such an environment. -/
def homeArgs (line : CommandLine) (alreadyConnected : Bool) : Args where
  version := "1"
  alreadyConnected
  useSsl := true
  cmd := "bash"
  autoReconnect := false
  serverUrl := "api.hoposhell.com:10000"
  apiUrl := "https://api.hoposhell.com"
  keepAlive := 5000
  readTimeout := 0
  readTimeoutSleep := 0
  serverCrtPath := some "/home/a/.hoposhell/server.crt"
  shellKeyPath := line.shellName.map (defaultKeyPath "/home/a/.hoposhell")
  verifyCrt := true
  command := line.command
  shellName := line.shellName
  hoposhellFolderPath := "/home/a/.hoposhell"
  defaultCols := 80
  defaultRows := 24
  workingDir := "/home/a"
  verbose := false
  commandTimeout := 60000
  extraArgs := line.extraArgs
  format := .text

def setupEnv : Environment :=
  homeEnv ["hopo", "setup", "shell_a"] []

def setupArgs : Args :=
  homeArgs { command := .setup, shellName := some "shell_a", extraArgs := [] } false

def connectEnv : Environment :=
  homeEnv ["hopo"] []

def connectArgs : Args :=
  homeArgs { command := .connect, shellName := none, extraArgs := [] } false

/-- A command that is run in the shell `shell_a`. -/
def commandEnv : Environment :=
  homeEnv ["hopo", "command", "shell_b", "ls", "/"]
    [("HOPOSHELL_SHELL_ID", "shell_a"), ("HOPOSHELL_CONNECTED", "1")]

def commandArgs : Args :=
  homeArgs
    { command := .command, shellName := some "shell_a", extraArgs := ["shell_b", "ls", "/"] } true

def keyFolder (_ : Bytes) : Option (List (Option Bytes)) :=
  some [some (asBytes "server.crt"), some (asBytes "shell_a.pem")]

theorem dispatch_commandEnv : dispatch "1" commandEnv = .ok (some commandArgs) := by
  decide +kernel

theorem keeps_commandEnv : ∀ name ∈ identityVars, commandEnv.var name =
    (connectArgs.withShellKey "/home/a/.hoposhell/shell_a.pem").shellVar connectEnv.var name := by
  decide +kernel

theorem below_shell_command :
    commandArgs.command ≠ .connect ∧
      (commandArgs.command ≠ .setup → commandArgs.command ≠ .forwardTcp →
        commandArgs.getShellId = some "shell_a" ∧
          (commandEnv.var "HOPOSHELL_SHELL_KEY" = none → commandArgs.shellKeyPath =
            some (defaultKeyPath commandArgs.hoposhellFolderPath "shell_a"))) :=
  @below_shell "1" keyFolder connectEnv commandEnv commandEnv
    (connectArgs.withShellKey "/home/a/.hoposhell/shell_a.pem") commandArgs "shell_a"
    (by decide +kernel) keeps_commandEnv .refl dispatch_commandEnv

end Hoposhell
