import Hoposhell.RemoteCall

/-!
# Forwarding local connections

`main_forward_tcp` serves local connections one after the other.  What is read from one makes a
`tcp` request, and the payload of the response is written back to it; a connection that cannot be
read or written, or whose request fails, is dropped, and the next one is served.
-/

namespace Hoposhell

/-- The words of `main_forward_tcp`: its local port, and what goes into its requests. -/
def Args.forwardArgs (args : Args) : Except Panic (UInt16 × ForwardArgs) := do
  let localPort ← index args.extraArgs 0
  let localPort ← unwrap (parseU16 localPort)
  let host ← index args.extraArgs 1
  let remotePort ← index args.extraArgs 2
  let remotePort ← unwrap (parseU16 remotePort)
  .ok (UInt16.ofNat localPort,
    { shellName := args.shellName, host, remotePort := UInt16.ofNat remotePort })

/-- A local connection, with what the calls made for it return. -/
structure Incoming where
  /-- The connection is accepted and takes a read timeout. -/
  accepted : Option Unit
  read : Except ErrorKind Bytes
  server : CommandRun
  /-- Whether `write_all` writes the response back. -/
  writesAll : Bool

/-- What becomes of a local connection. -/
inductive Forwarded where
  | dropped
  | wrote (payload : Bytes)
  /-- `process::exit`. -/
  | exited
  /-- The polls leave the receive loop waiting. -/
  | waiting
deriving DecidableEq, Repr

/-- The connections behind this one are not served. -/
def Forwarded.stops : Forwarded → Bool
  | .exited | .waiting => true
  | .dropped | .wrote _ => false

section Forward

variable {File : Type} (client : Client File) (args : Args) (forward : ForwardArgs)

/-- What is done with a response. -/
def Incoming.answer (incoming : Incoming) (res : Response) : Forwarded :=
  if res.statusCode ≠ .ok then .dropped
  else if incoming.writesAll then .wrote res.payload
  else .dropped

/-- One turn of the loop. -/
def forwardConnection (incoming : Incoming) : Except Panic Forwarded := do
  unwrap incoming.accepted
  let req ← forward.tcpRequest client.texts.tcp incoming.server.randomId incoming.read
  match req with
  | none => .ok .dropped
  | some req =>
      if connectToHoposhell args incoming.server then do
        if args.useSsl then unwrap incoming.server.handshake
        let sent ← sendRequestAndGetResponse client.base64 client.json client.zstd
          args.commandTimeout args.version req incoming.server.writes incoming.server.startTime
          incoming.server.polls
        match sent.outcome with
        | .waiting => .ok .waiting
        | .exited => .ok .exited
        | .returned (.error _) => .ok .dropped
        | .returned (.ok res) => .ok (incoming.answer res)
      else .ok .exited

def forwardAll : List Incoming → Except Panic (List Forwarded)
  | [] => .ok []
  | incoming :: incomings => do
      let forwarded ← forwardConnection client args forward incoming
      if forwarded.stops then .ok [forwarded]
      else do
        let rest ← forwardAll incomings
        .ok (forwarded :: rest)

/-- `main_forward_tcp`, given whether the local port can be listened on. -/
def mainForwardTcp (listens : Option Unit) (incomings : List Incoming) :
    Except Panic (List Forwarded) := do
  let (_, forward) ← args.forwardArgs
  unwrap listens
  forwardAll client args forward incomings

end Forward

/-- What the remote shell is asked to do with the data of a connection. -/
def ForwardArgs.command (forward : ForwardArgs) (data : Bytes) : Command :=
  .tcp (forward.body (readBuffer data))

namespace Incoming

variable {File : Type} (client : Client File) (args : Args) (forward : ForwardArgs)
  (shellId : String) (config : ProcessConfig) (events : List ProcessEvent)
  (machine : StdinEvent → Surroundings) (process : ConnectProcess)

/-- The request made of the data of a connection. -/
def request (incoming : Incoming) (data : Bytes) : Request :=
  (forward.command data).request client.texts (shellId ++ ":" ++ incoming.server.randomId) shellId

/-- What is received for the data of a connection. -/
def received (incoming : Incoming) (data : Bytes) :
    Except Panic (Option (Except CommandError Response)) :=
  receiveResponse client.base64 client.json args.commandTimeout
    (incoming.request client forward shellId data) client.zstd incoming.server.startTime
    incoming.server.polls

/-- There is a server to send a request to. -/
structure Connects (incoming : Incoming) : Prop where
  connects : connectToHoposhell args incoming.server = true
  handshake : args.useSsl = true → incoming.server.handshake.isSome = true
  writes : ∀ n, (incoming.server.writes n).isOk = true

/-- The request made of the data is relayed to a shell, which can answer it. -/
structure Served (incoming : Incoming) (data : Bytes) : Prop where
  answered : ∀ event ∈ events.flatMap ProcessEvent.stdinEvents,
    (forward.command data).AnsweredOn client.zstd (machine event)
  relayed : Relayed config events process client.base64
    (incoming.request client forward shellId data) incoming.server.polls
  undisturbed : ∀ poll ∈ incoming.server.polls, poll.Undisturbed
  inTime : InTime args.commandTimeout incoming.server.startTime incoming.server.polls

/-- What becomes of a connection, by what the remote host has made of its data. -/
inductive Gets (incoming : Incoming) : Forwarded → Prop where
  | unread {kind : ErrorKind} (read : incoming.read = .error kind) : Gets incoming .dropped
  | lost {data : Bytes} {error : CommandError} (read : incoming.read = .ok data)
      (failed : incoming.received client args forward shellId data = .ok (some (.error error))) :
      Gets incoming .dropped
  | failed {data error : Bytes} {event : StdinEvent} (read : incoming.read = .ok data)
      (mem : event ∈ events.flatMap ProcessEvent.stdinEvents)
      (run : (forward.command data).run (machine event) = .ok (.error error)) :
      Gets incoming .dropped
  | answered {data response : Bytes} {event : StdinEvent} (read : incoming.read = .ok data)
      (mem : event ∈ events.flatMap ProcessEvent.stdinEvents)
      (run : (forward.command data).run (machine event) = .ok (.ok response)) :
      Gets incoming (if incoming.writesAll then .wrote response else .dropped)

end Incoming

section Tunnel

variable {File : Type} {client : Client File} {args : Args} {forward : ForwardArgs}
  {shellId : String} {config : ProcessConfig} {events : List ProcessEvent}
  {machine : StdinEvent → Surroundings} {process : ConnectProcess} {incoming : Incoming}

/-- The loop goes on with the next connection. -/
theorem Incoming.Gets.goes_on {forwarded : Forwarded}
    (gets : incoming.Gets client args forward shellId events machine forwarded) :
    forwarded.stops = false := by
  cases gets with
  | unread | lost | failed => rfl
  | answered => split <;> rfl

theorem forwardConnection_of_received {data : Bytes} {result : Except CommandError Response}
    (named : forward.shellName = some shellId) (accepted : incoming.accepted = some ())
    (read : incoming.read = .ok data) (connects : incoming.Connects args)
    (received : incoming.received client args forward shellId data = .ok (some result)) :
    forwardConnection client args forward incoming =
      .ok (match result with
        | .ok res => incoming.answer res
        | .error _ => .dropped) := by
  have built : forward.tcpRequest client.texts.tcp incoming.server.randomId incoming.read =
      .ok (some (incoming.request client forward shellId data)) := by
    simp only [ForwardArgs.tcpRequest, read, named, unwrap, bind, Except.bind]
    rfl
  have sent : sendRequestAndGetResponse client.base64 client.json client.zstd args.commandTimeout
      args.version (incoming.request client forward shellId data) incoming.server.writes
      incoming.server.startTime incoming.server.polls =
        .ok
          { written := (incoming.request client forward shellId data).chunk
            outcome := .returned result } :=
    sendRequest_of_received connects.writes received
  simp only [forwardConnection, accepted, unwrap, bind, Except.bind, built, connects.connects,
    if_true, sent]
  split_ifs with useSsl
  · rcases Option.isSome_iff_exists.mp (connects.handshake useSsl) with ⟨shaken, isSome⟩
    rw [isSome]
    cases result <;> rfl
  · cases result <;> rfl

/-- A connection gets what the remote host has made of its data. -/
theorem exists_forwardConnection (serves : process.Serves client config events machine)
    (named : forward.shellName = some shellId) (written : ∀ body, client.texts.tcp body ≠ "")
    (lawful : client.Lawful) (accepted : incoming.accepted = some ())
    (handled : ∀ data, incoming.read = .ok data → incoming.Connects args ∧
      (incoming.Served client args forward shellId config events machine process data ∨
        ∃ error, incoming.received client args forward shellId data =
          .ok (some (.error error)))) :
    ∃ forwarded, forwardConnection client args forward incoming = .ok forwarded ∧
      incoming.Gets client args forward shellId events machine forwarded := by
  cases read : incoming.read with
  | error kind =>
      refine ⟨.dropped, ?_, .unread read⟩
      simp only [forwardConnection, accepted, unwrap, bind, Except.bind, ForwardArgs.tcpRequest,
        read]
  | ok data =>
      rcases handled data read with ⟨connects, served | ⟨error, failed⟩⟩
      · have nonempty : (incoming.request client forward shellId data).payload ≠ [] := by
          intro empty
          exact written _ (asBytes_injective empty)
        rcases serves.received rfl nonempty served.answered served.relayed lawful
          served.undisturbed served.inTime with ⟨event, mem, result, run, received⟩
        refine ⟨_, forwardConnection_of_received named accepted read connects received, ?_⟩
        cases result with
        | ok response => exact .answered read mem run
        | error error => exact .failed read mem run
      · exact ⟨_, forwardConnection_of_received named accepted read connects failed,
          .lost read failed⟩

theorem forwardArgs_shellName {localPort : UInt16}
    (parsed : args.forwardArgs = .ok (localPort, forward)) :
    forward.shellName = args.shellName := by
  simp only [Args.forwardArgs] at parsed
  rcases exists_of_bind_eq_ok parsed with ⟨port, _, parsed⟩
  rcases exists_of_bind_eq_ok parsed with ⟨localPort', _, parsed⟩
  rcases exists_of_bind_eq_ok parsed with ⟨host, _, parsed⟩
  rcases exists_of_bind_eq_ok parsed with ⟨remote, _, parsed⟩
  rcases exists_of_bind_eq_ok parsed with ⟨remotePort, _, parsed⟩
  cases parsed
  rfl

/-- When each connection goes on to the next, all of them are served. -/
theorem exists_forwardAll {Result : Incoming → Forwarded → Prop}
    (goesOn : ∀ incoming forwarded, Result incoming forwarded → forwarded.stops = false)
    {incomings : List Incoming}
    (served : ∀ incoming ∈ incomings, ∃ forwarded,
      forwardConnection client args forward incoming = .ok forwarded ∧ Result incoming forwarded) :
    ∃ results, forwardAll client args forward incomings = .ok results ∧
      List.Forall₂ Result incomings results := by
  induction incomings with
  | nil => exact ⟨[], rfl, .nil⟩
  | cons incoming incomings ih =>
      rw [List.forall_mem_cons] at served
      rcases served.1 with ⟨forwarded, here, gets⟩
      rcases ih served.2 with ⟨results, rest, all⟩
      refine ⟨forwarded :: results, ?_, .cons gets all⟩
      rw [forwardAll, here]
      simp only [bind, Except.bind, goesOn incoming forwarded gets, Bool.false_eq_true, if_false,
        rest]

end Tunnel

def forwardArgs : Args :=
  homeArgs
    { command := .forwardTcp, shellName := some "shell_a"
      extraArgs := ["8080", "localhost", "81"] } true

/-- A connection that cannot be read, and one whose server goes away. -/
def lostIncomings : List Incoming :=
  [{ accepted := some (), read := .error .other, server := downloadCommandRun
     writesAll := true },
    { accepted := some (), read := .ok [104, 105]
      server := { downloadCommandRun with
        polls := [{ checkedAt := 1, readAt := 1, read := .ok [] }] }
      writesAll := true }]

end Hoposhell
