import Hoposhell.MainConnect
import Hoposhell.Numerals
import Hoposhell.Session

/-!
# The size of the terminal

The server is told the size of the terminal at the start of each connection and after each
`resize` command that sets it.  These messages come from different threads, wait on a channel
and are lost with a connection; still the last one sent or on its way to the server tells the
size that the terminal has.
-/

namespace Hoposhell

/-- The size that a message tells, its numbers read as those of a `resize` command are. -/
def toldSize? (msg : Message MessageTypeToStream) : Option (ℕ × ℕ) := do
  let content ← msg.content
  let parts := Separator.splitN (· == messagePartsSeparator) 3 content
  if msg.mtype = .command ∧ parts[0]? = some (asBytes "size") then do
    let rows ← maybeU16 parts[1]?
    let cols ← maybeU16 parts[2]?
    some (rows, cols)
  else none

def Sent.size? : Sent → Option (ℕ × ℕ)
  | .size msg => toldSize? msg
  | .replayed msg | .forwarded msg => toldSize? msg.message
  | .header | .keepAlive => none

/-- The size that a `resize` command asks for. -/
def askedSize (c : Bytes) : Option (ℕ × ℕ) := do
  let parts := Separator.splitN (· == messagePartsSeparator) 3 c
  let rows ← maybeU16 parts[1]?
  let cols ← maybeU16 parts[2]?
  some (rows, cols)

/-- The size that the terminal takes when the message is served. -/
def StdinEvent.resizes? (event : StdinEvent) : Option (ℕ × ℕ) :=
  match event.message.mtype, event.message.content with
  | .command, some c =>
      if (asBytes "restart").isPrefixOf c = false ∧ (asBytes "resize").isPrefixOf c ∧
          event.master.resize then askedSize c
      else none
  | _, _ => none

/-- The sizes that a connection has to tell after a call. -/
def ConnectionEvent.sizes : ConnectionEvent → List (ℕ × ℕ)
  | .getSize (some (rows, cols)) => (toldSize? (makeSizeMessage rows cols)).toList
  | .lockHistory history => history.filterMap (toldSize? ·.message)
  | .recv (.msg msg) => (toldSize? msg.message).toList
  | _ => []

/-- A process, with the size of its terminal. -/
structure TerminalProcess where
  process : ConnectProcess
  size : ℕ × ℕ

/--
The size that the terminal has afterwards.  It has the size it was last given, and tells that
one when it is asked.
-/
def sizeAfter (size : ℕ × ℕ) : ProcessEvent → Option (ℕ × ℕ)
  | .serve event =>
      match event.resizes? with
      | some asked => if event.master.getSize = some asked then some asked else none
      | none => some size
  | .handle (.getSize (some read)) => if read = size then some size else none
  | _ => some size

namespace TerminalProcess

def start (size : ℕ × ℕ) : TerminalProcess where
  process := .start
  size := size

def step (config : ProcessConfig) (terminal : TerminalProcess) (event : ProcessEvent) :
    Option TerminalProcess := do
  let process ← terminal.process.step config event
  let size ← sizeAfter terminal.size event
  some { process, size }

end TerminalProcess

/-- The sizes that a connection has told, or is about to tell, as long as it lives. -/
def Connection.sizes (connection : Connection) : List (ℕ × ℕ) :=
  if connection.control.isEnded then []
  else (connection.sent ++ connection.control.toSend).filterMap Sent.size?

/-- The sizes that wait to be told. -/
def ConnectProcess.waitingSizes (process : ConnectProcess) : List (ℕ × ℕ) :=
  (process.shell.channel.map (·.message) ++ process.outbox).filterMap toldSize?

def ConnectProcess.sizes (process : ConnectProcess) : List (ℕ × ℕ) :=
  process.shell.connection.elim [] Connection.sizes ++ process.waitingSizes

def Control.isBeforeSize : Control → Bool
  | .header | .getSize => true
  | _ => false

section Format

theorem isDigit_of_parseDigits {value n : ℕ} {digits : Bytes}
    (read : parseDigits value digits = some n) : ∀ byte ∈ digits, (48 : UInt8) ≤ byte ∧ byte ≤ 57 := by
  induction digits generalizing value with
  | nil => simp
  | cons digit digits ih =>
      simp only [parseDigits, Option.ite_none_right_eq_some] at read
      exact List.forall_mem_cons.mpr ⟨read.1, ih read.2⟩

/-- A number is read from digits, with or without a sign before them. -/
theorem exists_digits_of_maybeU16 {part : Bytes} {n : ℕ} (read : maybeU16 (some part) = some n) :
    n < 65536 ∧ ∃ digits, (part = digits ∨ part = 43 :: digits) ∧
      parseDigits 0 digits = some n := by
  simp only [maybeU16, maybeString, Option.bind_some, Option.bind_eq_some_iff] at read
  rcases read with ⟨text, isText, read⟩
  rw [parseU16, asBytes_eq_of_fromUtf8 isText] at read
  cases part with
  | nil => cases read
  | cons first rest =>
      simp only [Option.ite_none_left_eq_some, Option.filter_eq_some_iff,
        decide_eq_true_eq] at read
      refine ⟨read.2.2, _, ?_, read.2.1⟩
      by_cases plus : first = 43
      · right
        rw [if_pos plus, plus]
      · left
        rw [if_neg plus]

theorem separator_not_mem_of_maybeU16 {part : Bytes} {n : ℕ} (read : maybeU16 (some part) = some n) :
    messagePartsSeparator ∉ part := by
  rcases exists_digits_of_maybeU16 read with ⟨_, digits, shape, isNumber⟩
  have notDigit : messagePartsSeparator ∉ digits := by
    intro mem
    exact absurd (isDigit_of_parseDigits isNumber _ mem).1 (by decide)
  rcases shape with rfl | rfl
  · exact notDigit
  · exact List.not_mem_cons_of_ne_of_not_mem (by decide) notDigit

theorem lt_of_maybeU16 {part : Option Bytes} {n : ℕ} (read : maybeU16 part = some n) :
    n < 65536 := by
  cases part with
  | none => cases read
  | some part => exact (exists_digits_of_maybeU16 read).1

theorem maybeU16_repr {n : ℕ} (fits : n < 65536) : maybeU16 (some (asBytes (toString n))) = some n := by
  simp only [maybeU16, maybeString, Option.bind_some, fromUtf8_asBytes]
  exact parseU16_repr fits

/-- What is printed for a size is read back. -/
theorem toldSize?_makeSizeMessage {rows cols : ℕ} (rowsFit : rows < 65536) (colsFit : cols < 65536) :
    toldSize? (makeSizeMessage rows cols) = some (rows, cols) := by
  have free : ∀ {bytes : Bytes}, messagePartsSeparator ∉ bytes →
      ∀ symbol ∈ bytes, (symbol == messagePartsSeparator) = false := by
    intro bytes absent symbol mem
    rw [beq_eq_false_iff_ne]
    rintro rfl
    exact absent mem
  have sizeFree := @free (asBytes "size") (by decide)
  have rowsFree := free (separator_not_mem_repr rows)
  have parts : Separator.splitN (· == messagePartsSeparator) 3
      (asBytes "size" ++ messagePartsSeparator :: (asBytes rows.repr ++
        messagePartsSeparator :: asBytes cols.repr)) =
      [asBytes "size", asBytes rows.repr, asBytes cols.repr] := by
    rw [Separator.splitN_append sizeFree (beq_self_eq_true _),
      Separator.splitN_append rowsFree (beq_self_eq_true _), Separator.splitN_one]
  have rowsRead : maybeU16 (some (asBytes rows.repr)) = some rows := maybeU16_repr rowsFit
  have colsRead : maybeU16 (some (asBytes cols.repr)) = some cols := maybeU16_repr colsFit
  simp [toldSize?, makeSizeMessage, parts, rowsRead, colsRead]

/-- A message that tells a size has two separators. -/
theorem count_separator_of_toldSize? {msg : Message MessageTypeToStream} {content : Bytes}
    {size : ℕ × ℕ} (isContent : msg.content = some content) (told : toldSize? msg = some size) :
    content.count messagePartsSeparator = 2 := by
  have cut := Separator.intercalate_splitN messagePartsSeparator 2 content
  have short := Separator.length_splitN_le (· == messagePartsSeparator) 3 content
  have frontFree : ∀ part ∈ (Separator.splitN (· == messagePartsSeparator) 3 content).take 2,
      messagePartsSeparator ∉ part := by
    intro part mem isSep
    have notSep := Separator.free_of_mem_take_splitN mem _ isSep
    simp at notSep
  simp only [toldSize?, isContent, Option.bind_eq_bind, Option.bind_some,
    Option.ite_none_right_eq_some, Option.bind_eq_some_iff] at told
  rcases told with ⟨_, rows, rowsRead, cols, colsRead, _⟩
  generalize Separator.splitN (· == messagePartsSeparator) 3 content = parts at *
  match parts with
  | [] | [_] | [_, _] => cases colsRead
  | [kind, rowsPart, colsPart] =>
      have kindFree := frontFree kind (by simp)
      have rowsFree := frontFree rowsPart (by simp)
      have colsFree := separator_not_mem_of_maybeU16 colsRead
      rw [← cut]
      simp [List.intercalate, List.intersperse, List.count_eq_zero_of_not_mem, kindFree, rowsFree,
        colsFree]
  | _ :: _ :: _ :: _ :: _ =>
      simp only [List.length_cons] at short
      omega

/-- A chunk of a response tells no size, whatever its command is called. -/
theorem toldSize?_messagePayload {mtype : MessageTypeToStream} {cmd : String} {kind : ReqOrRes}
    {messageId : String} {status : Bytes} {chunkType : ChunkType} {payload : Bytes} :
    toldSize?
      { mtype, content := some (messagePayload cmd kind messageId status chunkType payload) } =
        none := by
  by_contra told
  rcases Option.ne_none_iff_exists'.mp told with ⟨size, told⟩
  have few := count_separator_of_toldSize? rfl told
  have many := count_separator_messagePayload cmd kind messageId status chunkType payload
  omega

theorem toldSize?_of_response {response : Option Response} :
    ∀ message ∈ response.elim [] Response.messages, toldSize? message = none := by
  intro message mem
  cases response with
  | none => cases mem
  | some response =>
      rcases List.mem_map.mp mem with ⟨chunk, _, rfl⟩
      exact toldSize?_messagePayload

end Format

/-- The last of the values, if there is one, is this one. -/
def EndsIn {α : Type} (value : α) (values : List α) : Prop :=
  ∀ last ∈ values.getLast?, last = value

namespace EndsIn

variable {α : Type} {value : α} {values front back : List α}

theorem nil (value : α) : EndsIn value [] := by
  simp [EndsIn]

theorem getLast?_eq (ends : EndsIn value values) (nonempty : values ≠ []) :
    values.getLast? = some value := by
  cases isLast : values.getLast? with
  | none => exact absurd (List.getLast?_eq_none_iff.mp isLast) nonempty
  | some last => rw [ends last isLast]

theorem concat (value : α) (front : List α) : EndsIn value (front ++ [value]) := by
  simp [EndsIn]

theorem suffix (ends : EndsIn value (front ++ back)) : EndsIn value back := by
  intro last isLast
  apply ends
  exact List.mem_getLast?_append_of_mem_getLast? isLast

theorem append (frontEnds : EndsIn value front) (backEnds : EndsIn value back) :
    EndsIn value (front ++ back) := by
  cases back with
  | nil => rwa [List.append_nil]
  | cons first rest =>
      rw [EndsIn, List.getLast?_append_of_ne_nil _ (List.cons_ne_nil first rest)]
      exact backEnds

end EndsIn

section Resize

variable {json : Json.Codec} {hoposhellFolder : String} {loop next : StdinLoop}
  {event : StdinEvent}

theorem fits_of_askedSize {c : Bytes} {asked : ℕ × ℕ} (asks : askedSize c = some asked) :
    asked.1 < 65536 ∧ asked.2 < 65536 := by
  simp only [askedSize, Option.bind_eq_bind, Option.bind_eq_some_iff, Option.some.injEq] at asks
  rcases asks with ⟨rows, rowsRead, cols, colsRead, rfl⟩
  exact ⟨lt_of_maybeU16 rowsRead, lt_of_maybeU16 colsRead⟩

theorem fits_of_resizes? {asked : ℕ × ℕ} (resizes : event.resizes? = some asked) :
    asked.1 < 65536 ∧ asked.2 < 65536 := by
  unfold StdinEvent.resizes? at resizes
  split at resizes
  · rw [Option.ite_none_right_eq_some] at resizes
    exact fits_of_askedSize resizes.2
  · cases resizes

theorem processResizeCommand_eq (c : Bytes) (master : MasterPty) :
    processResizeCommand c master =
      if master.resize ∧ (askedSize c).isSome then do
        let size ← unwrap master.getSize
        .ok (some (makeSizeMessage size.1 size.2))
      else .ok none := by
  simp only [processResizeCommand]
  split
  · rename_i rows cols rowsRead colsRead
    simp [askedSize, rowsRead, colsRead]
  · rename_i unread
    have asksNothing : (askedSize c).isSome = false := by
      rw [Option.isSome_eq_false_iff, Option.isNone_iff_eq_none]
      simp only [askedSize, Option.bind_eq_bind, Option.bind_eq_none_iff]
      intro rows rowsRead cols colsRead
      exact absurd colsRead (unread rows cols rowsRead)
    simp [asksNothing]

/-- The answer to a `resize` command tells the size that it has set. -/
theorem processResizeCommand_tells {c : Bytes} {master : MasterPty} {sizes : Option (ℕ × ℕ)}
    (set : (if master.resize then askedSize c else none) = sizes)
    (tells : ∀ asked ∈ sizes, master.getSize = some asked) :
    ∃ told, processResizeCommand c master = .ok told ∧
      told.toList.filterMap toldSize? = sizes.toList := by
  rw [processResizeCommand_eq]
  cases sizes with
  | none =>
      refine ⟨none, if_neg ?_, rfl⟩
      rintro ⟨resize, asks⟩
      rw [if_pos resize] at set
      rw [set] at asks
      cases asks
  | some asked =>
      rw [Option.ite_none_right_eq_some] at set
      have fits := fits_of_askedSize set.2
      refine ⟨some (makeSizeMessage asked.1 asked.2), ?_, ?_⟩
      · rw [if_pos ⟨set.1, by rw [set.2]; rfl⟩, tells asked rfl]
        rfl
      · simp [toldSize?_makeSizeMessage fits.1 fits.2]

/-- The loop tells the size that the terminal has taken, and no other. -/
theorem StdinLoop.tells_of_step (taken : loop.step json hoposhellFolder event = some next)
    (tells : ∀ asked ∈ event.resizes?, event.master.getSize = some asked) :
    ∃ told, next.toStream = loop.toStream ++ told ∧
      told.filterMap toldSize? = event.resizes?.toList := by
  simp only [step, Option.ite_none_right_eq_some] at taken
  rcases taken with ⟨_, taken⟩
  rcases message : event.message with ⟨mtype, content⟩
  rw [message] at taken
  simp only [StdinEvent.resizes?, message] at tells ⊢
  cases content with
  | none =>
      refine ⟨[], ?_, ?_⟩
      · cases mtype <;> cases taken <;> simp
      · cases mtype <;> rfl
  | some c =>
      cases mtype with
      | stdin =>
          refine ⟨[], ?_, rfl⟩
          cases written : event.written <;> simp only [written] at taken <;> cases taken <;> simp
      | command =>
          cases taken
          dsimp only at tells ⊢
          unfold processCommand
          by_cases restart : (asBytes "restart").isPrefixOf c = true
          · exact ⟨[], by simp [restart], by simp [restart]⟩
          by_cases resize : (asBytes "resize").isPrefixOf c = true
          · simp only [restart, resize, true_and, Bool.false_eq_true, if_false] at tells ⊢
            rcases processResizeCommand_tells rfl tells with ⟨told, answers, sizes⟩
            refine ⟨told.toList, ?_, sizes⟩
            rw [answers]
            rfl
          · refine ⟨(loop.commands.processMsg event.handlers json event.zstd c
              hoposhellFolder).1.elim [] Response.messages, ?_, ?_⟩
            · simp [restart, resize, send]
            · rw [if_neg fun set => resize set.2.1, Option.toList_none, List.filterMap_eq_nil_iff]
              exact toldSize?_of_response

end Resize

theorem filterMap_singleton {α β : Type} (f : α → Option β) (value : α) :
    [value].filterMap f = (f value).toList := by
  cases read : f value <;> simp [read]

namespace Connection

variable {config : ConnectConfig} {connection next : Connection} {event : ConnectionEvent}

theorem live_of_step (taken : connection.step config event = some next) :
    connection.control.isEnded = false := by
  by_contra ended
  rw [stuck_of_isEnded (by simpa using ended)] at taken
  cases taken

theorem sizes_of_ended (ended : connection.control.isEnded = true) : connection.sizes = [] := by
  rw [sizes, if_pos ended]

theorem sizes_planned (last : Option ℕ) :
    (planned config last event).filterMap Sent.size? = event.sizes := by
  cases event with
  | lockHistory history =>
      simp only [planned, List.filterMap_map]
      rfl
  | getSize size =>
      cases size with
      | none => rfl
      | some size => exact filterMap_singleton _ _
  | recv received =>
      cases received with
      | msg msg => exact filterMap_singleton _ _
      | timeout | disconnected => rfl
  | getNow now =>
      rw [planned]
      split <;> rfl
  | _ => rfl

/-- A connection that lives on tells what is planned. -/
theorem sizes_of_step (taken : connection.step config event = some next)
    (live : next.control.isEnded = false) : next.sizes = connection.sizes ++ event.sizes := by
  rcases advances_of_step taken with ⟨rest, advances⟩
  have sent := advances.sent
  rw [(advances.going live).1] at sent
  simp only [sizes, live, live_of_step taken, Bool.false_eq_true, if_false, ← sent,
    List.filterMap_append, sizes_planned]

/-- The size is told before anything else happens on a connection. -/
theorem beforeSize_of_step (taken : connection.step config event = some next)
    (before : connection.control.isBeforeSize = true) (live : next.control.isEnded = false) :
    next.control.isBeforeSize = true ∨ ∃ size, event = .getSize (some size) := by
  cases step_spec taken with
  | @write sent result _ sends written =>
      left
      cases control : connection.control with
      | header =>
          rcases send_cases written with ⟨n, _, rfl⟩ | ⟨kind, _, rfl⟩
          · rw [control]
            rfl
          · rw [control] at live
            cases live
      | getSize =>
          rw [control] at sends
          cases sends
      | _ =>
          rw [control] at before
          cases before
  | getSize => exact .inr ⟨_, rfl⟩
  | noSize => cases live
  | lockHistory control | read control | recv control | timeout control | disconnected control
  | getNow control | clockBeforeEpoch control | flushed control | notFlushed control =>
      rw [control] at before
      cases before

end Connection

namespace TerminalProcess

/-- The last size that is told, or waits to be, is the one that the terminal has. -/
structure Tells (terminal : TerminalProcess) : Prop where
  fits : terminal.size.1 < 65536 ∧ terminal.size.2 < 65536
  history : ∀ msg ∈ terminal.process.shell.history, toldSize? msg.message = none
  recorded : ∀ msg ∈ terminal.process.shell.recorded, toldSize? msg.message = none
  last : EndsIn terminal.size terminal.process.sizes
  told : ∀ connection, terminal.process.shell.connection = some connection →
    connection.control.isEnded = false →
      connection.control.isBeforeSize = true ∨ connection.sizes ≠ []

variable {config : ProcessConfig} {terminal next : TerminalProcess} {event : ProcessEvent}

theorem tells_start {size : ℕ × ℕ} (fits : size.1 < 65536 ∧ size.2 < 65536) :
    (start size).Tells where
  fits := fits
  history := by simp [start, ConnectProcess.start, Shell.start]
  recorded := by simp [start, ConnectProcess.start, Shell.start]
  last := EndsIn.nil _
  told := by simp [start, ConnectProcess.start, Shell.start]

/-- A size that is read from the terminal is the one that it has. -/
theorem size_of_handle {size after : ℕ × ℕ} {event : ConnectionEvent}
    (kept : sizeAfter size (.handle event) = some after) :
    after = size ∧ ∀ read, event = .getSize (some read) → read = size := by
  unfold sizeAfter at kept
  split at kept
  · rename_i same
    cases same
  · rename_i read same
    cases same
    rw [Option.ite_none_right_eq_some] at kept
    rcases kept with ⟨rfl, same⟩
    cases same
    refine ⟨rfl, ?_⟩
    rintro other same
    cases same
    rfl
  · rename_i notRead
    cases kept
    refine ⟨rfl, ?_⟩
    rintro read rfl
    exact absurd rfl (notRead read)

/-- The sizes that wait before a call, and after it. -/
theorem waiting_of_handle {shell : Shell} {event : ConnectionEvent} (allowed : shell.Allows event)
    (unsized : ∀ msg ∈ shell.history, toldSize? msg.message = none) :
    (∃ size, event = .getSize (some size)) ∨
      (shell.channel.map (·.message)).filterMap toldSize? =
        event.sizes ++ ((shell.channelAfter event).map (·.message)).filterMap toldSize? := by
  cases event with
  | getSize size =>
      cases size with
      | none => exact .inr rfl
      | some size => exact .inl ⟨size, rfl⟩
  | lockHistory history =>
      right
      obtain rfl : history = shell.history := allowed
      have nothing : ConnectionEvent.sizes (.lockHistory shell.history) = [] :=
        List.filterMap_eq_nil_iff.mpr unsized
      rw [nothing]
      rfl
  | recv received =>
      right
      cases received with
      | msg msg =>
          rcases List.head?_eq_some_iff.mp allowed with ⟨rest, channel⟩
          rw [Shell.channelAfter, channel, List.map_cons, List.tail_cons, ← List.singleton_append,
            List.filterMap_append, filterMap_singleton]
          rfl
      | timeout | disconnected => rfl
  | _ => exact .inr rfl

theorem Tells.handle_last {event : ConnectionEvent} {connection nextConnection : Connection}
    {size : ℕ × ℕ} (tells : terminal.Tells)
    (connected : terminal.process.shell.connection = some connection)
    (allowed : terminal.process.shell.Allows event)
    (handled : connection.step config.connect event = some nextConnection)
    (kept : sizeAfter terminal.size (.handle event) = some size) :
    EndsIn size (nextConnection.sizes ++
      ((terminal.process.shell.channelAfter event).map (·.message) ++
        terminal.process.outbox).filterMap toldSize?) := by
  rcases size_of_handle kept with ⟨rfl, isRead⟩
  have last := tells.last
  simp only [ConnectProcess.sizes, ConnectProcess.waitingSizes, connected, Option.elim_some,
    List.filterMap_append] at last ⊢
  have waiting := waiting_of_handle allowed tells.history
  cases ended : nextConnection.control.isEnded with
  | true =>
      rw [Connection.sizes_of_ended ended, List.nil_append]
      rcases waiting with ⟨read, rfl⟩ | waiting
      · exact last.suffix
      · rw [waiting, List.append_assoc, ← List.append_assoc] at last
        exact last.suffix
  | false =>
      rw [Connection.sizes_of_step handled ended]
      rcases waiting with ⟨read, rfl⟩ | waiting
      · -- the size is read while what waits already tells it
        obtain rfl := isRead read rfl
        have told : ConnectionEvent.sizes (.getSize (some terminal.size)) = [terminal.size] := by
          simp [ConnectionEvent.sizes, toldSize?_makeSizeMessage tells.fits.1 tells.fits.2]
        rw [told]
        exact (EndsIn.concat _ _).append last.suffix
      · rw [waiting] at last
        simpa only [List.append_assoc] using last

theorem Tells.handle {event : ConnectionEvent} {connection nextConnection : Connection}
    {process : ConnectProcess} {size : ℕ × ℕ} (tells : terminal.Tells)
    (connected : terminal.process.shell.connection = some connection)
    (allowed : terminal.process.shell.Allows event)
    (handled : connection.step config.connect event = some nextConnection)
    (kept : sizeAfter terminal.size (.handle event) = some size)
    (shell : process.shell =
      { terminal.process.shell with
        connection := some nextConnection
        channel := terminal.process.shell.channelAfter event })
    (outbox : process.outbox = terminal.process.outbox) : Tells { process, size } := by
  have same := (size_of_handle kept).1
  refine ⟨?_, ?_, ?_, ?_, ?_⟩
  · rw [same]
    exact tells.fits
  · rw [shell]
    exact tells.history
  · rw [shell]
    exact tells.recorded
  · rw [ConnectProcess.sizes, ConnectProcess.waitingSizes, shell, outbox]
    exact tells.handle_last connected allowed handled kept
  · intro other isOther live
    obtain rfl : nextConnection = other := by
      rw [shell] at isOther
      exact Option.some.inj isOther
    rw [Connection.sizes_of_step handled live]
    rcases tells.told connection connected (Connection.live_of_step handled) with before | told
    · rcases Connection.beforeSize_of_step handled before live with stays | ⟨read, rfl⟩
      · exact .inl stays
      · right
        obtain rfl := (size_of_handle kept).2 read rfl
        simp [ConnectionEvent.sizes, toldSize?_makeSizeMessage tells.fits.1 tells.fits.2]
    · right
      simp [told]

/-- A step that is about something else. -/
theorem Tells.same (tells : terminal.Tells) {process : ConnectProcess}
    (history : process.shell.history = terminal.process.shell.history)
    (recorded : process.shell.recorded = terminal.process.shell.recorded)
    (connection : process.shell.connection = terminal.process.shell.connection)
    (waiting : process.waitingSizes = terminal.process.waitingSizes) :
    Tells { process, size := terminal.size } where
  fits := tells.fits
  history := by
    rw [history]
    exact tells.history
  recorded := by
    rw [recorded]
    exact tells.recorded
  last := by
    rw [ConnectProcess.sizes, connection, waiting]
    exact tells.last
  told := by
    rw [connection]
    exact tells.told

/-- The answer to a `resize` command tells the size that the terminal now has. -/
theorem Tells.serve (tells : terminal.Tells) {event : StdinEvent} {stdin : StdinLoop}
    {process : ConnectProcess} {size : ℕ × ℕ} (nothing : terminal.process.outbox = [])
    (part : terminal.process.stdin.step config.json config.hoposhellFolder event = some stdin)
    (kept : sizeAfter terminal.size (.serve event) = some size)
    (shell : process.shell = terminal.process.shell)
    (outbox : process.outbox = stdin.toStream.drop terminal.process.stdin.toStream.length) :
    Tells { process, size } := by
  cases resizes : event.resizes? with
  | none =>
      have noSize : ∀ asked ∈ event.resizes?, event.master.getSize = some asked := by
        simp [resizes]
      rcases StdinLoop.tells_of_step part noSize with ⟨told, put, sizes⟩
      rw [sizeAfter, resizes] at kept
      cases kept
      apply tells.same
      · rw [shell]
      · rw [shell]
      · rw [shell]
      · rw [put, List.drop_left] at outbox
        rw [resizes] at sizes
        simpa [ConnectProcess.waitingSizes, shell, outbox, nothing] using sizes
  | some asked =>
      rw [sizeAfter, resizes] at kept
      simp only [Option.ite_none_right_eq_some, Option.some.injEq] at kept
      rcases kept with ⟨getSize, rfl⟩
      have isSize : ∀ other ∈ event.resizes?, event.master.getSize = some other := by
        rw [resizes]
        rintro other same
        cases same
        exact getSize
      rcases StdinLoop.tells_of_step part isSize with ⟨told, put, sizes⟩
      rw [put, List.drop_left] at outbox
      refine ⟨fits_of_resizes? resizes, ?_, ?_, ?_, ?_⟩
      · rw [shell]
        exact tells.history
      · rw [shell]
        exact tells.recorded
      · rw [ConnectProcess.sizes, ConnectProcess.waitingSizes, outbox, List.filterMap_append, sizes,
          resizes, ← List.append_assoc]
        exact EndsIn.concat _ _
      · rw [shell]
        exact tells.told

theorem toldSize?_stdout (content : Option Bytes) :
    toldSize? { mtype := .stdout, content } = none := by
  cases content <;> simp [toldSize?]

theorem Tells.step (tells : terminal.Tells) (taken : terminal.step config event = some next) :
    next.Tells := by
  rcases Option.bind_eq_some_iff.mp taken with ⟨process, stepped, taken⟩
  rcases Option.bind_eq_some_iff.mp taken with ⟨size, kept, taken⟩
  cases taken
  cases ConnectProcess.step_spec stepped with
  | handle connected part =>
      cases Shell.step_spec part with
      | handle same allowed handled => exact tells.handle same allowed handled kept rfl rfl
  | produce part =>
      cases kept
      cases Shell.step_spec part with
      | produce nothingRecorded unlocked =>
          refine { tells with history := ?_, recorded := ?_ }
          · simp only [List.forall_mem_append, List.forall_mem_singleton]
            refine ⟨?_, toldSize?_stdout _⟩
            intro msg mem
            exact tells.history msg ((Shell.trimHistory_sublist _).subset mem)
          · rintro msg same
            cases same
            exact toldSize?_stdout _
  | enqueue part =>
      cases kept
      cases Shell.step_spec part with
      | enqueue isRecorded =>
          have unsized := tells.recorded _ isRecorded
          have waits : EndsIn terminal.size terminal.process.sizes := tells.last
          refine { tells with recorded := by simp, last := ?_ }
          simpa [ConnectProcess.sizes, ConnectProcess.waitingSizes, unsized] using waits
  | respond isNext part =>
      cases kept
      cases Shell.step_spec part with
      | respond =>
          rcases List.head?_eq_some_iff.mp isNext with ⟨rest, outbox⟩
          refine tells.same rfl rfl rfl ?_
          simp [ConnectProcess.waitingSizes, outbox]
  | serve canTake part => exact tells.serve canTake.2.1 part kept rfl rfl
  | connect part =>
      cases kept
      cases Shell.step_spec part with
      | connect disconnected =>
          have waits : EndsIn terminal.size terminal.process.sizes := tells.last
          rw [ConnectProcess.sizes, disconnected] at waits
          refine { tells with last := waits, told := ?_ }
          rintro connection same live
          cases same
          exact .inl rfl
  | disconnect part =>
      cases kept
      cases Shell.step_spec part with
      | disconnect connected returned =>
          have waits : EndsIn terminal.size terminal.process.sizes := tells.last
          refine { tells with last := waits.suffix, told := ?_ }
          rintro connection same
          cases same
  | commandDied | connectFailed | setupFailed | commandPanics =>
      cases kept
      exact tells.same rfl rfl rfl rfl

/--
On a connection that has been told a size, the last one sent or on its way is the size that the
terminal has, whatever was lost with the connections before.
-/
theorem last_size_told {size : ℕ × ℕ} (fits : size.1 < 65536 ∧ size.2 < 65536)
    {events : List ProcessEvent}
    (reaches : Transition.run (TerminalProcess.step config) (.start size) events = some terminal)
    {connection : Connection} (connected : terminal.process.shell.connection = some connection)
    (live : connection.control.isEnded = false)
    (isTold : connection.control.isBeforeSize = false) :
    ((connection.sent ++ connection.control.toSend).filterMap Sent.size? ++
      (terminal.process.shell.channel.map (·.message) ++ terminal.process.outbox).filterMap
        toldSize?).getLast? = some terminal.size := by
  have tells : terminal.Tells :=
    Transition.run_invariant (fun _ _ _ tells taken => Tells.step tells taken) (tells_start fits)
      reaches
  have last := tells.last
  have told := tells.told connection connected live
  simp only [ConnectProcess.sizes, connected, Option.elim_some, Connection.sizes, live,
    Bool.false_eq_true, if_false, isTold, false_or] at last told
  apply last.getLast?_eq
  intro nothing
  exact told (List.append_eq_nil_iff.mp nothing).1

end TerminalProcess

def resizeContent : Bytes :=
  asBytes "resize/30/100"

def resizeEvent : StdinEvent :=
  { echoEvent "resize" Zstd.stored with
    message := { mtype := .command, content := some resizeContent }
    master := { resize := true, getSize := some (30, 100) } }

/-- The terminal is resized, and the answer is on its way. -/
def resizeRun : List ProcessEvent :=
  [.connect, .handle (.write (.ok 12)), .handle (.getSize (some (24, 80))),
    .handle (.write (.ok 24)), .handle (.lockHistory []),
    .handle (.read (.ok ((Frame.message .command resizeContent).bytes Base64.standard))),
    .serve resizeEvent, .respond (asBytes "size/30/100")]

theorem last_size_told_resizeRun :
    ∃ (terminal : TerminalProcess) (connection : Connection),
      Transition.run (TerminalProcess.step localProcess) (.start (24, 80)) resizeRun =
        some terminal ∧ terminal.size = (30, 100) ∧
      ((connection.sent ++ connection.control.toSend).filterMap Sent.size? ++
        (terminal.process.shell.channel.map (·.message) ++ terminal.process.outbox).filterMap
          toldSize?).getLast? = some terminal.size := by
  have reaches : ((Transition.run (TerminalProcess.step localProcess) (.start (24, 80))
      resizeRun).filter fun terminal => decide (terminal.size = (30, 100)) &&
        terminal.process.shell.connection.any fun connection =>
          !connection.control.isEnded && !connection.control.isBeforeSize).isSome := by
    decide +kernel
  rcases Option.isSome_iff_exists.mp reaches with ⟨terminal, reaches⟩
  rcases Option.filter_eq_some_iff.mp reaches with ⟨reaches, shape⟩
  simp only [Bool.and_eq_true, decide_eq_true_eq, Option.any_eq_true, Bool.not_eq_true'] at shape
  rcases shape with ⟨size, connection, connected, live, isTold⟩
  exact ⟨terminal, connection, reaches, size,
    TerminalProcess.last_size_told (by decide) reaches connected live isTold⟩

end Hoposhell
