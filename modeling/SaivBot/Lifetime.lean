import SaivBot.Connection.Framing
import SaivBot.Ledger
import SaivBot.Settling

/-! Each line at most once, over all connections.

A reconnect drops what waits in the queue, and the bot goes on with the next connection.
As long as it finds no operation under way, no line is written again, on this connection
or a later one.
-/

set_option autoImplicit false

namespace SaivBot
open Program BotState Transition Ledger

namespace Sender

variable {s s' : Sender} {given earlier : List Bytes}

/-- What is still to be written. The front stays in the queue until its write is done. -/
def unwritten (s : Sender) : List Bytes :=
  if s.writes = 0 ∧ (0 < s.operations ∨ s.sendQueueBusy = false) then s.sendQueue else s.sendQueue.tail

/-- A write is a line with its end. -/
def Frames (text line : Bytes) : Prop := ∃ carried, Carries carried line ∧ text = carried ++ crlf

/-- A reconnect finds no operation of the queue under way. -/
def Unhurried (s : Sender) : Event → Prop
  | .reconnect => s.operations = 0
  | _ => True

/-- The lines that come to the strand. A handshake brings the login. -/
def offered (s : Sender) : Event → List Bytes
  | .post (.sendIRC line) => [line]
  | .handshake false => s.loginLines
  | _ => []

/-- What was written on a connection that ends with the handshake of the next. -/
def archived (s : Sender) : Event → List Bytes
  | .handshake false => s.written
  | _ => []

/-- Of the lines given, those written and those left are different ones. -/
structure Accounted (given earlier : List Bytes) (s : Sender) : Prop where
  single : s.operations ≤ 1
  operating : 0 < s.operations → s.sendQueueBusy = true ∧ s.sendQueue ≠ []
  books : Balanced Frames given (earlier ++ s.written) (s.unwritten ++ s.sendHandlers)

theorem unwritten_eq (nothing : s.writes = 0) (working : 0 < s.operations ∨ s.sendQueueBusy = false) :
    s.unwritten = s.sendQueue := if_pos ⟨nothing, working⟩

theorem unwritten_writing (writing : 0 < s.writes) : s.unwritten = s.sendQueue.tail :=
  if_neg fun both => Nat.ne_of_gt writing both.1

theorem unwritten_stopped (idle : s.operations = 0) (busy : s.sendQueueBusy = true) :
    s.unwritten = s.sendQueue.tail := by
  refine if_neg fun both => ?_
  rcases both.2 with nonzero | free
  · exact absurd idle (Nat.ne_of_gt nonzero)
  · rw [busy] at free
    cases free

/-- Lines that are put behind the queue. -/
theorem unwritten_append (queue : s'.sendQueue = s.sendQueue ++ given) (writes : s'.writes = s.writes)
    (operations : s'.operations = s.operations) (busy : s'.sendQueueBusy = s.sendQueueBusy) :
    s'.unwritten.Sublist (s.unwritten ++ given) := by
  unfold unwritten
  rw [queue, writes, operations, busy]
  split
  · exact .refl _
  · cases s.sendQueue with
    | nil => exact List.tail_sublist given
    | cons first rest => exact .refl _

theorem Accounted.same (known : Accounted given earlier s) (same : s'.frames = s.frames)
    (operations : s'.operations = s.operations) : Accounted given earlier s' := by
  simp only [frames, Prod.mk.injEq] at same
  obtain ⟨busy, queue, writes, -, -, handlers, written⟩ := same
  have unwritten : s'.unwritten = s.unwritten := by
    unfold unwritten
    rw [queue, writes, operations, busy]
  refine ⟨operations ▸ known.single, ?_, ?_⟩
  · rw [operations, busy, queue]
    exact known.operating
  · rw [unwritten, handlers, written]
    exact known.books

theorem Accounted.emptied (idle : s.operations = 0) (queue : s.sendQueue = [])
    (books : Balanced Frames given (earlier ++ s.written) s.sendHandlers) : Accounted given earlier s := by
  refine ⟨by omega, fun nonzero => absurd idle (Nat.ne_of_gt nonzero), ?_⟩
  have nothing : s.unwritten = [] := by
    unfold unwritten
    rw [queue, List.tail_nil, ite_self]
  rw [nothing]
  exact books

theorem Accounted.idle (known : Accounted given earlier s) (free : s.sendQueueBusy = false) : s.operations = 0 := by
  by_contra nonzero
  rw [(known.operating (Nat.pos_of_ne_zero nonzero)).1] at free
  cases free

theorem frames_lineText (msg : Bytes) : Frames (s.lineText msg ++ crlf) msg :=
  ⟨s.lineText msg, carries_lineText msg, rfl⟩

/-- The front is written. -/
theorem Accounted.writeFront {msg : Bytes} {rest : List Bytes} (idle : s.operations = 0) (busy : s.sendQueueBusy = true)
    (books : Balanced Frames given (earlier ++ s.written) (msg :: rest ++ s.sendHandlers)) :
    Accounted given earlier (s.writeFront msg rest) := by
  refine ⟨?_, fun _ => ⟨busy, List.cons_ne_nil _ _⟩, ?_⟩
  · rw [operations_writeFront, idle]
  · rw [unwritten_writing (s := s.writeFront msg rest) (Nat.succ_pos _)]
    change Balanced Frames given (earlier ++ (s.written ++ [s.lineText msg ++ crlf])) (rest ++ s.sendHandlers)
    rw [← List.append_assoc]
    exact books.deliver (frames_lineText msg)

/-- The queue starts on its front, which is still to be written. -/
theorem Accounted.start {now : TimePoint} (ran : s.doSendQueue now = .ok s') (idle : s.operations = 0)
    (busy : s.sendQueueBusy = true) (queue : s.sendQueue ≠ [])
    (books : Balanced Frames given (earlier ++ s.written) (s.sendQueue ++ s.sendHandlers)) :
    Accounted given earlier s' := by
  obtain ⟨msg, rest, front⟩ := List.exists_cons_of_ne_nil queue
  rcases doSendQueue_cons now front with waits | writes
  · rw [waits] at ran
    cases ran
    have one := operations_wait idle
    have nothing : s.writes = 0 := writes_eq_zero idle
    refine ⟨Nat.le_of_eq one, fun _ => ⟨busy, queue⟩, ?_⟩
    -- While it waits for its time, the front is still to be written.
    rw [unwritten_eq (s := { s with waits := 1 }) nothing (.inl (by omega))]
    exact books
  · rw [writes] at ran
    cases ran
    rw [front] at books
    exact .writeFront idle busy books

theorem Accounted.pushHandler (known : Accounted given earlier s) {line : Bytes} {index : Nat} {now : TimePoint}
    (found : s.sendHandlers[index]? = some line)
    (ran : Sender.pushHandler line now { s with sendHandlers := s.sendHandlers.eraseIdx index } = .ok s') :
    Accounted given earlier s' := by
  obtain ⟨inside, taken⟩ := List.getElem?_eq_some_iff.mp found
  have moved : (line :: s.sendHandlers.eraseIdx index).Perm s.sendHandlers :=
    taken ▸ List.getElem_cons_eraseIdx_perm inside
  have pushed : Balanced Frames given (earlier ++ s.written) (s.unwritten ++ [line] ++ s.sendHandlers.eraseIdx index) := by
    apply known.books.drop
    rw [List.append_assoc]
    exact (moved.append_left s.unwritten).subperm
  -- A suspended strand drops the line, a busy one queues it, and one at rest starts on its queue.
  rcases pushHandler_ok ran with ⟨-, rfl⟩ | ⟨-, -, rfl⟩ | ⟨-, free, ran⟩
  · refine ⟨known.single, known.operating, known.books.drop ?_⟩
    exact ((List.eraseIdx_sublist s.sendHandlers index).append_left s.unwritten).subperm
  · refine ⟨known.single, fun nonzero => ⟨(known.operating nonzero).1, by simp⟩, pushed.drop ?_⟩
    have queued : ({ s with
        sendHandlers := s.sendHandlers.eraseIdx index
        sendQueue := s.sendQueue ++ [line]
        pushed := s.pushed ++ [line] } : Sender).unwritten.Sublist (s.unwritten ++ [line]) :=
      unwritten_append rfl rfl rfl rfl
    exact (queued.append_right _).subperm
  · have idle := known.idle free
    rw [unwritten_eq (writes_eq_zero idle) (.inr free)] at pushed
    exact .start ran idle rfl (by simp) pushed

theorem Accounted.send (known : Accounted given earlier s) (delayed : 0 < s.delayedHandlers)
    (ran : sendHandler { s with delayedHandlers := s.delayedHandlers - 1 } = .ok s') : Accounted given earlier s' := by
  have single := known.single
  have nonzero := operations_pos_of_delayed delayed
  obtain ⟨busy, nonempty⟩ := known.operating nonzero
  obtain ⟨msg, rest, front⟩ := List.exists_cons_of_ne_nil nonempty
  have books := known.books
  rw [unwritten_eq (writes_eq_zero_of_delayed single delayed) (.inl nonzero), front] at books
  rw [sendHandler_cons (s := { s with delayedHandlers := s.delayedHandlers - 1 }) front] at ran
  cases ran
  refine .writeFront ?_ busy books
  simp only [operations] at single ⊢
  omega

theorem Accounted.complete (known : Accounted given earlier s) (writing : 0 < s.writes) {ec : Bool}
    {now later : TimePoint} (ran : onSendQueue ec now later { s with writes := s.writes - 1 } = .ok s') :
    Accounted given earlier s' := by
  obtain ⟨busy, -⟩ := known.operating (operations_pos_of_writes writing)
  have done := operations_complete known.single writing
  have books := known.books
  rw [unwritten_writing writing] at books
  have stopped : Accounted given earlier { s with writes := s.writes - 1 } := by
    refine ⟨by omega, fun more => absurd done (Nat.ne_of_gt more), ?_⟩
    rw [unwritten_stopped done busy]
    exact books
  -- The strand is suspended, or the write has failed, or the queue goes on behind its front.
  rcases onSendQueue_ok ran with ⟨-, rfl⟩ | ⟨-, rfl⟩ | ⟨-, msg, rest, queue, ⟨rfl, rfl⟩ | ⟨more, ran⟩⟩
  · exact stopped.same rfl rfl
  · exact stopped
  · change s.sendQueue = [msg] at queue
    rw [queue, List.tail_cons] at books
    exact .emptied done rfl books
  · change s.sendQueue = msg :: rest at queue
    rw [queue, List.tail_cons] at books
    exact .start ran done busy more books

theorem Accounted.handshake (known : Accounted given earlier s) :
    Accounted (given ++ s.loginLines) (earlier ++ s.written) (onHandshake { s with handshakes := s.handshakes - 1 }) := by
  refine ⟨known.single, fun nonzero => ⟨(known.operating nonzero).1, by simp [onHandshake]⟩, ?_⟩
  have books := known.books.give s.loginLines
  rw [← List.append_nil (earlier ++ s.written)] at books
  -- The login is put behind what is left in the queue, and the handlers come later.
  refine books.drop ?_
  have queued : (onHandshake { s with handshakes := s.handshakes - 1 }).unwritten.Sublist (s.unwritten ++ s.loginLines) :=
    unwritten_append rfl rfl rfl rfl
  have exchanged : (s.unwritten ++ s.loginLines ++ s.sendHandlers).Perm (s.unwritten ++ s.sendHandlers ++ s.loginLines) := by
    rw [List.append_assoc, List.append_assoc]
    exact List.perm_append_comm.append_left _
  exact .trans (queued.append_right s.sendHandlers).subperm exchanged.subperm

theorem Accounted.accepted (known : Accounted given earlier s) (lines : List Bytes) :
    Accounted (given ++ lines) earlier { s with sendHandlers := s.sendHandlers ++ lines } := by
  refine ⟨known.single, known.operating, ?_⟩
  have books := known.books.give lines
  rw [List.append_assoc] at books
  exact books

/-- One case for each event. -/
theorem Accounted.step (known : Accounted given earlier s) {event : Event} (unhurried : s.Unhurried event)
    (ran : s.step event = some s') : Accounted (given ++ s.offered event) (earlier ++ s.archived event) s' := by
  have ran := step_iff.mp ran
  cases event with
  | post work =>
    cases ran
    simp only [archived, List.append_nil]
    cases work with
    | sendIRC line => exact known.accepted [line]
    | suspendWrite | shutdown | insertMessage | download | upload =>
      simp only [offered, List.append_nil]
      exact known.same rfl rfl
  | push index now =>
    simp only [offered, archived, List.append_nil]
    obtain ⟨line, found, ran⟩ := Option.map_eq_some_iff.mp ran
    exact known.pushHandler found ran
  | suspend index =>
    simp only [offered, archived, List.append_nil]
    obtain ⟨connection, -, ⟨⟩⟩ := Option.map_eq_some_iff.mp ran
    unfold suspendWriteHandler
    split
    · exact known.same rfl rfl
    · exact known.same rfl rfl
  | expire =>
    simp only [offered, archived, List.append_nil]
    obtain ⟨waiting, ⟨⟩⟩ := Option.ite_none_right_eq_some.mp ran
    exact known.same rfl (operations_expire waiting)
  | delay =>
    simp only [offered, archived, List.append_nil]
    obtain ⟨expired, ⟨⟩⟩ := Option.ite_none_right_eq_some.mp ran
    exact known.same rfl (operations_delay expired)
  | send =>
    simp only [offered, archived, List.append_nil]
    obtain ⟨delayed, ran⟩ := Option.ite_none_right_eq_some.mp ran
    exact known.send delayed (Option.some.inj ran)
  | complete ec now later =>
    simp only [offered, archived, List.append_nil]
    obtain ⟨writing, ran⟩ := Option.ite_none_right_eq_some.mp ran
    exact known.complete writing (Option.some.inj ran)
  | reconnect =>
    simp only [offered, archived, List.append_nil]
    obtain ⟨-, ran⟩ := Option.ite_none_right_eq_some.mp ran
    have ran := Option.some.inj ran
    have idle : s.operations = 0 := unhurried
    unfold reconnectHandler at ran
    split at ran
    · cases ran
      -- What waits in the queue is lost, and nothing is on its way to the server.
      exact .emptied idle rfl (known.books.drop (List.sublist_append_right s.unwritten s.sendHandlers).subperm)
    · cases ran
  | resolve ec =>
    simp only [offered, archived, List.append_nil]
    obtain ⟨-, ⟨⟩⟩ := Option.ite_none_right_eq_some.mp ran
    exact known.same rfl rfl
  | connect ec =>
    simp only [offered, archived, List.append_nil]
    obtain ⟨-, ⟨⟩⟩ := Option.ite_none_right_eq_some.mp ran
    exact known.same rfl rfl
  | handshake ec =>
    obtain ⟨-, ran⟩ := Option.ite_none_right_eq_some.mp ran
    cases ec with
    | true =>
      cases ran
      simp only [offered, archived, List.append_nil]
      exact known.same rfl rfl
    | false =>
      cases ran
      exact known.handshake

end Sender

namespace System

/-- A reconnect of the send strand finds no operation of the queue under way. -/
def Unhurried (s : System) : Event → Prop
  | .sending event => s.sender.Unhurried event
  | _ => True

/-- The lines the event brings to the send strand. -/
def offered (s : System) : Event → List Bytes
  | .handshake => s.sender.loginLines
  | event => handedOver s event

def archived (s : System) : Event → List Bytes
  | .handshake => s.sender.written
  | _ => []

def UnhurriedStep (env : Environment) (s : System) (event : Event) (s' : System) : Prop :=
  Step env s event s' ∧ Unhurried s event

/-- A run over any number of connections, with the lines that have come to the send strand, and what was written on
the connections before. -/
inductive LongRun (Going : System → Event → System → Prop) (start : System) :
    List Bytes → List Bytes → System → Prop where
  | nil : LongRun Going start [] [] start
  | snoc {given earlier : List Bytes} {s s' : System} {event : Event} : LongRun Going start given earlier s →
      Going s event s' → LongRun Going start (given ++ offered s event) (earlier ++ archived s event) s'

variable {env : Environment} {start s s' : System} {given earlier : List Bytes}

/-- One case for each party. -/
theorem accounted_step (known : s.sender.Accounted given earlier) {event : Event}
    (going : UnhurriedStep env s event s') :
    s'.sender.Accounted (given ++ offered s event) (earlier ++ archived s event) := by
  obtain ⟨step, unhurried⟩ := going
  cases step with
  | reading | start =>
    simp only [offered, handedOver, archived, List.append_nil]
    exact known
  | @sending event sender own ran =>
    have known := known.step unhurried ran
    cases event with
    | post => cases own
    | handshake ec =>
      cases ec with
      | false => cases own
      | true => exact known
    | _ => exact known
  | handshake ran _ =>
    have meets : s.sender.Unhurried (.handshake false) := trivial
    exact known.step meets ran
  | @dispatch index work posted sends =>
    have alone : s.sender.Unhurried (.post work) := trivial
    have known := known.step alone rfl
    simp only [offered, handedOver, posted]
    cases work with
    | sendIRC line | suspendWrite => exact known
    | shutdown | insertMessage | download | upload => cases sends
  | @running index event errand errand' lines found ran =>
    have brought : handedOver s (.running index event) = lines := by simp [handedOver, found, ran]
    simp only [offered, brought, archived, List.append_nil, accepted_eq]
    exact known.accepted lines

theorem Started.accounted {file : ConfigFile} (started : Started file start) : start.sender.Accounted [] [] := by
  have constructed := started.constructed
  refine .emptied ?_ constructed.sendQueue ?_
  · simp [Sender.operations, constructed.waits, constructed.expired, constructed.delayedHandlers, constructed.writes]
  · rw [started.written, constructed.sendHandlers]
    exact .nothing

theorem LongRun.accounted {file : ConfigFile} (long : LongRun (UnhurriedStep env) start given earlier s)
    (started : Started file start) : s.sender.Accounted given earlier := by
  induction long with
  | nil => exact started.accounted
  | snoc _ going known => exact accounted_step known going

/-- However often the bot connects again: what it has written, over all connections, are lines with their ends, each
for a line of its own among those that came to the send strand. So no line is written twice, and none is written that
was not asked for, as long as no reconnect overtakes an operation of the queue. -/
theorem written_once {file : ConfigFile} (started : Started file start)
    (long : LongRun (UnhurriedStep env) start given earlier s) :
    ∃ lines, List.Forall₂ Sender.Frames (earlier ++ s.sender.written) lines ∧ lines.Subperm given :=
  ((long.accounted started).books.drop List.nil_subperm).items

/-- The send strand runs on its own. -/
theorem LongRun.sending (long : LongRun (CarefulStep env) start given earlier s) {events : List Sender.Event}
    {sender : Sender} (own : ∀ event ∈ events, Own event ∧ event ≠ .reconnect)
    (ran : run Sender.step s.sender events = some sender) :
    LongRun (CarefulStep env) start given earlier { s with sender } := by
  induction events generalizing s with
  | nil =>
    cases ran
    exact long
  | cons event events ih =>
    obtain ⟨next, first, rest⟩ := Option.bind_eq_some_iff.mp ran
    obtain ⟨alone, other⟩ := own event List.mem_cons_self
    have careful : Careful s (.sending event) := by
      cases event with
      | reconnect => exact absurd rfl other
      | _ => trivial
    have longer := long.snoc ⟨.sending alone first, careful⟩
    simp only [offered, handedOver, archived, List.append_nil] at longer
    exact @ih { s with sender := next } longer (fun other member => own other (List.mem_cons_of_mem _ member)) rest

theorem LongRun.weaken {Going Going' : System → Event → System → Prop} (long : LongRun Going start given earlier s)
    (included : ∀ {s event s'}, Going s event s' → Going' s event s') : LongRun Going' start given earlier s := by
  induction long with
  | nil => exact .nil
  | snoc _ going ih => exact ih.snoc (included going)

theorem unhurried_of_careful {event : Event} (going : CarefulStep env s event s') : UnhurriedStep env s event s' := by
  refine ⟨going.1, ?_⟩
  cases event with
  | sending event =>
    cases event with
    | reconnect => exact going.2
    | _ => trivial
  | _ => trivial

/-- A posted line reaches the send strand. -/
theorem LongRun.dispatched (long : LongRun (CarefulStep env) start given earlier s) {index : Nat} {line : Bytes}
    (posted : s.bot.posted[index]? = some (.sendIRC line)) :
    LongRun (CarefulStep env) start (given ++ [line]) earlier
      { s with bot := taken s.bot index, sender := s.sender.accept (.sendIRC line) } := by
  have longer := long.snoc ⟨.dispatch posted rfl, trivial⟩
  simp only [offered, handedOver, posted, archived, List.append_nil] at longer
  exact longer

/-! The bot says hello, is told to reconnect when nothing is on its way, and says hello again. -/

def hello : List Bytes := [ascii "PASS secret", ascii "NICK saiv", ascii "JOIN #saiv"]

def helloTexts : List Bytes := hello.map (· ++ crlf)

def helloEvents : List Sender.Event := threeWrites ++ [.complete false (30 * ticksPerSecond) (40 * ticksPerSecond)]

def helloAgainEvents : List Sender.Event :=
  [.push 0 (50 * ticksPerSecond), .complete false (50 * ticksPerSecond) (60 * ticksPerSecond),
    .complete false (60 * ticksPerSecond) (70 * ticksPerSecond)]

/-- The last write is done. -/
def saidHello : Sender :=
  { connected.sender with
    lastMessageSendt := ascii "JOIN #saiv"
    lastMessageSendtTime := 30 * ticksPerSecond
    sendQueue := []
    pushed := hello
    written := helloTexts }

def toldToReconnect : BotState :=
  final (ReadStrand.onRead clipEnvironment (ascii "RECONNECT" ++ crlf) (ReadStrand.completeRead (taken connected.bot 0)))

def suspended : Sender :=
  { saidHello.accept .suspendWrite with
    suspendSend := true
    suspendHandlers := []
    reconnectHandlers := 1 }

def shakingAgain : Sender := { suspended with reconnectHandlers := 0, reconnected := 1, handshakes := 1 }

def connectedAgain : System where
  bot := final (ReadStrand.onHandshake clipEnvironment (taken toldToReconnect 2))
  sender := Sender.onHandshake { shakingAgain with handshakes := 0 }
  errands := []

theorem posted_toldToReconnect : toldToReconnect.posted[2]? = some .suspendWrite := by
  have found : toldToReconnect.posted[2]?.map Posted.isSuspendWrite = some true := by decide +kernel
  obtain ⟨work, posted, which⟩ := Option.map_eq_some_iff.mp found
  cases work with
  | suspendWrite => exact posted
  | _ => cases which

def lineOf : Posted → Option Bytes
  | .sendIRC line => some line
  | _ => none

theorem posted_connectedAgain : connectedAgain.bot.posted[2]? = some (.sendIRC (ascii "JOIN #saiv")) := by
  have found : connectedAgain.bot.posted[2]?.bind lineOf = some (ascii "JOIN #saiv") := by decide +kernel
  obtain ⟨work, posted, which⟩ := Option.bind_eq_some_iff.mp found
  cases work with
  | sendIRC line =>
    cases which
    exact posted
  | _ => cases which

/-- The first connection. -/
theorem long_saidHello : LongRun (CarefulStep clipEnvironment) sampleSystem hello []
    { connected with bot := taken connected.bot 0, sender := saidHello } := by
  let sender : Sender := { Sender.sampleSender with resolves := 0, handshakes := 1 }
  have resolved : run Sender.step sampleSystem.sender [.resolve false, .connect false] = some sender := rfl
  have connects : LongRun (CarefulStep clipEnvironment) sampleSystem [] [] { sampleSystem with sender } :=
    LongRun.nil.sending (by simp [Own]) resolved
  have meets : CarefulStep clipEnvironment { sampleSystem with sender } .handshake connected :=
    ⟨.handshake rfl .handshake, trivial⟩
  have posted : connected.bot.posted[0]? = some (.sendIRC (ascii "JOIN #saiv")) := by rfl
  have ran : run Sender.step (connected.sender.accept (.sendIRC (ascii "JOIN #saiv"))) helloEvents = some saidHello := by
    decide
  exact ((connects.snoc meets).dispatched posted).sending (by simp [helloEvents, threeWrites, Own]) ran

/-- From one connection to the next. -/
theorem long_connectedAgain : LongRun (CarefulStep clipEnvironment) sampleSystem
    (hello ++ [ascii "PASS secret", ascii "NICK saiv"]) helloTexts connectedAgain := by
  let told : System := { connected with bot := toldToReconnect, sender := saidHello }
  let handed : System := { told with bot := taken toldToReconnect 2, sender := saidHello.accept .suspendWrite }
  have reads : CarefulStep clipEnvironment { connected with bot := taken connected.bot 0, sender := saidHello }
      (.reading (.read (ascii "RECONNECT" ++ crlf))) told := ⟨.reading nofun (.read (by decide)), trivial⟩
  have dispatches : CarefulStep clipEnvironment told (.dispatch 2) handed :=
    ⟨.dispatch posted_toldToReconnect rfl, trivial⟩
  have nothing : offered told (.dispatch 2) = [] := by
    simp only [offered, handedOver, told, posted_toldToReconnect]
  have quiet := (long_saidHello.snoc reads).snoc dispatches
  rw [nothing] at quiet
  have stops := @LongRun.sending _ _ _ _ _ quiet [.suspend 0] suspended (by simp [Own]) (by decide)
  let sender : Sender := { suspended with reconnectHandlers := 0, reconnected := 1, resolves := 1 }
  -- The write is done, so the reconnect finds nothing under way.
  have reconnects : CarefulStep clipEnvironment { handed with sender := suspended } (.sending .reconnect)
      { handed with sender } := ⟨.sending trivial rfl, rfl⟩
  have resolved : run Sender.step sender [.resolve false, .connect false] = some shakingAgain := rfl
  have shakes := (stops.snoc reconnects).sending (by simp [Own]) resolved
  have meets : CarefulStep clipEnvironment { handed with sender := shakingAgain } .handshake connectedAgain :=
    ⟨.handshake rfl .handshake, trivial⟩
  exact shakes.snoc meets

theorem long_sample : ∃ s : System, LongRun (CarefulStep clipEnvironment) sampleSystem (hello ++ hello) helloTexts s ∧
    s.sender.written = helloTexts := by
  have joined := long_connectedAgain.dispatched posted_connectedAgain
  have written : (run Sender.step (connectedAgain.sender.accept (.sendIRC (ascii "JOIN #saiv")))
      helloAgainEvents).map (·.written) = some helloTexts := by decide
  obtain ⟨sender, ran, texts⟩ := Option.map_eq_some_iff.mp written
  exact ⟨_, joined.sending (by simp [helloAgainEvents, Own]) ran, texts⟩

theorem written_once_sample : ∃ s : System, s.sender.written = helloTexts ∧ ∃ lines,
    List.Forall₂ Sender.Frames (helloTexts ++ s.sender.written) lines ∧ lines.Subperm (hello ++ hello) := by
  obtain ⟨s, long, written⟩ := long_sample
  exact ⟨s, written, written_once started_sampleSystem (long.weaken unhurried_of_careful)⟩

end System

end SaivBot
