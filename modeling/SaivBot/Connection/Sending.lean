import SaivBot.Bot.State
import SaivBot.Transition

/-! The send strand and the way from one connection to the next.

A line is written in up to four handlers: the posted one that pushes it, the
timer's, the posted `send_handler` and the completion of the write. A RECONNECT
suspends the strand, drops the queue and starts again with resolving the host.
The step function picks any handler that can run; nothing else orders them.
-/

set_option autoImplicit false

namespace SaivBot
open Transition

structure Sender where
  nick : Bytes
  password : Bytes
  suspendSend : Bool
  sendQueueBusy : Bool
  sendQueue : List Bytes
  lastMessageSendt : Bytes
  lastMessageSendtTime : TimePoint
  /-- Posted and not yet run: the handlers of `postSendIRC`, and of `postDoRECONNECT` with the connection
  they were posted on. -/
  sendHandlers : List Bytes
  suspendHandlers : List Nat
  /-- Posted by an expired timer and by the send queue. -/
  delayedHandlers : Nat
  reconnectHandlers : Nat
  /-- Asynchronous operations that have not completed, the timer's in two stages. -/
  waits : Nat
  expired : Nat
  writes : Nat
  resolves : Nat
  connects : Nat
  handshakes : Nat
  /-- What has happened; no handler looks at it. The number of the connection, and on it the RECONNECTs
  posted, the reconnects run, the lines pushed and the lines handed to `async_write`. -/
  connection : Nat
  requested : Nat
  reconnected : Nat
  pushed : List Bytes
  written : List Bytes
  deriving DecidableEq

namespace Sender

/-- `m_send_message_duration`: 1500 milliseconds. -/
def sendMessageDuration : Int := 3 * ticksPerSecond / 2

/-- A blank and U+206D, which makes a repeated line a new one. -/
def transparent : Bytes := [0x20, 0xE2, 0x81, 0xAD]

/-- A handler of another strand hands on its work. -/
def accept (s : Sender) : Posted → Sender
  | .sendIRC line => { s with sendHandlers := s.sendHandlers ++ [line] }
  | .suspendWrite =>
    { s with suspendHandlers := s.suspendHandlers ++ [s.connection], requested := s.requested + 1 }
  | _ => s

/-- The text of a line: not the same as the last one. -/
def lineText (s : Sender) (msg : Bytes) : Bytes :=
  if msg = s.lastMessageSendt then msg ++ transparent else msg

/-- The front of the queue is changed in place and written from there. -/
def writeFront (s : Sender) (msg : Bytes) (rest : List Bytes) : Sender :=
  { s with
    lastMessageSendt := s.lineText msg
    sendQueue := (s.lineText msg ++ crlf) :: rest
    writes := s.writes + 1
    written := s.written ++ [s.lineText msg ++ crlf] }

def sendHandler (s : Sender) : Except Fault Sender :=
  match s.sendQueue with
  | [] => .error .emptyQueue
  | msg :: rest => .ok (s.writeFront msg rest)

/-- `expires_at` cancels the waits that have not expired; their handlers throw and do nothing. -/
def doSendQueue (s : Sender) (now : TimePoint) : Except Fault Sender :=
  if now < s.lastMessageSendtTime + sendMessageDuration then .ok { s with waits := 1 }
  else s.sendHandler

/-- The handler of `postSendIRC`. -/
def pushHandler (line : Bytes) (now : TimePoint) (s : Sender) : Except Fault Sender :=
  if s.suspendSend then .ok s
  else if s.sendQueueBusy then
    .ok { s with sendQueue := s.sendQueue ++ [line], pushed := s.pushed ++ [line] }
  else
    { s with sendQueue := s.sendQueue ++ [line], pushed := s.pushed ++ [line], sendQueueBusy := true }.doSendQueue now

/-- With an error the handler throws and leaves everything as it is, the queue busy. -/
def onSendQueue (ec : Bool) (now later : TimePoint) (s : Sender) : Except Fault Sender :=
  -- The flag is looked at before the error: a failed write of a suspended strand reconnects as well.
  if s.suspendSend then .ok { s with reconnectHandlers := s.reconnectHandlers + 1 }
  else if ec then .ok s
  else
    match s.sendQueue with
    | [] => .error .emptyQueue
    | [_] => .ok { s with lastMessageSendtTime := now, sendQueue := [], sendQueueBusy := false }
    | _ :: rest => { s with lastMessageSendtTime := now, sendQueue := rest }.doSendQueue later

def suspendWriteHandler (s : Sender) : Sender :=
  -- A busy queue reconnects when its write is done. Nothing asks whether the strand is suspended already.
  if s.sendQueueBusy then { s with suspendSend := true }
  else { s with suspendSend := true, reconnectHandlers := s.reconnectHandlers + 1 }

/-- `run` starts with resolving the host. -/
def reconnectHandler (s : Sender) : Except Fault Sender :=
  -- Only the queue and its flag are reset: a wait or a posted send_handler outlives the connection.
  if s.writes = 0 then
    .ok { s with
      sendQueue := []
      sendQueueBusy := false
      resolves := s.resolves + 1
      reconnected := s.reconnected + 1 }
  else .error .destroyedWrite

/-- `onHandshake`, as far as the send strand goes. -/
def onHandshake (s : Sender) : Sender :=
  { s with
    sendQueue := s.sendQueue ++ [ascii "PASS " ++ s.password, ascii "NICK " ++ s.nick]
    suspendSend := false
    connection := s.connection + 1
    requested := 0
    reconnected := 0
    pushed := [ascii "PASS " ++ s.password, ascii "NICK " ++ s.nick]
    written := [] }

/-- What can happen next. An operation completes with or without an error; a handler reads the clock
once or twice. -/
inductive Event where
  | post (work : Posted)
  | push (index : Nat) (now : TimePoint)
  | suspend (index : Nat)
  | expire
  | delay
  | send
  | complete (ec : Bool) (now later : TimePoint)
  | reconnect
  | resolve (ec : Bool)
  | connect (ec : Bool)
  | handshake (ec : Bool)

/-- `none` where there is nothing of the kind to run. An error ends the way to a connection. -/
def outcome (s : Sender) : Event → Option (Except Fault Sender)
  | .post work => some (.ok (s.accept work))
  | .push index now =>
    s.sendHandlers[index]?.map fun line =>
      pushHandler line now { s with sendHandlers := s.sendHandlers.eraseIdx index }
  | .suspend index =>
    s.suspendHandlers[index]?.map fun _ =>
      .ok (suspendWriteHandler { s with suspendHandlers := s.suspendHandlers.eraseIdx index })
  | .expire => if 0 < s.waits then some (.ok { s with waits := s.waits - 1, expired := s.expired + 1 }) else none
  | .delay =>
    if 0 < s.expired then
      some (.ok { s with expired := s.expired - 1, delayedHandlers := s.delayedHandlers + 1 })
    else none
  | .send =>
    if 0 < s.delayedHandlers then some (sendHandler { s with delayedHandlers := s.delayedHandlers - 1 })
    else none
  | .complete ec now later =>
    if 0 < s.writes then some (onSendQueue ec now later { s with writes := s.writes - 1 }) else none
  | .reconnect =>
    if 0 < s.reconnectHandlers then
      some (reconnectHandler { s with reconnectHandlers := s.reconnectHandlers - 1 })
    else none
  | .resolve ec =>
    if 0 < s.resolves then
      some (.ok { s with resolves := s.resolves - 1, connects := s.connects + if ec then 0 else 1 })
    else none
  | .connect ec =>
    if 0 < s.connects then
      some (.ok { s with connects := s.connects - 1, handshakes := s.handshakes + if ec then 0 else 1 })
    else none
  | .handshake ec =>
    if 0 < s.handshakes then
      if ec then some (.ok { s with handshakes := s.handshakes - 1 })
      else some (.ok (onHandshake { s with handshakes := s.handshakes - 1 }))
    else none

/-- A run goes on as long as no handler runs into undefined behaviour. -/
def step (s : Sender) (event : Event) : Option Sender :=
  match s.outcome event with
  | some (.ok next) => some next
  | _ => none

/-! What the handlers do, once the queue is known. -/

variable {s : Sender}

theorem sendHandler_cons {msg : Bytes} {rest : List Bytes} (queue : s.sendQueue = msg :: rest) :
    s.sendHandler = .ok (s.writeFront msg rest) := by
  rw [sendHandler, queue]

/-- A line that is due is written at once, any other waits. -/
theorem doSendQueue_cons (now : TimePoint) {msg : Bytes} {rest : List Bytes} (queue : s.sendQueue = msg :: rest) :
    s.doSendQueue now = .ok { s with waits := 1 } ∨ s.doSendQueue now = .ok (s.writeFront msg rest) := by
  unfold doSendQueue
  split
  · exact Or.inl rfl
  · exact Or.inr (sendHandler_cons queue)

theorem step_iff {event : Event} {next : Sender} : s.step event = some next ↔ s.outcome event = some (.ok next) := by
  unfold step
  cases s.outcome event with
  | none => simp
  | some result =>
    cases result with
    | ok other => simp
    | error fault => simp

/-- What can run ends without undefined behaviour, in a state with this property. -/
def Ends (good : Sender → Prop) (result : Option (Except Fault Sender)) : Prop :=
  ∀ outcome, result = some outcome → ∃ next, outcome = .ok next ∧ good next

variable {good : Sender → Prop}

theorem ends_ok {next : Sender} (holds : good next) : Ends good (some (.ok next)) := by
  rintro _ ⟨⟩
  exact ⟨next, rfl, holds⟩

theorem ends_guarded {c : Prop} [Decidable c] {result : Option (Except Fault Sender)}
    (ends : c → Ends good result) : Ends good (if c then result else none) := by
  split
  · next holds => exact ends holds
  · rintro _ ⟨⟩

theorem ends_map {α : Type} {found : Option α} {f : α → Except Fault Sender}
    (ends : ∀ a, found = some a → Ends good (some (f a))) : Ends good (found.map f) := by
  cases found with
  | none => rintro _ ⟨⟩
  | some a => exact ends a rfl

theorem Ends.step {event : Event} {next : Sender} (ends : Ends good (s.outcome event))
    (ran : s.step event = some next) : good next := by
  obtain ⟨_, same, holds⟩ := ends _ (step_iff.mp ran)
  cases same
  exact holds

theorem Ends.sound {event : Event} (ends : Ends good (s.outcome event)) (fault : Fault) :
    s.outcome event ≠ some (.error fault) := by
  intro failed
  obtain ⟨_, same, -⟩ := ends _ failed
  cases same

/-- As the constructor and the first `run` leave it. -/
structure Constructed (s : Sender) : Prop where
  suspendSend : s.suspendSend = true
  sendQueueBusy : s.sendQueueBusy = false
  sendQueue : s.sendQueue = []
  sendHandlers : s.sendHandlers = []
  suspendHandlers : s.suspendHandlers = []
  delayedHandlers : s.delayedHandlers = 0
  reconnectHandlers : s.reconnectHandlers = 0
  waits : s.waits = 0
  expired : s.expired = 0
  writes : s.writes = 0
  resolves : s.resolves = 1
  connects : s.connects = 0
  handshakes : s.handshakes = 0
  connection : s.connection = 0
  requested : s.requested = 0
  reconnected : s.reconnected = 0

end Sender

end SaivBot
