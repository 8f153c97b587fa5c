import SaivBot.Connection.Login
import SaivBot.Message.LineBreaks

/-! One line in each write.

The end of the line is put behind the front of the queue in the queue itself. A front
that has been written must therefore leave before anything is written again, and the
handlers see to that one at a time. A reconnect that leaves a wait behind breaks it.
-/

set_option autoImplicit false

namespace SaivBot
open Transition ReadBuffer DelimitedLines

namespace Sender

variable {s s' : Sender}

/-- What the strand is given has no line break, and a reconnect finds no operation of the queue under way. -/
def Settled (s : Sender) : Event → Prop
  | .post work => ∀ line, work = .sendIRC line → NoLineBreak line
  | .reconnect => s.operations = 0
  | _ => True

/-- Lines wait without their end. The front has none either, as long as it is still to be written. -/
structure Framing (s : Sender) : Prop where
  single : s.operations ≤ 1
  operating : 0 < s.operations → s.sendQueueBusy = true ∧ s.sendQueue ≠ []
  login : NoLineBreak s.password ∧ NoLineBreak s.nick
  handlers : ∀ line ∈ s.sendHandlers, NoLineBreak line
  waiting : ∀ line ∈ s.sendQueue.tail, NoLineBreak line
  front : s.writes = 0 → (0 < s.operations ∨ s.sendQueueBusy = false) →
    ∀ line ∈ s.sendQueue.head?, NoLineBreak line
  written : ∀ text ∈ s.written, OneLine text

theorem Constructed.framing (constructed : Constructed s) (login : NoLineBreak s.password ∧ NoLineBreak s.nick)
    (nothing : s.written = []) : Framing s := by
  have idle : s.operations = 0 := by
    simp [operations, constructed.waits, constructed.expired, constructed.delayedHandlers, constructed.writes]
  refine ⟨by omega, fun nonzero => absurd idle (Nat.ne_of_gt nonzero), login, ?_, ?_, ?_, ?_⟩
  · simp [constructed.sendHandlers]
  · simp [constructed.sendQueue]
  · simp [constructed.sendQueue]
  · simp [nothing]

/-- The queue, what is put into it and what has left it. -/
def frames (s : Sender) :=
  (s.sendQueueBusy, s.sendQueue, s.writes, s.password, s.nick, s.sendHandlers, s.written)

/-- A handler that leaves the queue alone. -/
theorem Framing.same (framing : Framing s) (same : s'.frames = s.frames)
    (operations : s'.operations = s.operations) : Framing s' := by
  simp only [frames, Prod.mk.injEq] at same
  obtain ⟨busy, queue, writes, password, nick, handlers, written⟩ := same
  constructor
  · rw [operations]
    exact framing.single
  · rw [operations, busy, queue]
    exact framing.operating
  · rw [password, nick]
    exact framing.login
  · rw [handlers]
    exact framing.handlers
  · rw [queue]
    exact framing.waiting
  · rw [writes, operations, busy, queue]
    exact framing.front
  · rw [written]
    exact framing.written

/-- A queue that is not busy is at rest. -/
theorem Framing.idle (framing : Framing s) (free : s.sendQueueBusy = false) : s.operations = 0 := by
  by_contra nonzero
  rw [(framing.operating (Nat.pos_of_ne_zero nonzero)).1] at free
  cases free

/-- A line is put behind the others, and is the front where there are none. -/
theorem Framing.push (framing : Framing s) {line : Bytes} (clean : NoLineBreak line) (pushed : List Bytes) :
    Framing { s with sendQueue := s.sendQueue ++ [line], pushed := pushed } := by
  refine ⟨framing.single, fun nonzero => ⟨(framing.operating nonzero).1, by simp⟩, framing.login, framing.handlers, ?_, ?_,
    framing.written⟩
  · intro other member
    cases queue : s.sendQueue with
    | nil => simp [queue] at member
    | cons first rest =>
      simp only [queue, List.cons_append, List.tail_cons, List.mem_append, List.mem_singleton] at member
      rcases member with old | rfl
      · exact framing.waiting other (by rw [queue]; exact old)
      · exact clean
  · intro nothing working other member
    cases queue : s.sendQueue with
    | nil =>
      simp only [queue, List.nil_append, List.head?_cons, Option.mem_some_iff] at member
      rwa [← member]
    | cons first rest =>
      simp only [queue, List.cons_append, List.head?_cons, Option.mem_some_iff] at member
      exact framing.front nothing working other (by simp [queue, member])

/-- The front is a line without an end, and it is written with one. -/
theorem Framing.writeFront {msg : Bytes} {rest : List Bytes} (single : s.operations = 0) (busy : s.sendQueueBusy = true)
    (login : NoLineBreak s.password ∧ NoLineBreak s.nick) (handlers : ∀ line ∈ s.sendHandlers, NoLineBreak line)
    (waiting : ∀ line ∈ msg :: rest, NoLineBreak line) (written : ∀ text ∈ s.written, OneLine text) :
    Framing (s.writeFront msg rest) := by
  have text : NoLineBreak (s.lineText msg) := by
    have suffix : NoLineBreak transparent := by decide
    have clean := waiting msg (by simp)
    unfold lineText
    split
    · exact clean_append.mpr ⟨clean, suffix⟩
    · exact clean
  refine ⟨?_, fun _ => ⟨busy, List.cons_ne_nil _ _⟩, login, handlers, ?_, fun nothing => ?_, ?_⟩
  · rw [operations_writeFront, single]
  · exact fun line member => waiting line (List.mem_cons_of_mem _ member)
  · exact absurd nothing (Nat.succ_ne_zero _)
  · intro other member
    rcases List.mem_append.mp member with old | new
    · exact written other old
    · rw [List.mem_singleton.mp new]
      exact oneLine_append_crlf.mpr text

/-- Where nothing is under way and no line has its end yet, the queue can start on its front. -/
theorem Framing.start {now : TimePoint} (ran : s.doSendQueue now = .ok s') (idle : s.operations = 0)
    (busy : s.sendQueueBusy = true) (queue : s.sendQueue ≠ []) (login : NoLineBreak s.password ∧ NoLineBreak s.nick)
    (handlers : ∀ line ∈ s.sendHandlers, NoLineBreak line) (waiting : ∀ line ∈ s.sendQueue, NoLineBreak line)
    (written : ∀ text ∈ s.written, OneLine text) : Framing s' := by
  obtain ⟨msg, rest, front⟩ := List.exists_cons_of_ne_nil queue
  rw [front] at waiting
  rcases doSendQueue_cons now front with waits | writes
  · rw [waits] at ran
    cases ran
    refine ⟨?_, fun _ => ⟨busy, queue⟩, login, handlers, ?_, fun _ _ => ?_, written⟩
    · rw [operations_wait idle]
    · intro line member
      rw [front] at member
      exact waiting line (List.mem_cons_of_mem _ member)
    · intro line member
      rw [front] at member
      exact waiting line (by simpa using Or.inl member.symm)
  · rw [writes] at ran
    cases ran
    exact Framing.writeFront idle busy login handlers waiting written

/-- The whole queue, where the front is still to be written. -/
theorem Framing.queued (framing : Framing s) (nothing : s.writes = 0)
    (working : 0 < s.operations ∨ s.sendQueueBusy = false) : ∀ line ∈ s.sendQueue, NoLineBreak line := by
  have front := framing.front nothing working
  have waiting := framing.waiting
  cases queue : s.sendQueue with
  | nil => simp
  | cons first rest =>
    rw [queue] at front waiting
    exact List.forall_mem_cons.mpr ⟨front first rfl, waiting⟩

theorem Framing.pushHandler (framing : Framing s) {line : Bytes} {now : TimePoint} (clean : NoLineBreak line)
    (ran : Sender.pushHandler line now s = .ok s') : Framing s' := by
  rcases pushHandler_ok ran with ⟨-, rfl⟩ | ⟨-, -, rfl⟩ | ⟨-, free, ran⟩
  · exact framing
  · exact framing.push clean _
  · have idle := framing.idle free
    have pushed := framing.push clean (s.pushed ++ [line])
    have nothing := writes_eq_zero idle
    exact Framing.start ran idle rfl (by simp) framing.login framing.handlers (pushed.queued nothing (.inr free))
      framing.written

theorem Framing.send (framing : Framing s) (delayed : 0 < s.delayedHandlers)
    (ran : sendHandler { s with delayedHandlers := s.delayedHandlers - 1 } = .ok s') : Framing s' := by
  have single := framing.single
  have nonzero := operations_pos_of_delayed delayed
  obtain ⟨busy, nonempty⟩ := framing.operating nonzero
  obtain ⟨msg, rest, front⟩ := List.exists_cons_of_ne_nil nonempty
  have nothing := writes_eq_zero_of_delayed single delayed
  have queued := framing.queued nothing (.inl nonzero)
  rw [front] at queued
  rw [sendHandler_cons (s := { s with delayedHandlers := s.delayedHandlers - 1 }) front] at ran
  cases ran
  refine Framing.writeFront ?_ busy framing.login framing.handlers queued framing.written
  simp only [operations] at single ⊢
  omega

theorem Framing.complete (framing : Framing s) (writing : 0 < s.writes) {ec : Bool} {now later : TimePoint}
    (ran : onSendQueue ec now later { s with writes := s.writes - 1 } = .ok s') : Framing s' := by
  have single := framing.single
  have nonzero := operations_pos_of_writes writing
  obtain ⟨busy, -⟩ := framing.operating nonzero
  have done := operations_complete single writing
  have stopped : Framing { s with writes := s.writes - 1 } := by
    refine ⟨by omega, fun more => absurd done (Nat.ne_of_gt more), framing.login, framing.handlers, framing.waiting,
      fun _ working => ?_, framing.written⟩
    -- The front has its end now, and the queue stays busy on it.
    rcases working with more | free
    · exact absurd done (Nat.ne_of_gt more)
    · exact absurd (busy.symm.trans free) (by decide)
  rcases onSendQueue_ok ran with ⟨-, rfl⟩ | ⟨-, rfl⟩ | ⟨-, msg, rest, queue, ⟨rfl, rfl⟩ | ⟨more, ran⟩⟩
  · exact stopped.same rfl rfl
  · exact stopped
  · refine ⟨stopped.single, fun more => absurd done (Nat.ne_of_gt more), framing.login, framing.handlers, ?_, ?_,
      framing.written⟩
    · simp
    · simp
  · have rests : ∀ line ∈ rest, NoLineBreak line := by
      have waiting := framing.waiting
      change s.sendQueue = msg :: rest at queue
      rwa [queue] at waiting
    exact Framing.start ran done busy more framing.login framing.handlers rests framing.written

theorem Framing.handshake (framing : Framing s) : Framing (onHandshake { s with handshakes := s.handshakes - 1 }) := by
  have pass : NoLineBreak (ascii "PASS " ++ s.password) :=
    clean_append.mpr ⟨by decide, framing.login.1⟩
  have nick : NoLineBreak (ascii "NICK " ++ s.nick) := clean_append.mpr ⟨by decide, framing.login.2⟩
  -- A connection begins without a line written on it.
  have fresh : Framing { s with written := [] } :=
    ⟨framing.single, framing.operating, framing.login, framing.handlers, framing.waiting, framing.front, nofun⟩
  apply ((fresh.push pass s.pushed).push nick s.pushed).same
  · simp [frames, Sender.onHandshake]
  · rfl

/-- One case for each event. -/
theorem Framing.step (framing : Framing s) {event : Event} (settled : s.Settled event)
    (ran : s.step event = some s') : Framing s' := by
  have ran := step_iff.mp ran
  cases event with
  | post work =>
    cases ran
    cases work with
    | sendIRC line =>
      refine ⟨framing.single, framing.operating, framing.login, ?_, framing.waiting, framing.front, framing.written⟩
      intro other member
      rcases List.mem_append.mp member with old | new
      · exact framing.handlers other old
      · rw [List.mem_singleton.mp new]
        exact settled line rfl
    | suspendWrite => exact framing.same rfl rfl
    | shutdown | insertMessage | download | upload => exact framing
  | push index now =>
    obtain ⟨line, found, ran⟩ := Option.map_eq_some_iff.mp ran
    have taken : Framing { s with sendHandlers := s.sendHandlers.eraseIdx index } :=
      ⟨framing.single, framing.operating, framing.login,
        fun other member => framing.handlers other (List.mem_of_mem_eraseIdx member), framing.waiting, framing.front,
        framing.written⟩
    exact taken.pushHandler (framing.handlers line (List.mem_of_getElem? found)) ran
  | suspend index =>
    obtain ⟨connection, -, ⟨⟩⟩ := Option.map_eq_some_iff.mp ran
    unfold suspendWriteHandler
    split
    · exact framing.same rfl rfl
    · exact framing.same rfl rfl
  | expire =>
    obtain ⟨waiting, ⟨⟩⟩ := Option.ite_none_right_eq_some.mp ran
    exact framing.same rfl (operations_expire waiting)
  | delay =>
    obtain ⟨expired, ⟨⟩⟩ := Option.ite_none_right_eq_some.mp ran
    exact framing.same rfl (operations_delay expired)
  | send =>
    obtain ⟨delayed, ran⟩ := Option.ite_none_right_eq_some.mp ran
    exact framing.send delayed (Option.some.inj ran)
  | complete ec now later =>
    obtain ⟨writing, ran⟩ := Option.ite_none_right_eq_some.mp ran
    exact framing.complete writing (Option.some.inj ran)
  | reconnect =>
    obtain ⟨-, ran⟩ := Option.ite_none_right_eq_some.mp ran
    have ran := Option.some.inj ran
    have idle : s.operations = 0 := settled
    unfold reconnectHandler at ran
    split at ran
    · cases ran
      refine ⟨framing.single, fun more => absurd idle (Nat.ne_of_gt more), framing.login, framing.handlers, ?_, ?_,
        framing.written⟩
      · simp
      · simp
    · cases ran
  | handshake ec =>
    obtain ⟨-, ran⟩ := Option.ite_none_right_eq_some.mp ran
    cases ec with
    | true =>
      cases ran
      exact framing.same rfl rfl
    | false =>
      cases ran
      exact framing.handshake
  | resolve ec =>
    obtain ⟨-, ⟨⟩⟩ := Option.ite_none_right_eq_some.mp ran
    exact framing.same rfl rfl
  | connect ec =>
    obtain ⟨-, ⟨⟩⟩ := Option.ite_none_right_eq_some.mp ran
    exact framing.same rfl rfl

/-- Two RECONNECTs before a line waits, and a second reconnect while its send_handler is posted. -/
def overtaken : List Event :=
  connectEvents ++ [.post .suspendWrite, .post .suspendWrite, .suspend 0, .suspend 0, .reconnect] ++ connectEvents ++
    [.post (.sendIRC (ascii "x")), .push 0 ticksPerSecond, .expire, .delay, .reconnect] ++ connectEvents ++
    [.post (.sendIRC (ascii "y")), .push 0 (10 * ticksPerSecond), .send]

-- The front has its end when the late handler writes it again.
example : (run step sampleSender overtaken).map (·.written) =
    some [ascii "PASS secret" ++ crlf, ascii "PASS secret" ++ crlf ++ crlf] := by decide

end Sender

end SaivBot
