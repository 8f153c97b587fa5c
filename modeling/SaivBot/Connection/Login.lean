import SaivBot.Connection.Reconnecting

/-! The first two lines of each connection.

`m_last_message_sendt` outlives the connection. It is compared with the login line too,
so a connection made after one that has only sent its password begins with a password
that has been made a different line.
-/

set_option autoImplicit false

namespace SaivBot
open Transition

namespace Sender

variable {s s' : Sender} {remembered : Bytes}

def passLine (s : Sender) : Bytes := ascii "PASS " ++ s.password
def nickLine (s : Sender) : Bytes := ascii "NICK " ++ s.nick

/-- The login is on the wire as it was queued, once two lines are. -/
def LogsIn (s : Sender) : Prop :=
  2 ≤ s.written.length → s.written.take 2 = [s.passLine ++ crlf, s.nickLine ++ crlf]

/-- A RECONNECT is read on a connection that is there, and only one on each. -/
def Single (s : Sender) : Event → Prop
  | .post .suspendWrite => 0 < s.connection ∧ s.requested = 0
  | _ => True

instance (event : Event) : Decidable (s.Single event) :=
  match event with
  | .post .suspendWrite => inferInstanceAs (Decidable (0 < s.connection ∧ s.requested = 0))
  | .post (.sendIRC _) | .post .shutdown | .post (.insertMessage _) | .post (.download ..) | .post (.upload ..)
  | .push .. | .suspend _ | .expire | .delay | .send | .complete .. | .reconnect | .resolve _ | .connect _
  | .handshake _ => inferInstanceAs (Decidable True)

/-- The send strand, and what `m_last_message_sendt` was when the connection was made. -/
structure Session where
  sender : Sender
  remembered : Bytes

def Session.remember (session : Session) : Event → Bytes
  | .handshake false => session.sender.lastMessageSendt
  | _ => session.remembered

/-- A step of a run in which each connection brings at most one RECONNECT. -/
def Session.step (session : Session) (event : Event) : Option Session :=
  if session.sender.Single event then
    (session.sender.step event).map fun next => ⟨next, session.remember event⟩
  else none

/-- No connection is made while the last line sent is the password. -/
def Session.ForgetsLogin (session : Session) : Event → Prop
  | .handshake false => session.sender.lastMessageSendt ≠ session.sender.passLine
  | _ => True

instance (session : Session) (event : Event) : Decidable (session.ForgetsLogin event) :=
  match event with
  | .handshake false => inferInstanceAs (Decidable (_ ≠ _))
  | .handshake true | .post _ | .push .. | .suspend _ | .expire | .delay | .send | .complete .. | .reconnect
  | .resolve _ | .connect _ => inferInstanceAs (Decidable True)

def Session.forgetfulStep (session : Session) (event : Event) : Option Session :=
  if session.ForgetsLogin event then session.step event else none

/-! What the handlers of the queue do, as equations. -/

theorem pushHandler_ok {line : Bytes} {now : TimePoint} (ran : pushHandler line now s = .ok s') :
    s.suspendSend = true ∧ s' = s ∨
      s.suspendSend = false ∧ s.sendQueueBusy = true ∧
        s' = { s with sendQueue := s.sendQueue ++ [line], pushed := s.pushed ++ [line] } ∨
      s.suspendSend = false ∧ s.sendQueueBusy = false ∧
        doSendQueue { s with
          sendQueue := s.sendQueue ++ [line]
          pushed := s.pushed ++ [line]
          sendQueueBusy := true } now = .ok s' := by
  unfold pushHandler at ran
  by_cases suspended : s.suspendSend = true
  · rw [if_pos suspended] at ran
    cases ran
    exact .inl ⟨suspended, rfl⟩
  · rw [if_neg suspended] at ran
    have active := Bool.eq_false_iff.mpr suspended
    by_cases busy : s.sendQueueBusy = true
    · rw [if_pos busy] at ran
      cases ran
      exact .inr (.inl ⟨active, busy, rfl⟩)
    · rw [if_neg busy] at ran
      exact .inr (.inr ⟨active, Bool.eq_false_iff.mpr busy, ran⟩)

theorem onSendQueue_ok {ec : Bool} {now later : TimePoint} (ran : onSendQueue ec now later s = .ok s') :
    s.suspendSend = true ∧ s' = { s with reconnectHandlers := s.reconnectHandlers + 1 } ∨
      s.suspendSend = false ∧ s' = s ∨
      s.suspendSend = false ∧ ∃ msg rest, s.sendQueue = msg :: rest ∧
        (rest = [] ∧ s' = { s with lastMessageSendtTime := now, sendQueue := [], sendQueueBusy := false } ∨
          rest ≠ [] ∧ doSendQueue { s with lastMessageSendtTime := now, sendQueue := rest } later = .ok s') := by
  unfold onSendQueue at ran
  by_cases suspended : s.suspendSend = true
  · rw [if_pos suspended] at ran
    cases ran
    exact .inl ⟨suspended, rfl⟩
  · rw [if_neg suspended] at ran
    have active := Bool.eq_false_iff.mpr suspended
    cases ec with
    | true =>
      cases ran
      exact .inr (.inl ⟨active, rfl⟩)
    | false =>
      rw [if_neg Bool.false_ne_true] at ran
      cases queue : s.sendQueue with
      | nil =>
        rw [queue] at ran
        cases ran
      | cons msg rest =>
        rw [queue] at ran
        refine .inr (.inr ⟨active, msg, rest, rfl, ?_⟩)
        cases rest with
        | nil =>
          cases ran
          exact .inl ⟨rfl, rfl⟩
        | cons following others => exact .inr ⟨List.cons_ne_nil _ _, ran⟩

/-! The way of the login through the queue. -/

/-- The password as it is written: another line than the one remembered. -/
def passText (s : Sender) (remembered : Bytes) : Bytes :=
  if s.passLine = remembered then s.passLine ++ transparent else s.passLine

/-- The stages of the login while the queue works on it. -/
inductive Stage (remembered : Bytes) (s : Sender) : Prop where
  | before {rest : List Bytes} : s.written = [] → s.writes = 0 → s.lastMessageSendt = remembered →
      s.sendQueue = s.passLine :: s.nickLine :: rest → Stage remembered s
  | passing {rest : List Bytes} : s.written = [s.passText remembered ++ crlf] → 0 < s.writes →
      s.lastMessageSendt = s.passText remembered →
      s.sendQueue = (s.passText remembered ++ crlf) :: s.nickLine :: rest → Stage remembered s
  | passed {rest : List Bytes} : s.written = [s.passText remembered ++ crlf] → s.writes = 0 →
      s.lastMessageSendt = s.passText remembered → s.sendQueue = s.nickLine :: rest → Stage remembered s
  | done {rest : List Bytes} :
      s.written = (s.passText remembered ++ crlf) :: (s.nickLine ++ crlf) :: rest → Stage remembered s

/-- The lines written begin as the login does. -/
def Opens (remembered : Bytes) (s : Sender) : Prop :=
  s.written = [] ∨ s.written = [s.passText remembered ++ crlf] ∨
    ∃ rest, s.written = (s.passText remembered ++ crlf) :: (s.nickLine ++ crlf) :: rest

/-- Nothing is under way and nothing will be before the next connection. -/
def Halted (s : Sender) : Prop := s.operations = 0 ∧ (s.sendQueueBusy = true ∨ s.suspendSend = true)

theorem Stage.opens (stage : Stage remembered s) : Opens remembered s := by
  cases stage with
  | before written _ _ _ => exact .inl written
  | passing written _ _ _ => exact .inr (.inl written)
  | passed written _ _ _ => exact .inr (.inl written)
  | done written => exact .inr (.inr ⟨_, written⟩)

/-- The nick is no repetition of the password. -/
theorem nickLine_ne_passText : s.nickLine ≠ s.passText remembered := by
  have nick : ascii "NICK " = 78 :: ascii "ICK " := by decide
  have pass : ascii "PASS " = 80 :: ascii "ASS " := by decide
  unfold nickLine passText
  split
  · simp [nick, passLine, pass]
  · simp [nick, passLine, pass]

/-- The queue and the wire, and what a line is made from. -/
def login (s : Sender) := (s.sendQueue, s.writes, s.lastMessageSendt, s.password, s.nick, s.written)

theorem Stage.same (stage : Stage remembered s) (same : s'.login = s.login) : Stage remembered s' := by
  simp only [login, Prod.mk.injEq] at same
  obtain ⟨queue, writes, last, password, nick, written⟩ := same
  have pass : s'.passLine = s.passLine := by rw [passLine, password, passLine]
  have nickSame : s'.nickLine = s.nickLine := by rw [nickLine, nick, nickLine]
  have text : s'.passText remembered = s.passText remembered := by rw [passText, pass, passText]
  cases stage with
  | before nothing idle remember front =>
    exact .before (by rw [written, nothing]) (by rw [writes, idle]) (by rw [last, remember])
      (by rw [queue, front, pass, nickSame])
  | passing one busy lastText front =>
    exact .passing (by rw [written, one, text]) (by rw [writes]; exact busy) (by rw [last, lastText, text])
      (by rw [queue, front, text, nickSame])
  | passed one idle lastText front =>
    exact .passed (by rw [written, one, text]) (by rw [writes, idle]) (by rw [last, lastText, text])
      (by rw [queue, front, nickSame])
  | done both => exact .done (by rw [written, both, text, nickSame])

/-- A line is pushed behind the login. -/
theorem Stage.push (stage : Stage remembered s) (line : Bytes) (pushed : List Bytes) (busy : Bool) :
    Stage remembered { s with sendQueue := s.sendQueue ++ [line], pushed := pushed, sendQueueBusy := busy } := by
  cases stage with
  | before nothing idle remember front =>
    exact .before nothing idle remember (by change s.sendQueue ++ [line] = _; rw [front]; rfl)
  | passing one writing last front =>
    exact .passing one writing last (by change s.sendQueue ++ [line] = _; rw [front]; rfl)
  | passed one idle last front =>
    exact .passed one idle last (by change s.sendQueue ++ [line] = _; rw [front]; rfl)
  | done both => exact .done both

/-- The front is written while nothing else is. -/
theorem Stage.writeFront (stage : Stage remembered s) {msg : Bytes} {rest : List Bytes}
    (queue : s.sendQueue = msg :: rest) (nothing : s.writes = 0) : Stage remembered (s.writeFront msg rest) := by
  cases stage with
  | before nothing _ remember front =>
    rw [queue] at front
    obtain ⟨rfl, rfl⟩ := List.cons.inj front
    have text : s.lineText s.passLine = s.passText remembered := by rw [lineText, passText, remember]
    refine .passing ?_ (Nat.succ_pos _) text (by simp only [Sender.writeFront, text]; rfl)
    change s.written ++ [s.lineText s.passLine ++ crlf] = _
    rw [nothing, text]
    rfl
  | passing _ writing _ _ => omega
  | passed one _ last front =>
    rw [queue] at front
    obtain ⟨rfl, rfl⟩ := List.cons.inj front
    have text : s.lineText s.nickLine = s.nickLine := by
      rw [lineText, if_neg]
      rw [last]
      exact nickLine_ne_passText
    refine @Stage.done _ _ [] ?_
    change s.written ++ [s.lineText s.nickLine ++ crlf] = _
    rw [one, text]
    rfl
  | @done others both =>
    refine @Stage.done _ _ (others ++ [s.lineText msg ++ crlf]) ?_
    change s.written ++ [s.lineText msg ++ crlf] = _
    rw [both]
    rfl

theorem Stage.doSendQueue (stage : Stage remembered s) {now : TimePoint} (queue : s.sendQueue ≠ [])
    (nothing : s.writes = 0) (ran : s.doSendQueue now = .ok s') : Stage remembered s' := by
  obtain ⟨msg, rest, front⟩ := List.exists_cons_of_ne_nil queue
  rcases doSendQueue_cons now front with waits | writes
  · rw [waits] at ran
    cases ran
    exact stage.same rfl
  · rw [writes] at ran
    cases ran
    exact stage.writeFront front nothing

/-- The line written is taken off the queue. -/
theorem Stage.pop (stage : Stage remembered s) {msg : Bytes} {rest : List Bytes} (queue : s.sendQueue = msg :: rest)
    (one : s.writes = 1) (now : TimePoint) (busy : Bool) :
    Stage remembered
      { s with
        writes := s.writes - 1
        lastMessageSendtTime := now
        sendQueue := rest
        sendQueueBusy := busy } := by
  cases stage with
  | before _ nothing _ _ => omega
  | passing written _ last front =>
    rw [queue] at front
    obtain ⟨rfl, rfl⟩ := List.cons.inj front
    exact .passed written (by change s.writes - 1 = 0; omega) last rfl
  | passed _ nothing _ _ => omega
  | done both => exact .done both

theorem Opens.same (opens : Opens remembered s)
    (same : s'.written = s.written ∧ s'.password = s.password ∧ s'.nick = s.nick) : Opens remembered s' := by
  obtain ⟨written, password, nick⟩ := same
  have pass : s'.passLine = s.passLine := by rw [passLine, password, passLine]
  have nickSame : s'.nickLine = s.nickLine := by rw [nickLine, nick, nickLine]
  have text : s'.passText remembered = s.passText remembered := by rw [passText, pass, passText]
  unfold Opens
  rw [written, text, nickSame]
  exact opens

/-! One RECONNECT for each connection. -/

/-- The suspend handler that is posted is the one of the connection that is up. A queue is cleared before the
next connection is made. -/
structure Once (s : Sender) : Prop where
  suspends : s.suspendHandlers = [] ∨ s.suspendHandlers = [s.connection] ∧ s.suspendSend = false
  fresh : s.requested = 0 → s.suspendHandlers = [] ∧ (0 < s.connection → s.suspendSend = false)
  emptied : 0 < s.connecting → s.sendQueue = []

/-- No suspend handler comes too late. -/
theorem Once.timely (once : Once s) (event : Event) : s.Timely event := by
  cases event with
  | suspend index =>
    intro connection found
    rcases once.suspends with nothing | ⟨one, active⟩
    · simp [nothing] at found
    · have member := List.mem_of_getElem? found
      rw [one, List.mem_singleton] at member
      exact .inl ⟨active, member⟩
  | _ => trivial

/-- The flags and counters that order the connections. -/
def standing (s : Sender) := (s.suspendSend, s.requested, s.connection, s.suspendHandlers)

theorem Once.same (once : Once s) (same : s'.standing = s.standing)
    (emptied : 0 < s'.connecting → s'.sendQueue = []) : Once s' := by
  simp only [standing, Prod.mk.injEq] at same
  obtain ⟨suspendSend, requested, connection, suspends⟩ := same
  constructor
  · rw [suspends, connection, suspendSend]
    exact once.suspends
  · rw [requested, suspends, connection, suspendSend]
    exact once.fresh
  · exact emptied

/-- A queue that starts on its front leaves the connections as they are. -/
theorem standing_doSendQueue {now : TimePoint} (queue : s.sendQueue ≠ []) (ran : s.doSendQueue now = .ok s') :
    s'.standing = s.standing ∧ s'.connecting = s.connecting := by
  obtain ⟨msg, rest, front⟩ := List.exists_cons_of_ne_nil queue
  rcases doSendQueue_cons now front with waits | writes
  · rw [waits] at ran
    cases ran
    exact ⟨rfl, rfl⟩
  · rw [writes] at ran
    cases ran
    exact ⟨rfl, rfl⟩

/-- One thing at a time, one RECONNECT for each connection, and the login on its way or stopped. -/
structure LoggingIn (remembered : Bytes) (s : Sender) : Prop where
  ordered : Sequential s
  once : Once s
  opens : Opens remembered s
  going : Halted s ∨ Stage remembered s

variable {now later : TimePoint}

/-- Where an operation is under way the login goes on. -/
theorem LoggingIn.stage (logging : LoggingIn remembered s) (nonzero : 0 < s.operations) : Stage remembered s := by
  rcases logging.going with halted | stage
  · have nothing := halted.1
    omega
  · exact stage

/-- What a handler leaves when the login goes on. -/
theorem LoggingIn.ofStage (ordered : Sequential s) (once : Once s) (stage : Stage remembered s) :
    LoggingIn remembered s := ⟨ordered, once, stage.opens, .inr stage⟩

/-- What a handler leaves when neither the queue nor the wire has changed. -/
theorem LoggingIn.quiet (logging : LoggingIn remembered s) (ordered : Sequential s') (once : Once s')
    (same : s'.login = s.login) (operations : s'.operations = s.operations)
    (busy : s'.sendQueueBusy = s.sendQueueBusy) (suspended : s.suspendSend = true → s'.suspendSend = true) :
    LoggingIn remembered s' := by
  refine ⟨ordered, once, ?_, ?_⟩
  · simp only [login, Prod.mk.injEq] at same
    exact logging.opens.same ⟨same.2.2.2.2.2, same.2.2.2.1, same.2.2.2.2.1⟩
  · rcases logging.going with ⟨nothing, stopped⟩ | stage
    · refine .inl ⟨operations.trans nothing, ?_⟩
      rcases stopped with isBusy | isSuspended
      · exact .inl (busy.trans isBusy)
      · exact .inr (suspended isSuspended)
    · exact .inr (stage.same same)

theorem LoggingIn.push (logging : LoggingIn remembered s) (ordered : Sequential s') {line : Bytes}
    (ran : pushHandler line now s = .ok s') : LoggingIn remembered s' := by
  rcases pushHandler_ok ran with ⟨suspended, rfl⟩ | ⟨active, busy, rfl⟩ | ⟨active, idle, ran⟩
  · exact logging
  · have noConnect := (logging.ordered.active active).2.1
    have once : Once { s with sendQueue := s.sendQueue ++ [line], pushed := s.pushed ++ [line] } :=
      logging.once.same rfl fun connecting => absurd noConnect (Nat.ne_of_gt connecting)
    refine ⟨ordered, once, logging.opens, ?_⟩
    rcases logging.going with halted | stage
    · exact .inl halted
    · exact .inr (stage.push line _ s.sendQueueBusy)
  · have noConnect := (logging.ordered.active active).2.1
    -- An idle queue of a connection that is up is not stopped, and has nothing under way.
    have nothing : s.operations = 0 := by
      by_contra nonzero
      rw [(logging.ordered.operating (Nat.pos_of_ne_zero nonzero)).1] at idle
      cases idle
    have noWrite := writes_eq_zero nothing
    have stage : Stage remembered s := by
      rcases logging.going with ⟨-, busy | suspended⟩ | stage
      · rw [idle] at busy
        cases busy
      · rw [active] at suspended
        cases suspended
      · exact stage
    have queue : s.sendQueue ++ [line] ≠ [] := by simp
    obtain ⟨same, connecting⟩ := standing_doSendQueue queue ran
    refine .ofStage ordered (logging.once.same same fun nonzero => ?_)
      ((stage.push line _ true).doSendQueue queue noWrite ran)
    rw [connecting] at nonzero
    exact absurd noConnect (Nat.ne_of_gt nonzero)

theorem LoggingIn.suspend (logging : LoggingIn remembered s) {index connection : Nat}
    (found : s.suspendHandlers[index]? = some connection)
    (ordered : Sequential (suspendWriteHandler { s with suspendHandlers := s.suspendHandlers.eraseIdx index })) :
    LoggingIn remembered (suspendWriteHandler { s with suspendHandlers := s.suspendHandlers.eraseIdx index }) := by
  have asked : s.requested ≠ 0 := by
    intro nothing
    simp [(logging.once.fresh nothing).1] at found
  have only : s.suspendHandlers.eraseIdx index = [] := by
    rcases logging.once.suspends with nothing | ⟨one, -⟩
    · simp [nothing] at found
    · rw [one] at found ⊢
      cases index with
      | zero => rfl
      | succ index => simp at found
  rw [only] at ordered ⊢
  have taken : Once (suspendWriteHandler { s with suspendHandlers := [] }) := by
    unfold suspendWriteHandler
    split
    · exact ⟨.inl rfl, fun nothing => absurd nothing asked, logging.once.emptied⟩
    · exact ⟨.inl rfl, fun nothing => absurd nothing asked, logging.once.emptied⟩
  apply logging.quiet ordered taken
  · unfold suspendWriteHandler
    split <;> rfl
  · unfold suspendWriteHandler
    split <;> rfl
  · unfold suspendWriteHandler
    split <;> rfl
  · intro _
    unfold suspendWriteHandler
    split <;> rfl

theorem LoggingIn.send (logging : LoggingIn remembered s) (delayed : 0 < s.delayedHandlers) (ordered : Sequential s')
    (ran : sendHandler { s with delayedHandlers := s.delayedHandlers - 1 } = .ok s') : LoggingIn remembered s' := by
  have single := logging.ordered.single
  have nonzero := operations_pos_of_delayed delayed
  obtain ⟨msg, rest, front⟩ := List.exists_cons_of_ne_nil (logging.ordered.operating nonzero).2
  rw [sendHandler_cons (s := { s with delayedHandlers := s.delayedHandlers - 1 }) front] at ran
  cases ran
  have noWrite : s.writes = 0 := writes_eq_zero_of_delayed (by omega) delayed
  have taken : Stage remembered { s with delayedHandlers := s.delayedHandlers - 1 } := (logging.stage nonzero).same rfl
  refine .ofStage ordered (logging.once.same rfl fun connecting => ?_) (taken.writeFront front noWrite)
  change 0 < s.connecting at connecting
  omega

theorem LoggingIn.complete (logging : LoggingIn remembered s) (writing : 0 < s.writes) {ec : Bool}
    (ordered : Sequential s') (ran : onSendQueue ec now later { s with writes := s.writes - 1 } = .ok s') :
    LoggingIn remembered s' := by
  have single := logging.ordered.single
  have nonzero := operations_pos_of_writes writing
  have one : s.writes = 1 := writes_eq_one (by omega) writing
  have nothing := operations_complete (by omega) writing
  have noConnect : s.connecting = 0 := by omega
  have stage := logging.stage nonzero
  have busy := (logging.ordered.operating nonzero).1
  rcases onSendQueue_ok ran with ⟨suspended, rfl⟩ | ⟨active, rfl⟩ | ⟨active, msg, rest, queue, ⟨rfl, rfl⟩ | ⟨more, ran⟩⟩
  · refine ⟨ordered, logging.once.same rfl fun connecting => ?_, logging.opens, .inl ⟨nothing, .inr suspended⟩⟩
    exact absurd noConnect (Nat.ne_of_gt connecting)
  · -- An error ends the writing on this connection: the queue stays busy.
    refine ⟨ordered, logging.once.same rfl fun connecting => ?_, logging.opens, .inl ⟨nothing, .inl busy⟩⟩
    exact absurd noConnect (Nat.ne_of_gt connecting)
  · refine .ofStage ordered (logging.once.same rfl fun connecting => ?_) (stage.pop queue one now false)
    exact absurd noConnect (Nat.ne_of_gt connecting)
  · obtain ⟨same, connecting⟩ := standing_doSendQueue more ran
    have popped := stage.pop queue one now s.sendQueueBusy
    have idle : s.writes - 1 = 0 := by omega
    refine .ofStage ordered (logging.once.same same fun nonzero => ?_) (popped.doSendQueue more idle ran)
    rw [connecting] at nonzero
    exact absurd noConnect (Nat.ne_of_gt nonzero)

theorem LoggingIn.reconnect (logging : LoggingIn remembered s) (posted : 0 < s.reconnectHandlers)
    (ordered : Sequential s')
    (ran : reconnectHandler { s with reconnectHandlers := s.reconnectHandlers - 1 } = .ok s') :
    LoggingIn remembered s' := by
  have single := logging.ordered.single
  have nothing : s.operations = 0 := by omega
  have down : s.suspendSend = true := by
    by_contra up
    have := (logging.ordered.active (Bool.eq_false_iff.mpr up)).1
    omega
  unfold reconnectHandler at ran
  split at ran
  · cases ran
    exact ⟨ordered, logging.once.same rfl fun _ => rfl, logging.opens, .inl ⟨nothing, .inr down⟩⟩
  · cases ran

/-- The next connection begins with the login in an empty queue. -/
theorem LoggingIn.handshake (logging : LoggingIn remembered s) (connected : 0 < s.handshakes)
    (ordered : Sequential (onHandshake { s with handshakes := s.handshakes - 1 })) :
    LoggingIn s.lastMessageSendt (onHandshake { s with handshakes := s.handshakes - 1 }) := by
  have single := logging.ordered.single
  have nonzero : 0 < s.connecting := by
    unfold connecting
    omega
  have noWrite : s.writes = 0 := writes_eq_zero (by omega)
  have down : s.suspendSend = true := by
    by_contra up
    have := (logging.ordered.active (Bool.eq_false_iff.mpr up)).2.1
    omega
  have nothing : s.suspendHandlers = [] := by
    rcases logging.once.suspends with nothing | ⟨-, up⟩
    · exact nothing
    · rw [down] at up
      cases up
  refine .ofStage ordered ⟨.inl nothing, fun _ => ⟨nothing, fun _ => rfl⟩, fun more => ?_⟩ ?_
  · simp only [connecting, onHandshake] at single more
    omega
  · refine @Stage.before _ _ [] rfl noWrite rfl ?_
    change s.sendQueue ++ [_, _] = _
    rw [logging.once.emptied nonzero]
    rfl

theorem LoggingIn.post (logging : LoggingIn remembered s) {work : Posted} (single : s.Single (.post work))
    (ordered : Sequential (s.accept work)) : LoggingIn remembered (s.accept work) := by
  cases work with
  | suspendWrite =>
    obtain ⟨connected, first⟩ := single
    obtain ⟨nothing, up⟩ := logging.once.fresh first
    have once : Once (s.accept .suspendWrite) := by
      refine ⟨.inr ⟨?_, up connected⟩, fun zero => absurd zero (Nat.succ_ne_zero _), logging.once.emptied⟩
      change s.suspendHandlers ++ [s.connection] = _
      rw [nothing]
      rfl
    exact logging.quiet ordered once rfl rfl rfl id
  | sendIRC line => exact logging.quiet ordered (logging.once.same rfl logging.once.emptied) rfl rfl rfl id
  | shutdown | insertMessage | download | upload => exact logging

/-- One case for each event. Only a handshake changes what is remembered. -/
theorem LoggingIn.step {session session' : Session} {event : Event}
    (logging : LoggingIn session.remembered session.sender) (ran : session.step event = some session') :
    LoggingIn session'.remembered session'.sender := by
  obtain ⟨sender, remembered⟩ := session
  unfold Session.step at ran
  split at ran
  · next single =>
    obtain ⟨s', stepped, rfl⟩ := Option.map_eq_some_iff.mp ran
    have ordered := logging.ordered.step (timelyStep_iff.mpr ⟨logging.once.timely event, stepped⟩)
    have ran := step_iff.mp stepped
    dsimp only at logging ran single ordered ⊢
    cases event with
    | post work =>
      cases ran
      exact logging.post single ordered
    | push index now =>
      obtain ⟨line, found, ran⟩ := Option.map_eq_some_iff.mp ran
      have taken : LoggingIn remembered { sender with sendHandlers := sender.sendHandlers.eraseIdx index } :=
        logging.quiet (logging.ordered.advance rfl (Nat.le_refl _) (Nat.le_refl _) id)
          (logging.once.same rfl logging.once.emptied) rfl rfl rfl id
      exact taken.push ordered ran
    | suspend index =>
      obtain ⟨connection, found, ⟨⟩⟩ := Option.map_eq_some_iff.mp ran
      exact logging.suspend found ordered
    | expire =>
      obtain ⟨waiting, ⟨⟩⟩ := Option.ite_none_right_eq_some.mp ran
      exact logging.quiet ordered (logging.once.same rfl logging.once.emptied) rfl (operations_expire waiting) rfl id
    | delay =>
      obtain ⟨expired, ⟨⟩⟩ := Option.ite_none_right_eq_some.mp ran
      exact logging.quiet ordered (logging.once.same rfl logging.once.emptied) rfl (operations_delay expired) rfl id
    | send =>
      obtain ⟨delayed, ran⟩ := Option.ite_none_right_eq_some.mp ran
      exact logging.send delayed ordered (Option.some.inj ran)
    | complete ec now later =>
      obtain ⟨writing, ran⟩ := Option.ite_none_right_eq_some.mp ran
      exact logging.complete writing ordered (Option.some.inj ran)
    | reconnect =>
      obtain ⟨posted, ran⟩ := Option.ite_none_right_eq_some.mp ran
      exact logging.reconnect posted ordered (Option.some.inj ran)
    | resolve ec =>
      obtain ⟨resolving, ⟨⟩⟩ := Option.ite_none_right_eq_some.mp ran
      refine logging.quiet ordered (logging.once.same rfl fun nonzero => logging.once.emptied ?_) rfl rfl rfl id
      simp only [connecting] at nonzero ⊢
      cases ec <;> simp only [Bool.false_eq_true, ↓reduceIte] at nonzero <;> omega
    | connect ec =>
      obtain ⟨resolving, ⟨⟩⟩ := Option.ite_none_right_eq_some.mp ran
      refine logging.quiet ordered (logging.once.same rfl fun nonzero => logging.once.emptied ?_) rfl rfl rfl id
      simp only [connecting] at nonzero ⊢
      cases ec <;> simp only [Bool.false_eq_true, ↓reduceIte] at nonzero <;> omega
    | handshake ec =>
      obtain ⟨connected, ran⟩ := Option.ite_none_right_eq_some.mp ran
      cases ec with
      | true =>
        cases ran
        refine logging.quiet ordered (logging.once.same rfl fun nonzero => logging.once.emptied ?_) rfl rfl rfl id
        simp only [connecting] at nonzero ⊢
        omega
      | false =>
        cases ran
        exact logging.handshake connected ordered
  · cases ran

/-- A constructed sender has written nothing. -/
theorem Constructed.loggingIn (constructed : Constructed s) (nothing : s.written = []) (remembered : Bytes) :
    LoggingIn remembered s := by
  refine ⟨constructed.sequential, ⟨.inl constructed.suspendHandlers, fun _ => ⟨constructed.suspendHandlers, ?_⟩, ?_⟩,
    .inl nothing, .inl ⟨?_, .inr constructed.suspendSend⟩⟩
  · simp [constructed.connection]
  · exact fun _ => constructed.sendQueue
  · simp [operations, constructed.waits, constructed.expired, constructed.delayedHandlers, constructed.writes]

/-- Two lines on the wire are the login exactly when the connection was not made with the password line in
memory. -/
theorem LoggingIn.two_lines (logging : LoggingIn remembered s) (two : 2 ≤ s.written.length) :
    s.written.take 2 = [s.passLine ++ crlf, s.nickLine ++ crlf] ↔ s.passLine ≠ remembered := by
  rcases logging.opens with nothing | one | ⟨rest, both⟩
  · simp [nothing] at two
  · simp [one] at two
  · rw [both]
    unfold passText
    split
    · next same => simp [same, transparent, crlf]
    · next other => simp [other]

/-- No connection has been made yet. -/
def Session.start (s : Sender) : Session := ⟨s, []⟩

theorem logging_in_reached {start : Sender} {session : Session} (constructed : Constructed start)
    (nothing : start.written = []) (reached : Reaches (Of Session.step) (Session.start start) session) :
    LoggingIn session.remembered session.sender :=
  @Reaches.invariant _ _ _ _ _ (fun session => LoggingIn session.remembered session.sender) reached
    (constructed.loggingIn nothing _) fun logging step => logging.step step

/-- In every state of every run in which each connection brings at most one RECONNECT. -/
theorem logs_in_iff {start : Sender} {session : Session} (constructed : Constructed start)
    (nothing : start.written = []) (reached : Reaches (Of Session.step) (Session.start start) session) :
    LogsIn session.sender ↔ (2 ≤ session.sender.written.length → session.sender.passLine ≠ session.remembered) :=
  forall_congr' fun two => (logging_in_reached constructed nothing reached).two_lines two

/-! Runs in which no connection is made with the password line in memory. -/

theorem password_doSendQueue (ran : s.doSendQueue now = .ok s') : s'.password = s.password := by
  unfold doSendQueue sendHandler at ran
  split at ran
  · cases ran
    rfl
  · split at ran
    · cases ran
    · cases ran
      rfl

/-- No handler touches the password. -/
theorem password_step {event : Event} (ran : s.step event = some s') : s'.password = s.password := by
  have ran := step_iff.mp ran
  cases event with
  | post work =>
    cases ran
    cases work <;> rfl
  | push index now =>
    obtain ⟨line, -, ran⟩ := Option.map_eq_some_iff.mp ran
    rcases pushHandler_ok ran with ⟨-, rfl⟩ | ⟨-, -, rfl⟩ | ⟨-, -, ran⟩
    · rfl
    · rfl
    · have same := password_doSendQueue ran
      exact same
  | suspend index =>
    obtain ⟨connection, -, ⟨⟩⟩ := Option.map_eq_some_iff.mp ran
    unfold suspendWriteHandler
    split <;> rfl
  | send =>
    obtain ⟨-, ran⟩ := Option.ite_none_right_eq_some.mp ran
    have ran := Option.some.inj ran
    unfold sendHandler at ran
    split at ran
    · cases ran
    · cases ran
      rfl
  | complete ec now later =>
    obtain ⟨-, ran⟩ := Option.ite_none_right_eq_some.mp ran
    rcases onSendQueue_ok (Option.some.inj ran) with ⟨-, rfl⟩ | ⟨-, rfl⟩ | ⟨-, msg, rest, -, ⟨-, rfl⟩ | ⟨-, ran⟩⟩
    · rfl
    · rfl
    · rfl
    · have same := password_doSendQueue ran
      exact same
  | reconnect =>
    obtain ⟨-, ran⟩ := Option.ite_none_right_eq_some.mp ran
    have ran := Option.some.inj ran
    unfold reconnectHandler at ran
    split at ran
    · cases ran
      rfl
    · cases ran
  | handshake ec =>
    obtain ⟨-, ran⟩ := Option.ite_none_right_eq_some.mp ran
    cases ec <;> cases ran <;> rfl
  | expire | delay | resolve | connect =>
    obtain ⟨-, ⟨⟩⟩ := Option.ite_none_right_eq_some.mp ran
    rfl

theorem forgetfulStep_iff {session session' : Session} {event : Event} :
    session.forgetfulStep event = some session' ↔ session.ForgetsLogin event ∧ session.step event = some session' := by
  unfold Session.forgetfulStep
  by_cases forgets : session.ForgetsLogin event <;> simp [forgets]

theorem forgets_step {session session' : Session} {event : Event}
    (forgets : session.sender.passLine ≠ session.remembered)
    (ran : session.forgetfulStep event = some session') : session'.sender.passLine ≠ session'.remembered := by
  obtain ⟨careful, ran⟩ := forgetfulStep_iff.mp ran
  unfold Session.step at ran
  split at ran
  · obtain ⟨s', stepped, rfl⟩ := Option.map_eq_some_iff.mp ran
    have pass : s'.passLine = session.sender.passLine := by
      unfold passLine
      rw [password_step stepped]
    dsimp only
    rw [pass]
    unfold Session.remember
    split
    · exact careful.symm
    · exact forgets
  · cases ran

/-- Where no connection is made while the last line sent is the password line, every connection logs in with
the lines it has queued. -/
theorem logs_in {start : Sender} {session : Session} (constructed : Constructed start)
    (nothing : start.written = []) (reached : Reaches (Of Session.forgetfulStep) (Session.start start) session) :
    LogsIn session.sender := by
  have forgets : session.sender.passLine ≠ session.remembered := by
    refine @Reaches.invariant _ _ _ _ _ (fun session => session.sender.passLine ≠ session.remembered) reached ?_ ?_
    · have pass : ascii "PASS " = 80 :: ascii "ASS " := by decide
      simp [Session.start, passLine, pass]
    · exact fun forgets step => forgets_step forgets step
  have weaker : Reaches (Of Session.step) (Session.start start) session :=
    reached.weaken fun step => (forgetfulStep_iff.mp step).2
  exact (logs_in_iff constructed nothing weaker).mpr fun _ => forgets

/-! A RECONNECT before the first line is written, and one while the password is written. -/

def line (now : TimePoint) : List Event := [.post (.sendIRC (ascii "JOIN #saiv")), .push 0 now]

/-- The login of a connection: a line is pushed, and two are written. -/
def loginEvents (now : TimePoint) : List Event :=
  line now ++ [.complete false now (now + sendMessageDuration)]

def quietReconnect : List Event :=
  connectEvents ++ [.post .suspendWrite, .suspend 0, .reconnect] ++ connectEvents ++ loginEvents (10 * ticksPerSecond)

def hastyReconnect : List Event :=
  connectEvents ++ line (10 * ticksPerSecond) ++
    [.post .suspendWrite, .suspend 0, .complete false (10 * ticksPerSecond) (10 * ticksPerSecond), .reconnect] ++
    connectEvents ++ loginEvents (20 * ticksPerSecond)

theorem logs_in_sample : ∃ session, run Session.forgetfulStep (Session.start sampleSender) quietReconnect = some session ∧
    session.sender.written.length = 2 ∧ LogsIn session.sender := by
  have two : (run Session.forgetfulStep (Session.start sampleSender) quietReconnect).map
      (·.sender.written.length) = some 2 := by decide
  obtain ⟨session, ran, length⟩ := Option.map_eq_some_iff.mp two
  exact ⟨session, ran, length, logs_in constructed_sampleSender rfl (reaches_of_run _ ran)⟩

theorem password_repeated : ¬ ∀ start session, Constructed start → start.written = [] →
    Reaches (Of Session.step) (Session.start start) session → LogsIn session.sender := by
  intro logsIn
  have wrong : (run Session.step (Session.start sampleSender) hastyReconnect).map (·.sender.written) =
      some [ascii "PASS secret" ++ transparent ++ crlf, ascii "NICK saiv" ++ crlf] := by decide
  have lines : (run Session.step (Session.start sampleSender) hastyReconnect).map
      (fun session => (session.sender.passLine, session.sender.nickLine)) =
      some (ascii "PASS secret", ascii "NICK saiv") := by decide
  obtain ⟨session, ran, written⟩ := Option.map_eq_some_iff.mp wrong
  rw [ran] at lines
  simp only [Option.map_some, Option.some.injEq, Prod.mk.injEq] at lines
  have login := logsIn sampleSender session constructed_sampleSender rfl (reaches_of_run _ ran)
  unfold LogsIn at login
  rw [written, lines.1, lines.2] at login
  revert login
  decide

end Sender

end SaivBot
