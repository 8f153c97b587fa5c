import SaivBot.Connection.Login

/-! The time between a write and the one before it.

`onSendQueue` records when a write has completed, and `doSendQueue` waits for 1500
milliseconds from there. A strand that has been suspended reconnects instead of
recording, so the first line of the next connection is paced by an older write.
-/

set_option autoImplicit false

namespace SaivBot
open Transition

namespace Sender

/-- The clock readings of a handler, in order. -/
def Event.readings : Event → List TimePoint
  | .push _ now => [now]
  | .complete _ now later => [now, later]
  | .post _ | .suspend _ | .expire | .delay | .send | .reconnect | .resolve _ | .connect _ | .handshake _ => []

/-- A step with the instants at which its handler begins and ends. -/
structure Moment where
  event : Event
  began : TimePoint
  ended : TimePoint

/-- `next_expire` in `doSendQueue`. -/
def nextExpire (s : Sender) : TimePoint := s.lastMessageSendtTime + sendMessageDuration

/-- What `doSendQueue` sets the timer to, if it has to wait. -/
def timerSet (s : Sender) (now : TimePoint) : Option TimePoint :=
  if now < s.nextExpire then some s.nextExpire else none

/-- What a handler sets the timer to: `doSendQueue` is called for the first line of a queue and behind each
line written. -/
def expiresAt (s : Sender) : Event → Option TimePoint
  | .push _ now => if s.suspendSend = true ∨ s.sendQueueBusy = true then none else s.timerSet now
  | .complete ec now later =>
    if s.suspendSend = true ∨ ec = true ∨ s.sendQueue.length ≤ 1 then none
    else timerSet { s with lastMessageSendtTime := now } later
  | .post _ | .suspend _ | .expire | .delay | .send | .reconnect | .resolve _ | .connect _ | .handshake _ => none

/-- The send strand under a clock: the last instant, what the timer is set to, when the last write has
completed, and all writes started, each with the completion before it. -/
structure Paced where
  sender : Sender
  clock : TimePoint
  timer : TimePoint
  completion : Option TimePoint
  starts : List (Option TimePoint × TimePoint)

namespace Paced

/-- The clock does not go back, and a wait does not end before the timer expires. -/
def Timed (p : Paced) (m : Moment) : Prop :=
  (p.clock :: m.began :: (m.event.readings ++ [m.ended])).Pairwise (· ≤ ·) ∧
    match m.event with
    | .expire => p.timer ≤ m.began
    | _ => True

instance (p : Paced) (m : Moment) : Decidable (p.Timed m) :=
  match m with
  | ⟨.expire, began, _⟩ => inferInstanceAs (Decidable (_ ∧ p.timer ≤ began))
  | ⟨.post _, _, _⟩ | ⟨.push .., _, _⟩ | ⟨.suspend _, _, _⟩ | ⟨.delay, _, _⟩ | ⟨.send, _, _⟩ | ⟨.complete .., _, _⟩
  | ⟨.reconnect, _, _⟩ | ⟨.resolve _, _, _⟩ | ⟨.connect _, _, _⟩ | ⟨.handshake _, _, _⟩ =>
    inferInstanceAs (Decidable (_ ∧ True))

/-- A write has completed when its handler begins. -/
def completes (p : Paced) (m : Moment) : Option TimePoint :=
  match m.event with
  | .complete .. => some m.began
  | _ => p.completion

/-- What a handler leaves; a line it hands to `async_write` starts a write at its end. -/
def after (p : Paced) (m : Moment) (next : Sender) : Paced where
  sender := next
  clock := m.ended
  timer := (p.sender.expiresAt m.event).getD p.timer
  completion := p.completes m
  starts :=
    if next.written.length = p.sender.written.length + 1 then p.starts ++ [(p.completes m, m.ended)]
    else p.starts

/-- A step of a run in which each connection brings at most one RECONNECT. -/
def step (p : Paced) (m : Moment) : Option Paced :=
  if p.Timed m ∧ p.sender.Single m.event then (p.sender.step m.event).map (p.after m) else none

/-- Every write starts at least 1500 milliseconds behind the completion before it. -/
def Spaced (p : Paced) : Prop :=
  ∀ start ∈ p.starts, ∀ completion ∈ start.1, completion + sendMessageDuration ≤ start.2

/-- No write completes on a suspended strand. -/
def Records (p : Paced) (m : Moment) : Prop :=
  match m.event with
  | .complete .. => p.sender.suspendSend = false
  | _ => True

instance (p : Paced) (m : Moment) : Decidable (p.Records m) :=
  match m with
  | ⟨.complete .., _, _⟩ => inferInstanceAs (Decidable (_ = _))
  | ⟨.post _, _, _⟩ | ⟨.push .., _, _⟩ | ⟨.suspend _, _, _⟩ | ⟨.expire, _, _⟩ | ⟨.delay, _, _⟩ | ⟨.send, _, _⟩
  | ⟨.reconnect, _, _⟩ | ⟨.resolve _, _, _⟩ | ⟨.connect _, _, _⟩ | ⟨.handshake _, _, _⟩ =>
    inferInstanceAs (Decidable True)

def recordingStep (p : Paced) (m : Moment) : Option Paced := if p.Records m then p.step m else none

/-- Nothing has been written. -/
def start (s : Sender) (clock timer : TimePoint) : Paced := ⟨s, clock, timer, none, []⟩

theorem step_iff {p p' : Paced} {m : Moment} :
    p.step m = some p' ↔ (p.Timed m ∧ p.sender.Single m.event) ∧
      ∃ next, p.sender.step m.event = some next ∧ p.after m next = p' := by
  simp [step, Option.map_eq_some_iff]

theorem recordingStep_iff {p p' : Paced} {m : Moment} :
    p.recordingStep m = some p' ↔ p.Records m ∧ p.step m = some p' := by
  unfold recordingStep
  by_cases records : p.Records m <;> simp [records]

theorem Timed.began_le {p : Paced} {m : Moment} (timed : p.Timed m) : p.clock ≤ m.began ∧ m.began ≤ m.ended := by
  obtain ⟨sorted, -⟩ := timed
  simp only [List.pairwise_cons, List.mem_cons, List.mem_append, List.not_mem_nil, or_false] at sorted
  exact ⟨sorted.1 _ (.inl rfl), sorted.2.1 _ (.inr rfl)⟩

end Paced

/-! What the strand knows of the last completion. -/

variable {s s' : Sender} {clock timer now ended : TimePoint} {completion : Option TimePoint}

/-- A write has failed: the queue stays busy with nothing under way, and nothing is written again. -/
def Stalled (s : Sender) : Prop := s.sendQueueBusy = true ∧ s.operations = 0 ∧ s.reconnectHandlers = 0

/-- The last completion is recorded, a wait ends 1500 milliseconds behind it, and one that has ended is
that old. -/
structure Pacing (s : Sender) (clock timer : TimePoint) (completion : Option TimePoint) : Prop where
  recorded : (∀ instant ∈ completion, instant ≤ s.lastMessageSendtTime) ∨ s.Stalled
  waiting : 0 < s.waits → timer = s.nextExpire
  due : 0 < s.expired + s.delayedHandlers → s.nextExpire ≤ clock

/-- A write that starts now would start in time. -/
def Allowed (completion : Option TimePoint) (ended : TimePoint) : Prop :=
  ∀ instant ∈ completion, instant + sendMessageDuration ≤ ended

/-- What an operation of the queue looks at and moves on. -/
def pace (s : Sender) := (s.lastMessageSendtTime, s.waits, s.expired, s.delayedHandlers)

/-- A handler that leaves the timer and its stages alone. -/
theorem Pacing.same (pacing : Pacing s clock timer completion) (later : clock ≤ ended) (same : s'.pace = s.pace)
    (stalled : s.Stalled → s'.Stalled) : Pacing s' ended timer completion := by
  simp only [pace, Prod.mk.injEq] at same
  obtain ⟨last, waits, expired, delayed⟩ := same
  have next : s'.nextExpire = s.nextExpire := by rw [nextExpire, last, nextExpire]
  refine ⟨?_, ?_, ?_⟩
  · rw [last]
    exact pacing.recorded.imp id stalled
  · rw [waits, next]
    exact pacing.waiting
  · rw [expired, delayed, next]
    exact fun nonzero => le_trans (pacing.due nonzero) later

/-- A recorded completion with nothing under way. -/
theorem Pacing.idle (nothing : s.operations = 0) (recorded : ∀ instant ∈ completion, instant ≤ s.lastMessageSendtTime) :
    Pacing s clock timer completion := by
  unfold operations at nothing
  exact ⟨.inl recorded, fun nonzero => by omega, fun nonzero => by omega⟩

/-- A queue at rest waits as long as it has to, or its front is due. -/
theorem Pacing.doSendQueue (nothing : s.operations = 0)
    (recorded : ∀ instant ∈ completion, instant ≤ s.lastMessageSendtTime) (queue : s.sendQueue ≠ [])
    (read : now ≤ ended) (ran : s.doSendQueue now = .ok s') :
    Pacing s' ended ((s.timerSet now).getD timer) completion ∧
      (s'.written.length = s.written.length + 1 → Allowed completion ended) := by
  obtain ⟨msg, rest, front⟩ := List.exists_cons_of_ne_nil queue
  unfold operations at nothing
  unfold Sender.doSendQueue at ran
  by_cases early : now < s.lastMessageSendtTime + sendMessageDuration
  · rw [if_pos early] at ran
    cases ran
    have set : s.timerSet now = some s.nextExpire := if_pos early
    rw [set]
    refine ⟨⟨.inl recorded, fun _ => rfl, fun nonzero => ?_⟩, fun grown => ?_⟩
    · dsimp only at nonzero
      omega
    · dsimp only at grown
      omega
  · rw [if_neg early, sendHandler_cons front] at ran
    cases ran
    have unset : s.timerSet now = .none := if_neg early
    rw [unset]
    refine ⟨⟨.inl recorded, fun nonzero => ?_, fun nonzero => ?_⟩, fun _ instant member => ?_⟩
    · dsimp only [writeFront] at nonzero
      omega
    · dsimp only [writeFront] at nonzero
      omega
    · calc instant + sendMessageDuration
          _ ≤ s.lastMessageSendtTime + sendMessageDuration := Int.add_le_add_right (recorded instant member) _
          _ ≤ now := not_lt.mp early
          _ ≤ ended := read

/-- What a step leaves of the pacing, and when it may start a write. -/
def Paced.Kept (p : Paced) (m : Moment) (next : Sender) : Prop :=
  Pacing next m.ended (p.after m next).timer (p.completes m) ∧
    (next.written.length = p.sender.written.length + 1 → Allowed (p.completes m) m.ended)

variable {p p' : Paced} {m : Moment} {next : Sender}

theorem Paced.Kept.quiet (pacing : Pacing p.sender p.clock p.timer p.completion) (later : p.clock ≤ m.ended)
    (timer : p.sender.expiresAt m.event = none) (completes : p.completes m = p.completion)
    (same : next.pace = p.sender.pace) (stalled : p.sender.Stalled → next.Stalled)
    (written : next.written.length ≤ p.sender.written.length) : p.Kept m next := by
  refine ⟨?_, fun grown => absurd grown (by omega)⟩
  have kept := pacing.same later same stalled
  rw [completes]
  simpa only [Paced.after, timer, Option.getD_none] using kept

theorem Stalled.not_operating (stalled : s.Stalled) : ¬ 0 < s.operations := Nat.not_lt.mpr (Nat.le_of_eq stalled.2.1)

/-- An operation under way is paced by the last completion. -/
theorem Pacing.recorded_of_operating (pacing : Pacing s clock timer completion) (nonzero : 0 < s.operations) :
    ∀ instant ∈ completion, instant ≤ s.lastMessageSendtTime :=
  pacing.recorded.resolve_right fun stalled => stalled.not_operating nonzero

theorem Paced.Kept.push {index : Nat} {began : TimePoint} {line : Bytes} (ordered : Sequential p.sender)
    (pacing : Pacing p.sender p.clock p.timer p.completion) (timed : p.Timed ⟨.push index now, began, ended⟩)
    (ran : pushHandler line now { p.sender with sendHandlers := p.sender.sendHandlers.eraseIdx index } = .ok next) :
    p.Kept ⟨.push index now, began, ended⟩ next := by
  obtain ⟨started, finished⟩ := timed.began_le
  have later := le_trans started finished
  rcases pushHandler_ok ran with ⟨suspended, rfl⟩ | ⟨active, busy, rfl⟩ | ⟨active, idle, ran⟩
  · exact .quiet pacing later (if_pos (.inl suspended)) rfl rfl id (Nat.le_refl _)
  · exact .quiet pacing later (if_pos (.inr busy)) rfl rfl id (Nat.le_refl _)
  · -- Every operation keeps the queue busy, and so does a failed write.
    have nothing : p.sender.operations = 0 := by
      by_contra nonzero
      exact Bool.eq_false_iff.mp idle (ordered.operating (Nat.pos_of_ne_zero nonzero)).1
    have recorded := pacing.recorded.resolve_right fun stalled => Bool.eq_false_iff.mp idle stalled.1
    have read : now ≤ ended := by
      have sorted := timed.1
      simp only [Event.readings, List.singleton_append, List.pairwise_cons, List.mem_cons] at sorted
      exact sorted.2.2.1 _ (.inl rfl)
    have set : p.sender.expiresAt (.push index now) = p.sender.timerSet now := by
      have calls : ¬ (p.sender.suspendSend = true ∨ p.sender.sendQueueBusy = true) := by
        rintro (suspended | busy)
        · exact Bool.eq_false_iff.mp active suspended
        · exact Bool.eq_false_iff.mp idle busy
      exact if_neg calls
    have queue : p.sender.sendQueue ++ [line] ≠ [] := by simp
    unfold Kept after
    rw [set]
    exact Pacing.doSendQueue (s := { p.sender with
      sendHandlers := p.sender.sendHandlers.eraseIdx index
      sendQueue := p.sender.sendQueue ++ [line]
      pushed := p.sender.pushed ++ [line]
      sendQueueBusy := true }) nothing recorded queue read ran

theorem Paced.Kept.expire {began : TimePoint} (pacing : Pacing p.sender p.clock p.timer p.completion)
    (timed : p.Timed ⟨.expire, began, ended⟩) (waiting : 0 < p.sender.waits) :
    p.Kept ⟨.expire, began, ended⟩
      { p.sender with waits := p.sender.waits - 1, expired := p.sender.expired + 1 } := by
  have expires : p.timer ≤ began := timed.2
  have finished : began ≤ ended := timed.began_le.2
  rw [pacing.waiting waiting] at expires
  have nonzero : 0 < p.sender.operations := by
    unfold operations
    omega
  refine ⟨⟨.inl (pacing.recorded_of_operating nonzero), fun _ => pacing.waiting waiting, fun _ => ?_⟩, fun grown => ?_⟩
  · exact le_trans expires finished
  · dsimp only at grown
    omega

theorem Paced.Kept.delay {began : TimePoint} (pacing : Pacing p.sender p.clock p.timer p.completion)
    (timed : p.Timed ⟨.delay, began, ended⟩) (expired : 0 < p.sender.expired) :
    p.Kept ⟨.delay, began, ended⟩
      { p.sender with expired := p.sender.expired - 1, delayedHandlers := p.sender.delayedHandlers + 1 } := by
  obtain ⟨started, finished⟩ := timed.began_le
  have due := pacing.due (by omega)
  have nonzero : 0 < p.sender.operations := by
    unfold operations
    omega
  refine ⟨⟨.inl (pacing.recorded_of_operating nonzero), pacing.waiting, fun _ => ?_⟩, fun grown => ?_⟩
  · exact le_trans due (le_trans started finished)
  · dsimp only at grown
    omega

/-- The posted `send_handler` runs when the timer has expired, and starts a write that is due. -/
theorem Paced.Kept.send {began : TimePoint} (ordered : Sequential p.sender)
    (pacing : Pacing p.sender p.clock p.timer p.completion) (timed : p.Timed ⟨.send, began, ended⟩)
    (delayed : 0 < p.sender.delayedHandlers)
    (ran : sendHandler { p.sender with delayedHandlers := p.sender.delayedHandlers - 1 } = .ok next) :
    p.Kept ⟨.send, began, ended⟩ next := by
  obtain ⟨started, finished⟩ := timed.began_le
  have nonzero := operations_pos_of_delayed delayed
  have due : p.sender.nextExpire ≤ ended := le_trans (pacing.due (by omega)) (le_trans started finished)
  have recorded := pacing.recorded_of_operating nonzero
  obtain ⟨msg, rest, front⟩ := List.exists_cons_of_ne_nil (ordered.operating nonzero).2
  rw [sendHandler_cons (s := { p.sender with delayedHandlers := p.sender.delayedHandlers - 1 }) front] at ran
  cases ran
  refine ⟨⟨.inl recorded, pacing.waiting, fun _ => due⟩, fun _ instant member => ?_⟩
  exact le_trans (Int.add_le_add_right (recorded instant member) _) due

theorem Paced.Kept.complete {began later : TimePoint} {ec : Bool} (ordered : Sequential p.sender)
    (timed : p.Timed ⟨.complete ec now later, began, ended⟩) (active : p.sender.suspendSend = false)
    (writing : 0 < p.sender.writes)
    (ran : onSendQueue ec now later { p.sender with writes := p.sender.writes - 1 } = .ok next) :
    p.Kept ⟨.complete ec now later, began, ended⟩ next := by
  have single := ordered.single
  have nothing := operations_complete (by omega) writing
  obtain ⟨busy, nonempty⟩ := ordered.operating (operations_pos_of_writes writing)
  have sorted := timed.1
  simp only [Event.readings, List.cons_append, List.nil_append, List.pairwise_cons, List.mem_cons,
    List.not_mem_nil, or_false] at sorted
  have recorded : ∀ instant ∈ some began, instant ≤ now := by
    rintro _ ⟨⟩
    exact sorted.2.1 _ (.inl rfl)
  have up : ¬ p.sender.suspendSend = true := Bool.eq_false_iff.mp active
  unfold onSendQueue at ran
  rw [if_neg up] at ran
  cases ec with
  | true =>
    -- The handler throws, and the queue stays busy for good.
    cases ran
    refine ⟨⟨.inr ⟨busy, nothing, (ordered.active active).1⟩, fun more => ?_, fun more => ?_⟩, fun grown => ?_⟩
    · unfold operations at nothing
      dsimp only at more nothing
      omega
    · unfold operations at nothing
      dsimp only at more nothing
      omega
    · dsimp only at grown
      omega
  | false =>
    obtain ⟨msg, rest, front⟩ := List.exists_cons_of_ne_nil nonempty
    rw [if_neg Bool.false_ne_true, front] at ran
    cases rest with
    | nil =>
      cases ran
      exact ⟨.idle nothing recorded, fun grown => absurd grown (by dsimp only; omega)⟩
    | cons following others =>
      have set : p.sender.expiresAt (.complete false now later) =
          timerSet { p.sender with lastMessageSendtTime := now } later := by
        apply if_neg
        rintro (suspended | ⟨⟨⟩⟩ | short)
        · exact up suspended
        · rw [front] at short
          simp at short
      unfold Kept after
      rw [set]
      exact Pacing.doSendQueue (s := { p.sender with
        writes := p.sender.writes - 1
        lastMessageSendtTime := now
        sendQueue := following :: others }) nothing recorded (List.cons_ne_nil _ _)
        (sorted.2.2.2.1 _ rfl) ran

/-- Nothing leads from a stalled queue to the next connection. -/
theorem Stalled.not_connecting (ordered : Sequential s) (stalled : s.Stalled) : ¬ 0 < s.connecting := by
  have := (ordered.busy stalled.1).1
  omega

/-- One case for each event. -/
theorem Paced.Kept.step (ordered : Sequential p.sender) (pacing : Pacing p.sender p.clock p.timer p.completion)
    (timed : p.Timed m) (records : p.Records m) (ran : p.sender.step m.event = some next) : p.Kept m next := by
  obtain ⟨started, finished⟩ := timed.began_le
  have later := le_trans started finished
  have ran := Sender.step_iff.mp ran
  obtain ⟨event, began, ended⟩ := m
  cases event with
  | post work =>
    cases ran
    cases work <;> exact .quiet pacing later rfl rfl rfl id (Nat.le_refl _)
  | push index now =>
    obtain ⟨line, -, ran⟩ := Option.map_eq_some_iff.mp ran
    exact .push ordered pacing timed ran
  | suspend index =>
    obtain ⟨connection, -, ⟨⟩⟩ := Option.map_eq_some_iff.mp ran
    unfold suspendWriteHandler
    split
    · exact .quiet pacing later rfl rfl rfl id (Nat.le_refl _)
    · next idle => exact .quiet pacing later rfl rfl rfl (fun stalled => absurd stalled.1 idle) (Nat.le_refl _)
  | expire =>
    obtain ⟨waiting, ⟨⟩⟩ := Option.ite_none_right_eq_some.mp ran
    exact .expire pacing timed waiting
  | delay =>
    obtain ⟨expired, ⟨⟩⟩ := Option.ite_none_right_eq_some.mp ran
    exact .delay pacing timed expired
  | send =>
    obtain ⟨delayed, ran⟩ := Option.ite_none_right_eq_some.mp ran
    exact .send ordered pacing timed delayed (Option.some.inj ran)
  | complete ec now behind =>
    obtain ⟨writing, ran⟩ := Option.ite_none_right_eq_some.mp ran
    exact .complete ordered timed records writing (Option.some.inj ran)
  | reconnect =>
    obtain ⟨posted, ran⟩ := Option.ite_none_right_eq_some.mp ran
    have ran := Option.some.inj ran
    unfold reconnectHandler at ran
    split at ran
    · cases ran
      exact .quiet pacing later rfl rfl rfl (fun stalled => absurd stalled.2.2 (Nat.ne_of_gt posted)) (Nat.le_refl _)
    · cases ran
  | resolve ec =>
    obtain ⟨resolving, ⟨⟩⟩ := Option.ite_none_right_eq_some.mp ran
    have connecting : 0 < p.sender.connecting := by
      unfold connecting
      omega
    exact .quiet pacing later rfl rfl rfl (fun stalled => absurd connecting (stalled.not_connecting ordered))
      (Nat.le_refl _)
  | connect ec =>
    obtain ⟨resolving, ⟨⟩⟩ := Option.ite_none_right_eq_some.mp ran
    have connecting : 0 < p.sender.connecting := by
      unfold connecting
      omega
    exact .quiet pacing later rfl rfl rfl (fun stalled => absurd connecting (stalled.not_connecting ordered))
      (Nat.le_refl _)
  | handshake ec =>
    obtain ⟨connected, ran⟩ := Option.ite_none_right_eq_some.mp ran
    have connecting : 0 < p.sender.connecting := by
      unfold connecting
      omega
    have stalled : p.sender.Stalled → next.Stalled := fun stalled =>
      absurd connecting (stalled.not_connecting ordered)
    cases ec with
    | true =>
      cases ran
      exact .quiet pacing later rfl rfl rfl stalled (Nat.le_refl _)
    | false =>
      cases ran
      exact .quiet pacing later rfl rfl rfl stalled (Nat.zero_le _)

namespace Paced

/-- One thing at a time, the last completion recorded, and every write so far in time. -/
structure Paces (p : Paced) : Prop where
  logging : ∃ remembered, LoggingIn remembered p.sender
  pacing : Pacing p.sender p.clock p.timer p.completion
  spaced : p.Spaced

theorem Paces.step (paces : Paces p) (ran : p.recordingStep m = some p') : Paces p' := by
  obtain ⟨records, ran⟩ := recordingStep_iff.mp ran
  obtain ⟨⟨timed, single⟩, next, stepped, rfl⟩ := step_iff.mp ran
  obtain ⟨remembered, logging⟩ := paces.logging
  obtain ⟨pacing, allowed⟩ := Kept.step logging.ordered paces.pacing timed records stepped
  have session : Session.step ⟨p.sender, remembered⟩ m.event =
      some ⟨next, Session.remember ⟨p.sender, remembered⟩ m.event⟩ := by
    rw [Session.step, if_pos single, stepped]
    rfl
  refine ⟨⟨_, @LoggingIn.step ⟨p.sender, remembered⟩ _ _ logging session⟩, pacing, ?_⟩
  unfold Spaced after
  split
  · next grown =>
    -- The step has started a write.
    intro start member
    rcases List.mem_append.mp member with old | new
    · exact paces.spaced start old
    · rw [List.mem_singleton.mp new]
      exact allowed grown
  · exact paces.spaced

theorem paces_start (constructed : Constructed s) (nothing : s.written = []) (clock timer : TimePoint) :
    Paces (start s clock timer) := by
  refine ⟨⟨[], constructed.loggingIn nothing []⟩, ⟨.inl nofun, fun nonzero => ?_, fun nonzero => ?_⟩, nofun⟩
  · have nothing := constructed.waits
    dsimp only [start] at nonzero
    omega
  · have nothing := constructed.expired
    have undelayed := constructed.delayedHandlers
    dsimp only [start] at nonzero
    omega

/-- In every run in which no write completes on a suspended strand, every write starts at least 1500
milliseconds after the completion of the write before it, on whichever connection. -/
theorem writes_spaced {sender : Sender} {clock timer : TimePoint} {p : Paced} (constructed : Constructed sender)
    (nothing : sender.written = []) (reached : Reaches (Of recordingStep) (start sender clock timer) p) : p.Spaced :=
  (reached.invariant (paces_start constructed nothing clock timer) fun paces step => paces.step step).spaced

/-! A bot that sends and reconnects, at rest and in the middle of a write. -/

/-- Handlers that take no time. -/
def moments (second : Int) (events : List Event) : List Moment :=
  events.map fun event => ⟨event, second * ticksPerSecond, second * ticksPerSecond⟩

/-- Two lines, the second behind a wait. -/
def patientMoments : List Moment :=
  moments 10 (connectEvents ++ line (10 * ticksPerSecond)) ++
    moments 20 [.complete false (20 * ticksPerSecond) (20 * ticksPerSecond)] ++ moments 22 [.expire, .delay, .send]

/-- A RECONNECT while a line is written, and a line on the next connection. -/
def hastyMoments : List Moment :=
  moments 10 (connectEvents ++ line (10 * ticksPerSecond) ++ [.post .suspendWrite, .suspend 0]) ++
    moments 20 ([.complete false (20 * ticksPerSecond) (20 * ticksPerSecond), .reconnect] ++ connectEvents ++
      line (20 * ticksPerSecond))

theorem writes_spaced_sample : ∃ p, run recordingStep (start sampleSender 0 0) patientMoments = some p ∧
    p.starts = [(none, 10 * ticksPerSecond), (some (20 * ticksPerSecond), 22 * ticksPerSecond)] ∧ p.Spaced := by
  have starts : (run recordingStep (start sampleSender 0 0) patientMoments).map (·.starts) =
      some [(none, 10 * ticksPerSecond), (some (20 * ticksPerSecond), 22 * ticksPerSecond)] := by decide
  obtain ⟨p, ran, starts⟩ := Option.map_eq_some_iff.mp starts
  exact ⟨p, ran, starts, writes_spaced constructed_sampleSender rfl (reaches_of_run _ ran)⟩

theorem hasty_write : ¬ ∀ sender clock timer p, Constructed sender → sender.written = [] →
    Reaches (Of step) (start sender clock timer) p → p.Spaced := by
  intro spaced
  have starts : (run step (start sampleSender 0 0) hastyMoments).map (·.starts) =
      some [(none, 10 * ticksPerSecond), (some (20 * ticksPerSecond), 20 * ticksPerSecond)] := by decide
  obtain ⟨p, ran, starts⟩ := Option.map_eq_some_iff.mp starts
  have spaced := spaced sampleSender 0 0 p constructed_sampleSender rfl (reaches_of_run _ ran)
  unfold Spaced at spaced
  rw [starts] at spaced
  revert spaced
  decide

end Paced

end Sender

end SaivBot
