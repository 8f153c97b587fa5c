import SaivBot.Connection.Sending

/-! Reconnecting once for each connection.

Between one connection and the next exactly one thing is in progress at a time:
an operation of the send queue, the posted reconnect, or the way to the next
connection. A suspend handler that comes too late starts a second one.
-/

set_option autoImplicit false

namespace SaivBot
open Transition

namespace Sender

variable {s s' : Sender}

/-- At most one reconnect and one write, and a reconnect only where one was requested. -/
structure Orderly (s : Sender) : Prop where
  once : s.reconnected ≤ 1
  asked : 0 < s.reconnected → 0 < s.requested
  single : s.writes ≤ 1
  /-- No queue is popped empty, and none is cleared under a write. -/
  sound : ∀ event fault, s.outcome event ≠ some (.error fault)

/-- The suspend handler that runs is the first one of the connection that is up, or it finds the strand
suspended and the queue busy. -/
def Timely (s : Sender) : Event → Prop
  | .suspend index => ∀ connection ∈ s.suspendHandlers[index]?,
      s.suspendSend = false ∧ connection = s.connection ∨ s.suspendSend = true ∧ s.sendQueueBusy = true
  | _ => True

instance (event : Event) : Decidable (s.Timely event) :=
  match event with
  | .suspend index => inferInstanceAs (Decidable (∀ connection ∈ s.suspendHandlers[index]?, _))
  | .post _ | .push .. | .expire | .delay | .send | .complete .. | .reconnect | .resolve _ | .connect _
  | .handshake _ => inferInstanceAs (Decidable True)

def timelyStep (s : Sender) (event : Event) : Option Sender := if s.Timely event then s.step event else none

theorem timelyStep_iff {event : Event} : s.timelyStep event = some s' ↔ s.Timely event ∧ s.step event = some s' := by
  unfold timelyStep
  by_cases timely : s.Timely event <;> simp [timely]

/-- The operations of the send queue, from the timer to the completed write. -/
def operations (s : Sender) : Nat := s.waits + s.expired + s.delayedHandlers + s.writes

def connecting (s : Sender) : Nat := s.resolves + s.connects + s.handshakes

/-! How the handlers of the queue change what is under way. -/

theorem operations_pos_of_delayed (delayed : 0 < s.delayedHandlers) : 0 < s.operations := by
  unfold operations
  omega

theorem operations_pos_of_writes (writing : 0 < s.writes) : 0 < s.operations := by
  unfold operations
  omega

theorem writes_eq_zero (idle : s.operations = 0) : s.writes = 0 := by
  unfold operations at idle
  omega

theorem writes_eq_zero_of_delayed (single : s.operations ≤ 1) (delayed : 0 < s.delayedHandlers) : s.writes = 0 := by
  unfold operations at single
  omega

theorem writes_eq_one (single : s.operations ≤ 1) (writing : 0 < s.writes) : s.writes = 1 := by
  unfold operations at single
  omega

/-- The timer's operation goes through its stages. -/
theorem operations_expire (waiting : 0 < s.waits) :
    operations { s with waits := s.waits - 1, expired := s.expired + 1 } = s.operations := by
  simp only [operations]
  omega

theorem operations_delay (expired : 0 < s.expired) :
    operations { s with expired := s.expired - 1, delayedHandlers := s.delayedHandlers + 1 } = s.operations := by
  simp only [operations]
  omega

theorem operations_send (delayed : 0 < s.delayedHandlers) (msg : Bytes) (rest : List Bytes) :
    (writeFront { s with delayedHandlers := s.delayedHandlers - 1 } msg rest).operations = s.operations := by
  simp only [operations, writeFront]
  omega

/-- The write that completes was the only operation. -/
theorem operations_complete (single : s.operations ≤ 1) (writing : 0 < s.writes) :
    operations { s with writes := s.writes - 1 } = 0 := by
  simp only [operations] at single ⊢
  omega

/-- A queue at rest starts with one operation, whichever it is. -/
theorem operations_wait (idle : s.operations = 0) : operations { s with waits := 1 } = 1 := by
  simp only [operations] at idle ⊢
  omega

theorem operations_writeFront (msg : Bytes) (rest : List Bytes) :
    (s.writeFront msg rest).operations = s.operations + 1 := by
  simp only [operations, writeFront]
  omega

/-- One thing at a time. -/
structure Sequential (s : Sender) : Prop where
  single : s.operations + s.reconnectHandlers + s.connecting ≤ 1
  operating : 0 < s.operations → s.sendQueueBusy = true ∧ s.sendQueue ≠ []
  busy : s.sendQueueBusy = true → s.connecting = 0 ∧ s.reconnected = 0
  active : s.suspendSend = false → s.reconnectHandlers = 0 ∧ s.connecting = 0 ∧ s.reconnected = 0
  posted : 0 < s.reconnectHandlers → s.reconnected = 0 ∧ 0 < s.requested
  stopping : s.suspendSend = true → s.sendQueueBusy = true → 0 < s.requested
  once : s.reconnected ≤ 1
  asked : 0 < s.reconnected → 0 < s.requested
  suspending : ∀ connection ∈ s.suspendHandlers,
    connection ≤ s.connection ∧ (connection = s.connection → 0 < s.requested)

theorem Constructed.sequential (constructed : Constructed s) : Sequential s := by
  obtain ⟨suspendSend, busy, queue, -, suspends, delayed, reconnects, waits, expired, writes, resolves, connects,
    handshakes, -, requested, reconnected⟩ := constructed
  constructor
  · simp [operations, connecting, delayed, reconnects, waits, expired, writes, resolves, connects, handshakes]
  · simp [operations, delayed, waits, expired, writes]
  · simp [busy]
  · simp [suspendSend]
  · simp [reconnects]
  · simp [busy]
  · simp [reconnected]
  · simp [reconnected]
  · simp [suspends]

/-- The flags and counters that order the reconnects. -/
def control (s : Sender) : Bool × Bool × Nat × Nat × Nat × Nat × List Nat :=
  (s.suspendSend, s.sendQueueBusy, s.reconnectHandlers, s.requested, s.reconnected, s.connection,
    s.suspendHandlers)

/-- An operation or the way to a connection goes on or ends. -/
theorem Sequential.advance (ordered : Sequential s) (same : s'.control = s.control)
    (operations : s'.operations ≤ s.operations) (connecting : s'.connecting ≤ s.connecting)
    (queue : s.sendQueue ≠ [] → s'.sendQueue ≠ []) : Sequential s' := by
  simp only [control, Prod.mk.injEq] at same
  obtain ⟨suspendSend, busy, reconnects, requested, reconnected, connection, suspends⟩ := same
  have single := ordered.single
  constructor
  · omega
  · intro nonzero
    rw [busy]
    obtain ⟨isBusy, nonempty⟩ := ordered.operating (by omega)
    exact ⟨isBusy, queue nonempty⟩
  · intro isBusy
    have := ordered.busy (busy ▸ isBusy)
    omega
  · intro isActive
    have := ordered.active (suspendSend ▸ isActive)
    omega
  · rw [reconnects, reconnected, requested]
    exact ordered.posted
  · rw [suspendSend, busy, requested]
    exact ordered.stopping
  · rw [reconnected]
    exact ordered.once
  · rw [reconnected, requested]
    exact ordered.asked
  · rw [suspends, connection, requested]
    exact ordered.suspending

/-- The queue of a connection that is up works on its front. -/
theorem Sequential.operate (ordered : Sequential s) (active : s.suspendSend = false)
    (busy : s.sendQueueBusy = true) (same : s'.control = s.control) (connecting : s'.connecting = s.connecting)
    (operations : s'.operations ≤ 1) (queue : s'.sendQueue ≠ []) : Sequential s' := by
  simp only [control, Prod.mk.injEq] at same
  obtain ⟨suspendSend', busy', reconnects, requested, reconnected, connection, suspends⟩ := same
  -- On a connection that is up the queue is alone, so its operation may be any one.
  obtain ⟨noReconnect, noConnect, notYet⟩ := ordered.active active
  constructor
  · omega
  · intro _
    exact ⟨busy'.trans busy, queue⟩
  · intro _
    omega
  · intro _
    omega
  · intro nonzero
    omega
  · intro suspended
    rw [suspendSend', active] at suspended
    cases suspended
  · omega
  · intro nonzero
    omega
  · rw [suspends, connection, requested]
    exact ordered.suspending

/-- A queue with nothing under way starts on its front. -/
theorem Sequential.start (ordered : Sequential s) (active : s.suspendSend = false)
    (busy : s.sendQueueBusy = true) (idle : s.operations = 0) (queue : s.sendQueue ≠ []) (now : TimePoint) :
    ∃ next, s.doSendQueue now = .ok next ∧ Sequential next := by
  obtain ⟨msg, rest, front⟩ := List.exists_cons_of_ne_nil queue
  rcases doSendQueue_cons now front with waits | writes
  · refine ⟨_, waits, ordered.operate active busy rfl rfl ?_ queue⟩
    rw [operations_wait idle]
  · refine ⟨_, writes, ordered.operate active busy rfl rfl ?_ (List.cons_ne_nil _ _)⟩
    rw [operations_writeFront, idle]

theorem Sequential.post (ordered : Sequential s) (work : Posted) : Sequential (s.accept work) := by
  cases work with
  | suspendWrite =>
    obtain ⟨single, operating, busy, active, posted, stopping, once, asked, suspending⟩ := ordered
    refine ⟨single, operating, busy, active, ?_, ?_, once, ?_, ?_⟩
    · exact fun nonzero => ⟨(posted nonzero).1, Nat.succ_pos _⟩
    · exact fun _ _ => Nat.succ_pos _
    · exact fun _ => Nat.succ_pos _
    · intro connection member
      rcases List.mem_append.mp member with old | new
      · exact ⟨(suspending connection old).1, fun _ => Nat.succ_pos _⟩
      · rw [List.mem_singleton.mp new]
        exact ⟨Nat.le_refl _, fun _ => Nat.succ_pos _⟩
  | sendIRC line => exact ordered.advance rfl (Nat.le_refl _) (Nat.le_refl _) id
  | shutdown | insertMessage | download | upload => exact ordered

theorem Sequential.push (ordered : Sequential s) (line : Bytes) (now : TimePoint) :
    Ends Sequential (some (pushHandler line now s)) := by
  unfold pushHandler
  by_cases suspended : s.suspendSend = true
  · rw [if_pos suspended]
    exact ends_ok ordered
  · rw [if_neg suspended]
    have active := Bool.eq_false_iff.mpr suspended
    by_cases busy : s.sendQueueBusy = true
    · rw [if_pos busy]
      apply ends_ok
      exact ordered.advance rfl (Nat.le_refl _) (Nat.le_refl _) fun _ => by simp
    · rw [if_neg busy]
      -- Every operation keeps the queue busy, so a queue that is not busy has none.
      have idle : s.operations = 0 := by
        by_contra nonzero
        exact busy (ordered.operating (Nat.pos_of_ne_zero nonzero)).1
      have free := ordered.active active
      have begun : Sequential
          { s with sendQueue := s.sendQueue ++ [line], pushed := s.pushed ++ [line], sendQueueBusy := true } := by
        refine ⟨ordered.single, ?_, ?_, ordered.active, ordered.posted, ?_, ordered.once, ordered.asked,
          ordered.suspending⟩
        · exact fun nonzero => absurd idle (Nat.ne_of_gt nonzero)
        · exact fun _ => ⟨free.2.1, free.2.2⟩
        · exact fun yes => absurd yes suspended
      obtain ⟨next, ran, ordered'⟩ := begun.start active rfl idle (by simp) now
      rw [ran]
      exact ends_ok ordered'

theorem Sequential.suspend (ordered : Sequential s)
    (timely : s.suspendSend = false ∧ 0 < s.requested ∨ s.suspendSend = true ∧ s.sendQueueBusy = true) :
    Sequential s.suspendWriteHandler := by
  obtain ⟨single, operating, busy, active, posted, stopping, once, asked, suspending⟩ := ordered
  unfold suspendWriteHandler
  -- The first handler on a connection that is up, or one that finds the write still to come.
  rcases timely with ⟨up, requested⟩ | ⟨suspended, isBusy⟩
  · obtain ⟨noReconnect, noConnect, notYet⟩ := active up
    by_cases isBusy : s.sendQueueBusy = true
    · rw [if_pos isBusy]
      exact ⟨single, operating, busy, nofun, posted, fun _ _ => requested, once, asked, suspending⟩
    · rw [if_neg isBusy]
      have idle : s.operations = 0 := by
        by_contra nonzero
        exact isBusy (operating (Nat.pos_of_ne_zero nonzero)).1
      refine ⟨?_, operating, busy, nofun, fun _ => ⟨notYet, requested⟩, fun _ _ => requested, once, asked,
        suspending⟩
      change s.operations + (s.reconnectHandlers + 1) + s.connecting ≤ 1
      omega
  · rw [if_pos isBusy]
    exact ⟨single, operating, busy, nofun, posted, fun _ => stopping suspended, once, asked, suspending⟩

theorem Sequential.send (ordered : Sequential s) (delayed : 0 < s.delayedHandlers) :
    Ends Sequential (some (sendHandler { s with delayedHandlers := s.delayedHandlers - 1 })) := by
  have nonzero := operations_pos_of_delayed delayed
  obtain ⟨msg, rest, front⟩ := List.exists_cons_of_ne_nil (ordered.operating nonzero).2
  rw [sendHandler_cons (s := { s with delayedHandlers := s.delayedHandlers - 1 }) front]
  apply ends_ok
  exact ordered.advance rfl (Nat.le_of_eq (operations_send delayed _ _)) (Nat.le_refl _) fun _ =>
    List.cons_ne_nil _ _

theorem Sequential.complete (ordered : Sequential s) (writing : 0 < s.writes) (ec : Bool) (now later : TimePoint) :
    Ends Sequential (some (onSendQueue ec now later { s with writes := s.writes - 1 })) := by
  have single := ordered.single
  have nonzero := operations_pos_of_writes writing
  obtain ⟨busy, nonempty⟩ := ordered.operating nonzero
  have done := operations_complete (by omega) writing
  unfold onSendQueue
  by_cases suspended : s.suspendSend = true
  · -- The write was the operation; the reconnect takes its place.
    rw [if_pos suspended]
    obtain ⟨noConnect, notYet⟩ := ordered.busy busy
    apply ends_ok
    refine ⟨?_, ?_, ordered.busy, ?_, ?_, ordered.stopping, ordered.once, ordered.asked, ordered.suspending⟩
    · change operations { s with writes := s.writes - 1 } + (s.reconnectHandlers + 1) + s.connecting ≤ 1
      omega
    · exact fun more => absurd done (Nat.ne_of_gt more)
    · exact fun up => absurd suspended (Bool.eq_false_iff.mp up)
    · exact fun _ => ⟨notYet, ordered.stopping suspended busy⟩
  · rw [if_neg suspended]
    have active := Bool.eq_false_iff.mpr suspended
    cases ec with
    | true =>
      apply ends_ok
      exact ordered.advance rfl (by omega) (Nat.le_refl _) id
    | false =>
      obtain ⟨msg, rest, front⟩ := List.exists_cons_of_ne_nil nonempty
      rw [front]
      cases rest with
      | nil =>
        apply ends_ok
        obtain ⟨noReconnect, noConnect, notYet⟩ := ordered.active active
        refine ⟨?_, fun more => absurd done (Nat.ne_of_gt more), nofun, ordered.active,
          ordered.posted, fun yes => absurd yes suspended, ordered.once, ordered.asked, ordered.suspending⟩
        change operations { s with writes := s.writes - 1 } + s.reconnectHandlers + s.connecting ≤ 1
        omega
      | cons following others =>
        have popped : Sequential
            { s with writes := s.writes - 1, lastMessageSendtTime := now, sendQueue := following :: others } :=
          ordered.advance rfl (by change operations { s with writes := s.writes - 1 } ≤ _; omega) (Nat.le_refl _)
            fun _ => List.cons_ne_nil _ _
        obtain ⟨next, ran, ordered'⟩ := popped.start active busy done (List.cons_ne_nil _ _) later
        change Ends Sequential (Option.some (doSendQueue _ later))
        rw [ran]
        exact ends_ok ordered'

theorem Sequential.reconnect (ordered : Sequential s) (posted : 0 < s.reconnectHandlers) :
    Ends Sequential (some (reconnectHandler { s with reconnectHandlers := s.reconnectHandlers - 1 })) := by
  have single := ordered.single
  obtain ⟨notYet, requested⟩ := ordered.posted posted
  -- The posted reconnect is the one thing in progress, so no write is under way.
  have nothing : s.writes = 0 := writes_eq_zero (by omega)
  unfold reconnectHandler
  rw [if_pos nothing]
  apply ends_ok
  have down : s.suspendSend = true := by
    by_contra up
    have := (ordered.active (Bool.eq_false_iff.mpr up)).1
    omega
  refine ⟨?_, ?_, nofun, ?_, ?_, fun _ => nofun, ?_, fun _ => requested,
    ordered.suspending⟩
  · simp only [operations, connecting] at single ⊢
    omega
  · intro nonzero
    simp only [operations] at single nonzero
    omega
  · exact fun up => absurd down (Bool.eq_false_iff.mp up)
  · intro nonzero
    dsimp only at nonzero
    omega
  · dsimp only
    omega

theorem Sequential.handshake (ordered : Sequential s) (connected : 0 < s.handshakes) :
    Sequential (onHandshake { s with handshakes := s.handshakes - 1 }) := by
  have single := ordered.single
  have nonzero : 0 < s.connecting := by
    unfold connecting
    omega
  have free : s.operations = 0 ∧ s.reconnectHandlers = 0 := by omega
  -- A busy queue excludes the way to a connection, which is being completed here.
  have idle : s.sendQueueBusy = false := by
    by_contra busy
    have := (ordered.busy (Bool.eq_true_of_not_eq_false busy)).1
    omega
  have last : connecting { s with handshakes := s.handshakes - 1 } = 0 := by
    simp only [connecting] at single ⊢
    omega
  refine ⟨?_, ?_, fun busy => absurd (idle.symm.trans busy) Bool.false_ne_true, fun _ => ⟨free.2, last, rfl⟩, ?_,
    nofun, Nat.zero_le _, fun more => absurd more (Nat.lt_irrefl 0), ?_⟩
  · change s.operations + s.reconnectHandlers + connecting { s with handshakes := s.handshakes - 1 } ≤ 1
    omega
  · exact fun more => absurd free.1 (Nat.ne_of_gt more)
  · exact fun more => absurd free.2 (Nat.ne_of_gt more)
  · -- Suspend handlers that are left belong to earlier connections.
    intro connection member
    have bound := (ordered.suspending connection member).1
    refine ⟨Nat.le_succ_of_le bound, fun same => ?_⟩
    change connection = s.connection + 1 at same
    omega

/-- One case for each event: what can run ends and keeps the order. -/
theorem Sequential.outcome (ordered : Sequential s) {event : Event} (timely : s.Timely event) :
    Ends Sequential (s.outcome event) := by
  cases event with
  | post work => exact ends_ok (ordered.post work)
  | push index now =>
    apply ends_map
    intro line _
    have taken : Sequential { s with sendHandlers := s.sendHandlers.eraseIdx index } :=
      ordered.advance rfl (Nat.le_refl _) (Nat.le_refl _) id
    exact taken.push line now
  | suspend index =>
    apply ends_map
    intro connection found
    have first := ordered.suspending connection (List.mem_of_getElem? found)
    -- Taking the handler off leaves the other suspensions as they were.
    have taken : Sequential { s with suspendHandlers := s.suspendHandlers.eraseIdx index } := by
      obtain ⟨single, operating, busy, active, posted, stopping, once, asked, suspending⟩ := ordered
      exact ⟨single, operating, busy, active, posted, stopping, once, asked,
        fun other member => suspending other (List.mem_of_mem_eraseIdx member)⟩
    apply ends_ok
    apply taken.suspend
    rcases timely connection found with ⟨up, current⟩ | suspended
    · exact Or.inl ⟨up, first.2 current⟩
    · exact Or.inr suspended
  | expire =>
    apply ends_guarded
    intro waiting
    apply ends_ok
    exact ordered.advance rfl (Nat.le_of_eq (operations_expire waiting)) (Nat.le_refl _) id
  | delay =>
    apply ends_guarded
    intro expired
    apply ends_ok
    exact ordered.advance rfl (Nat.le_of_eq (operations_delay expired)) (Nat.le_refl _) id
  | send => exact ends_guarded ordered.send
  | complete ec now later => exact ends_guarded fun writing => ordered.complete writing ec now later
  | reconnect => exact ends_guarded ordered.reconnect
  | resolve ec =>
    apply ends_guarded
    intro resolving
    apply ends_ok
    refine ordered.advance rfl (Nat.le_refl _) ?_ id
    simp only [connecting]
    cases ec <;> simp only [Bool.false_eq_true, ↓reduceIte] <;> omega
  | connect ec =>
    apply ends_guarded
    intro resolving
    apply ends_ok
    refine ordered.advance rfl (Nat.le_refl _) ?_ id
    simp only [connecting]
    cases ec <;> simp only [Bool.false_eq_true, ↓reduceIte] <;> omega
  | handshake ec =>
    apply ends_guarded
    intro connected
    cases ec with
    | true =>
      apply ends_ok
      refine ordered.advance rfl (Nat.le_refl _) ?_ id
      simp only [connecting]
      omega
    | false => exact ends_ok (ordered.handshake connected)

theorem Sequential.step (ordered : Sequential s) {event : Event} (step : s.timelyStep event = some s') :
    Sequential s' := by
  obtain ⟨timely, ran⟩ := timelyStep_iff.mp step
  exact (ordered.outcome timely).step ran

/-- One thing at a time is orderly. A suspend handler that comes too late does no harm by itself. -/
theorem Sequential.orderly (ordered : Sequential s) : Orderly s := by
  have single := ordered.single
  refine ⟨ordered.once, ordered.asked, ?_, ?_⟩
  · unfold operations at single
    omega
  · intro event fault failed
    by_cases suspend : ∃ index, event = .suspend index
    · obtain ⟨index, rfl⟩ := suspend
      simp [Sender.outcome] at failed
    · have timely : s.Timely event := by
        cases event with
        | suspend index => exact absurd ⟨index, rfl⟩ suspend
        | _ => trivial
      exact (ordered.outcome timely).sound fault failed

/-! A bot that has been started. -/

def sampleSender : Sender where
  nick := ascii "saiv"
  password := ascii "secret"
  suspendSend := true
  sendQueueBusy := false
  sendQueue := []
  lastMessageSendt := []
  lastMessageSendtTime := 0
  sendHandlers := []
  suspendHandlers := []
  delayedHandlers := 0
  reconnectHandlers := 0
  waits := 0
  expired := 0
  writes := 0
  resolves := 1
  connects := 0
  handshakes := 0
  connection := 0
  requested := 0
  reconnected := 0
  pushed := []
  written := []

theorem constructed_sampleSender : Constructed sampleSender := by
  constructor <;> rfl

def connectEvents : List Event := [.resolve false, .connect false, .handshake false]

/-- It connects, reconnects and connects again. -/
def reconnectEvents : List Event :=
  connectEvents ++ [.post .suspendWrite, .suspend 0, .reconnect] ++ connectEvents

/-- In every run in which no suspend handler comes too late, the bot reconnects once for each connection
that asks for it, and the queue and its writes stay in order. -/
theorem reconnects_once {start : Sender} (constructed : Constructed start)
    (reached : Reaches (Of timelyStep) start s) : Orderly s :=
  (reached.invariant constructed.sequential fun ordered step => ordered.step step).orderly

theorem reconnects_once_sample : ∃ s, run timelyStep sampleSender reconnectEvents = some s ∧ Orderly s := by
  have second : (run timelyStep sampleSender reconnectEvents).map (·.connection) = some 2 := by decide
  obtain ⟨s, ran, -⟩ := Option.map_eq_some_iff.mp second
  exact ⟨s, ran, reconnects_once constructed_sampleSender (reaches_of_run _ ran)⟩

/-- Two RECONNECT lines of one chunk while the queue is idle. -/
def doubleReconnect : List Event :=
  connectEvents ++ [.post .suspendWrite, .post .suspendWrite, .suspend 0, .suspend 0, .reconnect, .reconnect]

theorem double_reconnect : ¬ ∀ start s, Constructed start → Reaches (Of step) start s → Orderly s := by
  intro orderly
  have twice : (run step sampleSender doubleReconnect).map (·.reconnected) = some 2 := by decide
  obtain ⟨s, ran, count⟩ := Option.map_eq_some_iff.mp twice
  have once := (orderly sampleSender s constructed_sampleSender (reaches_of_run _ ran)).once
  omega

end Sender

end SaivBot
