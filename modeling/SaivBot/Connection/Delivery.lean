import Mathlib.Data.List.Chain
import Mathlib.Data.List.Forall2
import SaivBot.Connection.Reconnecting

/-! What one connection writes: its messages, each once, in the order they were pushed.

The front of the queue is changed while it is written, so the queue shows the
messages that are left only behind the one under way.
-/

set_option autoImplicit false

namespace SaivBot
open Transition

namespace Sender

variable {s s' : Sender}

/-- What happens on a connection before its first RECONNECT, every write without an error. -/
def Undisturbed : Event → Prop
  | .post work => work.isSuspendWrite = false
  | .push .. | .expire | .delay | .send => True
  | .complete ec _ _ => ec = false
  | .suspend _ | .reconnect | .resolve _ | .connect _ | .handshake _ => False

instance (event : Event) : Decidable (Undisturbed event) :=
  match event with
  | .post work => inferInstanceAs (Decidable (work.isSuspendWrite = false))
  | .push .. | .expire | .delay | .send => inferInstanceAs (Decidable True)
  | .complete ec _ _ => inferInstanceAs (Decidable (ec = false))
  | .suspend _ | .reconnect | .resolve _ | .connect _ | .handshake _ => inferInstanceAs (Decidable False)

def undisturbedStep (s : Sender) (event : Event) : Option Sender :=
  if Undisturbed event then s.step event else none

theorem undisturbedStep_iff {event : Event} :
    s.undisturbedStep event = some s' ↔ Undisturbed event ∧ s.step event = some s' := by
  unfold undisturbedStep
  by_cases undisturbed : Undisturbed event <;> simp [undisturbed]

/-- The text of a line is the message, or the message made different from the line before. -/
def Carries (text msg : Bytes) : Prop := text = msg ∨ text = msg ++ transparent

/-- The lines written carry the first messages pushed, one each, and no line repeats the one before. -/
structure Delivered (pushed written texts : List Bytes) : Prop where
  written : written = texts.map (· ++ crlf)
  carried : List.Forall₂ Carries texts (pushed.take texts.length)
  distinct : texts.IsChain (· ≠ ·)

/-- One write at a time, nothing popped from an empty queue, and the login followed by the messages. -/
structure InOrder (s : Sender) : Prop where
  single : s.writes ≤ 1
  sound : ∀ event fault, Undisturbed event → s.outcome event ≠ some (.error fault)
  login : ∃ later, s.pushed = (ascii "PASS " ++ s.password) :: (ascii "NICK " ++ s.nick) :: later
  delivered : ∃ texts, Delivered s.pushed s.written texts

/-- Behind the line under way the queue holds the messages that have not been written. -/
structure Lined (s : Sender) (texts : List Bytes) : Prop where
  active : s.suspendSend = false
  left : s.sendQueue.drop s.writes = s.pushed.drop texts.length
  last : ∀ text ∈ texts.getLast?, s.lastMessageSendt = text
  login : ∃ later, s.pushed = (ascii "PASS " ++ s.password) :: (ascii "NICK " ++ s.nick) :: later
  delivered : Delivered s.pushed s.written texts

/-- A busy queue is not empty and has one operation under way. -/
structure Delivering (s : Sender) (texts : List Bytes) : Prop extends Lined s texts where
  operations : s.operations = if s.sendQueueBusy then 1 else 0
  queue : s.sendQueueBusy = true → s.sendQueue ≠ []

/-- The queue delivers: some texts are on the wire. -/
def Delivers (s : Sender) : Prop := ∃ texts, Delivering s texts

theorem lineText_ne (msg : Bytes) : s.lineText msg ≠ s.lastMessageSendt := by
  unfold lineText
  by_cases same : msg = s.lastMessageSendt
  · rw [if_pos same, same]
    simp [transparent]
  · rw [if_neg same]
    exact same

theorem carries_lineText (msg : Bytes) : Carries (s.lineText msg) msg := by
  unfold lineText
  split
  · exact Or.inr rfl
  · exact Or.inl rfl

theorem Delivered.length_le {pushed written texts : List Bytes} (delivered : Delivered pushed written texts) :
    texts.length ≤ pushed.length := by
  have lengths := delivered.carried.length_eq
  rw [List.length_take] at lengths
  omega

/-- Another message behind those that are there. -/
theorem Delivered.push {pushed written texts : List Bytes} (delivered : Delivered pushed written texts)
    (line : Bytes) : Delivered (pushed ++ [line]) written texts := by
  refine ⟨delivered.written, ?_, delivered.distinct⟩
  rw [List.take_append_of_le_length delivered.length_le]
  exact delivered.carried

/-- Another line on the wire. -/
theorem Delivered.write {pushed written texts rest : List Bytes} {msg text : Bytes}
    (delivered : Delivered pushed written texts) (left : pushed.drop texts.length = msg :: rest)
    (carries : Carries text msg) (new : ∀ last ∈ texts.getLast?, last ≠ text) :
    Delivered pushed (written ++ [text ++ crlf]) (texts ++ [text]) := by
  refine ⟨?_, ?_, ?_⟩
  · rw [delivered.written, List.map_append]
    rfl
  · have taken : pushed.take (texts ++ [text]).length = pushed.take texts.length ++ [msg] := by
      rw [List.length_append, List.length_singleton, List.take_add, left]
      rfl
    rw [taken]
    exact List.rel_append delivered.carried (.cons carries .nil)
  · apply delivered.distinct.append (.singleton text)
    intro last member first same
    simp only [List.head?_cons, Option.mem_some_iff] at same
    rw [← same]
    exact new last member

/-! The steps. -/

variable {texts : List Bytes}

/-- What the queue and the wire show of a sender; its timers and handlers are left out. -/
def wire (s : Sender) :=
  (s.suspendSend, s.sendQueue, s.writes, s.lastMessageSendt, s.password, s.nick, s.pushed, s.written)

/-- Nothing is pushed, written or taken off the queue. -/
theorem Lined.same (lined : Lined s texts) (s' : Sender) (same : s'.wire = s.wire) : Lined s' texts := by
  simp only [wire, Prod.mk.injEq] at same
  obtain ⟨active, queue, writes, last, password, nick, pushed, written⟩ := same
  constructor
  · rw [active]
    exact lined.active
  · rw [queue, writes, pushed]
    exact lined.left
  · rw [last]
    exact lined.last
  · rw [pushed, password, nick]
    exact lined.login
  · rw [pushed, written]
    exact lined.delivered

theorem Lined.push (lined : Lined s texts) (line : Bytes) (fits : s.writes ≤ s.sendQueue.length) :
    Lined { s with sendQueue := s.sendQueue ++ [line], pushed := s.pushed ++ [line] } texts := by
  obtain ⟨active, left, last, ⟨later, login⟩, delivered⟩ := lined
  refine ⟨active, ?_, last, ⟨later ++ [line], ?_⟩, delivered.push line⟩
  · change (s.sendQueue ++ [line]).drop s.writes = (s.pushed ++ [line]).drop texts.length
    rw [List.drop_append_of_le_length fits, List.drop_append_of_le_length delivered.length_le, left]
  · change s.pushed ++ [line] = _
    rw [login]
    rfl

/-- The front is written, and no other line is under way. -/
theorem Lined.writeFront (lined : Lined s texts) {msg : Bytes} {rest : List Bytes}
    (queue : s.sendQueue = msg :: rest) (nothing : s.writes = 0) :
    Lined (s.writeFront msg rest) (texts ++ [s.lineText msg]) := by
  have left := lined.left
  rw [nothing, queue, List.drop_zero] at left
  refine ⟨lined.active, ?_, ?_, lined.login, ?_⟩
  -- The message written moves from the ones left to the ones on the wire.
  · have behind : s.pushed.drop (texts.length + 1) = rest := by
      rw [← List.drop_drop, ← left]
      rfl
    change ((s.lineText msg ++ crlf) :: rest).drop (s.writes + 1) = s.pushed.drop (texts ++ [s.lineText msg]).length
    rw [nothing, List.length_append, List.length_singleton, behind]
    rfl
  · intro text member
    rw [List.getLast?_concat] at member
    exact Option.some.inj member
  · apply lined.delivered.write left.symm (carries_lineText msg)
    intro last member same
    exact lineText_ne (s := s) msg (by rw [← same, lined.last last member])

/-- The line under way is done. -/
theorem Lined.pop (lined : Lined s texts) {msg : Bytes} {rest : List Bytes} (queue : s.sendQueue = msg :: rest)
    (one : s.writes = 1) (now : TimePoint) :
    Lined { s with writes := s.writes - 1, lastMessageSendtTime := now, sendQueue := rest } texts := by
  have left := lined.left
  rw [one, queue] at left
  refine ⟨lined.active, ?_, lined.last, lined.login, lined.delivered⟩
  change rest.drop (s.writes - 1) = _
  rw [one]
  exact left

/-- A busy queue with nothing under way starts on its front. -/
theorem Lined.start (lined : Lined s texts) (busy : s.sendQueueBusy = true) (idle : s.operations = 0)
    (queue : s.sendQueue ≠ []) (now : TimePoint) :
    Ends Delivers (some (s.doSendQueue now)) := by
  obtain ⟨msg, rest, front⟩ := List.exists_cons_of_ne_nil queue
  unfold operations at idle
  -- Either way there is one operation afterwards; only a write changes what the wire shows.
  rcases doSendQueue_cons now front with waits | writes
  · rw [waits]
    apply ends_ok
    refine ⟨texts, lined.same _ rfl, ?_, fun _ => queue⟩
    simp only [operations, busy, ↓reduceIte]
    omega
  · rw [writes]
    apply ends_ok
    refine ⟨_, lined.writeFront front (by omega), ?_, fun _ => List.cons_ne_nil _ _⟩
    simp only [operations, Sender.writeFront, busy, ↓reduceIte]
    omega

/-- Of the operations, the write is the one that counts for the queue. -/
theorem Delivering.writes_le (delivering : Delivering s texts) : s.writes ≤ s.sendQueue.length := by
  have operations := delivering.operations
  unfold Sender.operations at operations
  cases busy : s.sendQueueBusy with
  | false =>
    rw [busy, if_neg Bool.false_ne_true] at operations
    omega
  | true =>
    rw [busy, if_pos rfl] at operations
    have nonempty := List.length_pos_of_ne_nil (delivering.queue busy)
    omega

/-- An operation goes on. -/
theorem Delivering.advance (delivering : Delivering s texts) (lined : Lined s' texts)
    (busy : s'.sendQueueBusy = s.sendQueueBusy) (operations : s'.operations = s.operations)
    (queue : s.sendQueue ≠ [] → s'.sendQueue ≠ []) : Delivering s' texts := by
  refine ⟨lined, ?_, ?_⟩
  · rw [operations, busy]
    exact delivering.operations
  · rw [busy]
    exact fun isBusy => queue (delivering.queue isBusy)

theorem Delivering.push (delivering : Delivering s texts) (line : Bytes) (now : TimePoint) :
    Ends Delivers (some (pushHandler line now s)) := by
  unfold pushHandler
  rw [if_neg (by rw [delivering.active]; exact Bool.false_ne_true)]
  have pushed := delivering.toLined.push line delivering.writes_le
  by_cases busy : s.sendQueueBusy = true
  · rw [if_pos busy]
    exact ends_ok ⟨_, delivering.advance pushed rfl rfl fun _ => by simp⟩
  · rw [if_neg busy]
    have idle := delivering.operations
    rw [if_neg busy] at idle
    have marked : Lined
        { s with sendQueue := s.sendQueue ++ [line], pushed := s.pushed ++ [line], sendQueueBusy := true } texts :=
      pushed.same _ rfl
    exact marked.start rfl idle (by simp) now

theorem Delivering.busy (delivering : Delivering s texts) (nonzero : 0 < s.operations) :
    s.sendQueueBusy = true ∧ s.operations = 1 := by
  have operations := delivering.operations
  cases busy : s.sendQueueBusy with
  | false =>
    rw [busy, if_neg Bool.false_ne_true] at operations
    omega
  | true =>
    rw [busy, if_pos rfl] at operations
    exact ⟨rfl, operations⟩

theorem Delivering.send (delivering : Delivering s texts) (delayed : 0 < s.delayedHandlers) :
    Ends Delivers (some (sendHandler { s with delayedHandlers := s.delayedHandlers - 1 })) := by
  obtain ⟨busy, one⟩ := delivering.busy (by unfold Sender.operations; omega)
  unfold Sender.operations at one
  obtain ⟨msg, rest, front⟩ := List.exists_cons_of_ne_nil (delivering.queue busy)
  have taken : Lined { s with delayedHandlers := s.delayedHandlers - 1 } texts :=
    delivering.toLined.same _ rfl
  rw [sendHandler_cons (s := { s with delayedHandlers := s.delayedHandlers - 1 }) front]
  apply ends_ok
  refine ⟨_, taken.writeFront front (by change s.writes = 0; omega), ?_, fun _ => List.cons_ne_nil _ _⟩
  simp only [Sender.operations, Sender.writeFront, busy, ↓reduceIte]
  omega

theorem Delivering.complete (delivering : Delivering s texts) (writing : 0 < s.writes) (now later : TimePoint) :
    Ends Delivers (some (onSendQueue false now later { s with writes := s.writes - 1 })) := by
  obtain ⟨busy, one⟩ := delivering.busy (by unfold Sender.operations; omega)
  unfold Sender.operations at one
  obtain ⟨msg, rest, front⟩ := List.exists_cons_of_ne_nil (delivering.queue busy)
  have popped := delivering.toLined.pop front (by omega) now
  have done : Sender.operations { s with writes := s.writes - 1 } = 0 := by
    simp only [Sender.operations]
    omega
  unfold onSendQueue
  rw [if_neg (by rw [delivering.active]; exact Bool.false_ne_true), if_neg Bool.false_ne_true, front]
  cases rest with
  | nil =>
    exact ends_ok ⟨texts, popped.same _ rfl, done, fun busy => absurd busy Bool.false_ne_true⟩
  | cons following others => exact popped.start busy done (List.cons_ne_nil _ _) later

/-- One case for each event of the connection. -/
theorem Delivering.outcome (delivering : Delivering s texts) {event : Event} (undisturbed : Undisturbed event) :
    Ends Delivers (s.outcome event) := by
  cases event with
  | post work =>
    apply ends_ok
    cases work with
    | suspendWrite => cases undisturbed
    | sendIRC line =>
      have lined := delivering.toLined.same (s.accept (.sendIRC line)) rfl
      exact ⟨texts, delivering.advance lined rfl rfl id⟩
    | shutdown | insertMessage | download | upload => exact ⟨texts, delivering⟩
  | push index now =>
    apply ends_map
    intro line _
    have lined := delivering.toLined.same { s with sendHandlers := s.sendHandlers.eraseIdx index } rfl
    exact (delivering.advance lined rfl rfl id).push line now
  | expire =>
    apply ends_guarded
    intro waiting
    apply ends_ok
    refine ⟨texts, delivering.advance (delivering.toLined.same _ rfl) rfl ?_ id⟩
    simp only [Sender.operations]
    omega
  | delay =>
    apply ends_guarded
    intro expired
    apply ends_ok
    refine ⟨texts, delivering.advance (delivering.toLined.same _ rfl) rfl ?_ id⟩
    simp only [Sender.operations]
    omega
  | send => exact ends_guarded delivering.send
  | complete ec now later =>
    cases undisturbed
    exact ends_guarded fun writing => delivering.complete writing now later
  | suspend | reconnect | resolve | connect | handshake => cases undisturbed

theorem Delivering.inOrder (delivering : Delivering s texts) : InOrder s := by
  refine ⟨?_, ?_, delivering.login, texts, delivering.delivered⟩
  · have single := delivering.operations
    unfold Sender.operations at single
    split at single <;> omega
  · exact fun event fault undisturbed => (delivering.outcome undisturbed).sound fault

theorem Delivers.step {event : Event} (delivers : Delivers s) (step : s.undisturbedStep event = some s') :
    Delivers s' := by
  obtain ⟨texts, delivering⟩ := delivers
  obtain ⟨undisturbed, ran⟩ := undisturbedStep_iff.mp step
  exact (delivering.outcome undisturbed).step ran

/-- A handshake of a sender with nothing to write and nothing under way. -/
theorem delivering_onHandshake (queue : s.sendQueue = []) (idle : s.sendQueueBusy = false)
    (nothing : s.operations = 0) : Delivering s.onHandshake [] := by
  unfold operations at nothing
  have noWrites : s.writes = 0 := by omega
  refine ⟨⟨rfl, ?_, nofun, ⟨[], rfl⟩, rfl, .nil, .nil⟩, ?_, ?_⟩
  · simp [onHandshake, queue, noWrites]
  · change s.waits + s.expired + s.delayedHandlers + s.writes = if s.sendQueueBusy then 1 else 0
    rw [idle, if_neg Bool.false_ne_true]
    omega
  · exact fun busy => absurd (idle.symm.trans busy) Bool.false_ne_true

/-! A timer of an earlier connection. -/

theorem undisturbed_next (event : Event) (undisturbed : Undisturbed event)
    (ended : s.outcome event = some (.ok s')) : Next (Of undisturbedStep) s s' :=
  ⟨event, undisturbedStep_iff.mpr ⟨undisturbed, step_iff.mpr ended⟩⟩

theorem next_expire (waiting : 0 < s.waits) :
    Next (Of undisturbedStep) s { s with waits := s.waits - 1, expired := s.expired + 1 } :=
  undisturbed_next .expire trivial (if_pos waiting)

theorem next_delay (expired : 0 < s.expired) :
    Next (Of undisturbedStep) s { s with expired := s.expired - 1, delayedHandlers := s.delayedHandlers + 1 } :=
  undisturbed_next .delay trivial (if_pos expired)

/-- Whatever stage it is in, its send handler can come to be posted. -/
theorem reaches_delayed (left : 0 < s.waits + s.expired + s.delayedHandlers) :
    ∃ waits expired delayed, Reaches (Of undisturbedStep) s
      { s with waits := waits, expired := expired, delayedHandlers := delayed + 1 } := by
  by_cases delayed : 0 < s.delayedHandlers
  · refine ⟨s.waits, s.expired, s.delayedHandlers - 1, ?_⟩
    rw [Nat.sub_add_cancel delayed]
    exact .refl
  · -- A wait expires first, an expired one posts its handler.
    by_cases expired : 0 < s.expired
    · exact ⟨s.waits, s.expired - 1, s.delayedHandlers, .single (next_delay expired)⟩
    · have waiting : 0 < s.waits := by omega
      exact ⟨s.waits - 1, s.expired + 1 - 1, s.delayedHandlers,
        .tail (.single (next_expire waiting)) (next_delay (Nat.succ_pos _))⟩

/-- The handler writes the front of an idle queue, and the next line that is pushed starts the front a
second time. -/
theorem reaches_two_writes (delayed : 0 < s.delayedHandlers) (active : s.suspendSend = false)
    (idle : s.sendQueueBusy = false) {msg : Bytes} {rest : List Bytes} (queue : s.sendQueue = msg :: rest) :
    ∃ s', Reaches (Of undisturbedStep) s s' ∧ s'.writes = s.writes + 2 := by
  have first : s.outcome .send =
      some (.ok (writeFront { s with delayedHandlers := s.delayedHandlers - 1 } msg rest)) := by
    unfold Sender.outcome
    rw [if_pos delayed, sendHandler_cons (s := { s with delayedHandlers := s.delayedHandlers - 1 }) queue]
  -- The front is under way while the queue is not busy: a push starts the front again.
  generalize written : writeFront { s with delayedHandlers := s.delayedHandlers - 1 } msg rest = s₁ at first
  have line : s₁.sendQueue = (s.lineText msg ++ crlf) :: rest := by rw [← written]; rfl
  have active₁ : s₁.suspendSend = false := by rw [← written]; exact active
  have idle₁ : s₁.sendQueueBusy = false := by rw [← written]; exact idle
  have one : s₁.writes = s.writes + 1 := by rw [← written]; rfl
  have last : (s₁.accept (.sendIRC [])).sendHandlers[s₁.sendHandlers.length]? = some [] := by
    simp [accept]
  have begins : ∀ s₂ : Sender, s₂.sendQueue = (s.lineText msg ++ crlf) :: (rest ++ [[]]) →
      s₂.sendHandler = .ok (s₂.writeFront _ _) := fun _ => sendHandler_cons
  have pushed : ∃ next, (s₁.accept (.sendIRC [])).outcome
      (.push s₁.sendHandlers.length (s₁.lastMessageSendtTime + sendMessageDuration)) = some (.ok next) ∧
        next.writes = s₁.writes + 1 := by
    unfold Sender.outcome
    dsimp only
    rw [last, Option.map_some, pushHandler, if_neg (by rw [accept, active₁]; exact Bool.false_ne_true),
      if_neg (by rw [accept, idle₁]; exact Bool.false_ne_true), doSendQueue,
      if_neg (by simp [accept])]
    rw [begins _ (by simp [accept, line])]
    exact ⟨_, rfl, rfl⟩
  obtain ⟨next, ended, two⟩ := pushed
  refine ⟨next, ?_, by omega⟩
  have begun : Reaches (Of undisturbedStep) s s₁ := .single (undisturbed_next .send trivial first)
  have posted : Next (Of undisturbedStep) s₁ (s₁.accept (.sendIRC [])) :=
    undisturbed_next (.post (.sendIRC [])) rfl rfl
  exact (begun.tail posted).tail
    (undisturbed_next (.push s₁.sendHandlers.length _) trivial ended)

theorem onHandshake_two_writes (queue : s.sendQueue = []) (idle : s.sendQueueBusy = false)
    (left : 0 < s.waits + s.expired + s.delayedHandlers) :
    ∃ s', Reaches (Of undisturbedStep) s.onHandshake s' ∧ s'.writes = s.writes + 2 := by
  have login : s.onHandshake.sendQueue = [ascii "PASS " ++ s.password, ascii "NICK " ++ s.nick] := by
    simp [onHandshake, queue]
  obtain ⟨waits, expired, delayed, begun⟩ := reaches_delayed (s := s.onHandshake) left
  obtain ⟨s', twice, writes⟩ := reaches_two_writes
    (s := { s.onHandshake with waits := waits, expired := expired, delayedHandlers := delayed + 1 })
    (Nat.succ_pos delayed) rfl idle login
  exact ⟨s', begun.trans twice, writes⟩

/-- Every run of a connection is in order exactly when no timer or posted send is left from an earlier
one. -/
theorem in_order_iff (queue : s.sendQueue = []) (idle : s.sendQueueBusy = false) (nothing : s.writes = 0) :
    (∀ s', Reaches (Of undisturbedStep) s.onHandshake s' → InOrder s') ↔
      s.waits = 0 ∧ s.expired = 0 ∧ s.delayedHandlers = 0 := by
  constructor
  · intro ordered
    by_contra left
    obtain ⟨s', reached, writes⟩ := onHandshake_two_writes queue idle (by omega)
    have single := (ordered s' reached).single
    omega
  · rintro ⟨waits, expired, delayed⟩ s' reached
    have start : Delivers s.onHandshake := by
      refine ⟨[], delivering_onHandshake queue idle ?_⟩
      unfold operations
      omega
    obtain ⟨texts, delivering⟩ := reached.invariant start fun delivers step => delivers.step step
    exact delivering.inOrder

theorem in_order_sample :
    (∀ s', Reaches (Of undisturbedStep) sampleSender.onHandshake s' → InOrder s') ↔
      sampleSender.waits = 0 ∧ sampleSender.expired = 0 ∧ sampleSender.delayedHandlers = 0 :=
  in_order_iff rfl rfl rfl

/-- A bot that has been asked twice to reconnect runs the second reconnect while a line of the new
connection waits for its time. -/
def lateTimer : List Event :=
  connectEvents ++ [.post .suspendWrite, .post .suspendWrite, .suspend 0, .suspend 0, .reconnect] ++
    connectEvents ++
    [.post (.sendIRC (ascii "JOIN #saiv")), .push 0 (10 * ticksPerSecond),
      .complete false (10 * ticksPerSecond) (10 * ticksPerSecond), .reconnect, .resolve false, .connect false]

/-- The next handshake finds the queue empty, idle and without a write, but not the timer stopped. -/
theorem late_timer : ¬ ∀ start before s, Constructed start → Reaches (Of step) start before →
    before.sendQueue = [] → before.sendQueueBusy = false → before.writes = 0 → 0 < before.handshakes →
    Reaches (Of undisturbedStep) (onHandshake { before with handshakes := before.handshakes - 1 }) s →
    InOrder s := by
  intro inOrder
  have facts : (run step sampleSender lateTimer).map
      (fun s => (s.sendQueue, s.sendQueueBusy, s.writes, s.handshakes, s.waits)) = some ([], false, 0, 1, 1) := by
    decide
  obtain ⟨before, ran, values⟩ := Option.map_eq_some_iff.mp facts
  simp only [Prod.mk.injEq] at values
  obtain ⟨queue, idle, nothing, handshakes, waits⟩ := values
  obtain ⟨s, reached, writes⟩ := onHandshake_two_writes
    (s := { before with handshakes := before.handshakes - 1 }) queue idle
    (by change 0 < before.waits + before.expired + before.delayedHandlers; omega)
  change s.writes = before.writes + 2 at writes
  have single := (inOrder sampleSender before s constructed_sampleSender (reaches_of_run _ ran) queue idle nothing
    (by omega) reached).single
  omega

end Sender

end SaivBot
