import Mathlib.Data.List.Perm.Basic
import SaivBot.Connection.Delivery

/-! What one connection leaves behind: nothing.

Every handler and timer of the send strand has only so many turns left. When none of
them has one, every line that was handed to the connection has been written.
-/

set_option autoImplicit false

namespace SaivBot
open Transition

namespace Sender

variable {s s' : Sender} {texts : List Bytes}

/-- The strand's own work, and not what other strands hand to it. -/
def Working : Event → Prop
  | .push .. | .expire | .delay | .send => True
  | .complete ec _ _ => ec = false
  | .post _ | .suspend _ | .reconnect | .resolve _ | .connect _ | .handshake _ => False

theorem undisturbed_of_working {event : Event} (working : Working event) : Undisturbed event := by
  cases event with
  | push | expire | delay | send => trivial
  | complete ec now later => exact working
  | post | suspend | reconnect | resolve | connect | handshake => cases working

/-- Nothing is left to do. -/
def AtRest (s : Sender) : Prop := ∀ event, Working event → s.outcome event = none

/-- The turns left: five for each line that has not been pushed, four for each in the queue behind the one that is
under way, and for that one the stages it has before it. -/
def pending (s : Sender) : Nat :=
  5 * s.sendHandlers.length + 4 * (s.sendQueue.length - s.operations) + 4 * s.waits + 3 * s.expired +
    2 * s.delayedHandlers + s.writes

/-- The line an event hands to the connection. -/
def handed : Event → List Bytes
  | .post (.sendIRC line) => [line]
  | _ => []

/-- PASS and NICK. -/
def loginLines (s : Sender) : List Bytes := [ascii "PASS " ++ s.password, ascii "NICK " ++ s.nick]

/-- What an event does to the lines. None is lost between the strand and the queue, and the queue is worked on as
soon as something has been pushed. -/
structure Advances (event : Event) (s s' : Sender) : Prop where
  identity : s'.loginLines = s.loginLines
  lines : (s'.pushed ++ s'.sendHandlers).Perm (s.pushed ++ s.sendHandlers ++ handed event)
  begun : (s'.sendQueueBusy = true ∨ s'.sendQueue = []) ∧
      (s.pushed.length < s'.pushed.length ∨ s.sendQueueBusy = true ∧ s'.pushed = s.pushed) ∨
    s'.sendQueueBusy = s.sendQueueBusy ∧ s'.sendQueue = s.sendQueue ∧ s'.pushed = s.pushed ∧ s'.written = s.written
  fewer : Working event → s'.pending < s.pending

theorem perm_nil_right {lines lines' : List Bytes} (same : lines = lines') : lines.Perm (lines' ++ []) := by
  rw [same, List.append_nil]

/-- Of the operations of a queue at most one is there, and then the queue is not empty. -/
theorem Delivering.single (delivering : Delivering s texts) :
    s.operations = 0 ∨ s.operations = 1 ∧ s.sendQueueBusy = true ∧ 0 < s.sendQueue.length := by
  have operations := delivering.operations
  cases busy : s.sendQueueBusy with
  | false =>
    rw [busy, if_neg Bool.false_ne_true] at operations
    exact .inl operations
  | true =>
    rw [busy, if_pos rfl] at operations
    exact .inr ⟨operations, rfl, List.length_pos_of_ne_nil (delivering.queue busy)⟩

/-- Starting on a queue takes one of the four turns of its front, or three at once. -/
theorem advances_start (idle : s.operations = 0) (queue : s.sendQueue ≠ []) (now : TimePoint) :
    ∃ next, s.doSendQueue now = .ok next ∧ next.loginLines = s.loginLines ∧ next.pushed = s.pushed ∧
      next.sendHandlers = s.sendHandlers ∧ next.sendQueueBusy = s.sendQueueBusy ∧ next.pending ≤ s.pending := by
  obtain ⟨msg, rest, front⟩ := List.exists_cons_of_ne_nil queue
  unfold operations at idle
  rcases doSendQueue_cons now front with waits | writes
  · refine ⟨_, waits, rfl, rfl, rfl, rfl, ?_⟩
    simp only [pending, operations, front, List.length_cons]
    omega
  · refine ⟨_, writes, rfl, rfl, rfl, rfl, ?_⟩
    simp only [pending, operations, writeFront, front, List.length_cons]
    omega

theorem Delivering.advances_push (delivering : Delivering s texts) {index : Nat} {line : Bytes}
    (found : s.sendHandlers[index]? = some line) (now : TimePoint) :
    Ends (Advances (.push index now) s)
      (some (pushHandler line now { s with sendHandlers := s.sendHandlers.eraseIdx index })) := by
  obtain ⟨inside, same⟩ := List.getElem?_eq_some_iff.mp found
  have taken : (line :: s.sendHandlers.eraseIdx index).Perm s.sendHandlers :=
    same ▸ List.getElem_cons_eraseIdx_perm inside
  have lines : ((s.pushed ++ [line]) ++ s.sendHandlers.eraseIdx index).Perm (s.pushed ++ s.sendHandlers ++ []) := by
    rw [List.append_assoc, List.append_nil, List.singleton_append]
    exact taken.append_left _
  have shorter : (s.sendHandlers.eraseIdx index).length + 1 = s.sendHandlers.length := taken.length_eq
  unfold pushHandler
  rw [if_neg (by rw [delivering.active]; exact Bool.false_ne_true)]
  by_cases busy : s.sendQueueBusy = true
  -- The line waits behind the front.
  · rw [if_pos busy]
    apply ends_ok
    refine ⟨rfl, lines, .inl ⟨.inl busy, .inl (by simp)⟩, fun _ => ?_⟩
    simp only [pending, Sender.operations, List.length_append, List.length_singleton]
    omega
  -- The line joins the login, and the strand starts on it.
  · rw [if_neg busy]
    have idle : s.operations = 0 := delivering.single.resolve_right fun one => busy one.2.1
    obtain ⟨next, ran, identity, pushed, handlers, isBusy, fewer⟩ :=
      advances_start (s := { s with
        sendHandlers := s.sendHandlers.eraseIdx index
        sendQueue := s.sendQueue ++ [line]
        pushed := s.pushed ++ [line]
        sendQueueBusy := true }) idle (by simp) now
    rw [ran]
    apply ends_ok
    refine ⟨identity, ?_, .inl ⟨.inl isBusy, .inl (by simp [pushed])⟩, fun _ => ?_⟩
    · rw [pushed, handlers]
      exact lines
    · refine Nat.lt_of_le_of_lt fewer ?_
      unfold Sender.operations at idle
      simp only [pending, Sender.operations, List.length_append, List.length_singleton]
      omega

/-- One case for each event of the connection. -/
theorem Delivering.advances (delivering : Delivering s texts) {event : Event} (undisturbed : Undisturbed event) :
    Ends (Advances event s) (s.outcome event) := by
  have single := delivering.single
  cases event with
  | post work =>
    apply ends_ok
    cases work with
    | suspendWrite => cases undisturbed
    | sendIRC line =>
      exact ⟨rfl, by simp [accept, handed], .inr ⟨rfl, rfl, rfl, rfl⟩, False.elim⟩
    | shutdown | insertMessage | download | upload =>
      exact ⟨rfl, perm_nil_right rfl, .inr ⟨rfl, rfl, rfl, rfl⟩, False.elim⟩
  | push index now => exact ends_map fun line found => delivering.advances_push found now
  | expire =>
    apply ends_guarded
    intro waiting
    apply ends_ok
    refine ⟨rfl, perm_nil_right rfl, .inr ⟨rfl, rfl, rfl, rfl⟩, fun _ => ?_⟩
    simp only [pending, Sender.operations] at single ⊢
    omega
  | delay =>
    apply ends_guarded
    intro expired
    apply ends_ok
    refine ⟨rfl, perm_nil_right rfl, .inr ⟨rfl, rfl, rfl, rfl⟩, fun _ => ?_⟩
    simp only [pending, Sender.operations] at single ⊢
    omega
  | send =>
    apply ends_guarded
    intro delayed
    obtain ⟨busy, one⟩ := delivering.busy (by unfold Sender.operations; omega)
    obtain ⟨msg, rest, front⟩ := List.exists_cons_of_ne_nil (delivering.queue busy)
    rw [sendHandler_cons (s := { s with delayedHandlers := s.delayedHandlers - 1 }) front]
    apply ends_ok
    refine ⟨rfl, perm_nil_right rfl, .inl ⟨.inl busy, .inr ⟨busy, rfl⟩⟩, fun _ => ?_⟩
    simp only [pending, Sender.operations, writeFront, front, List.length_cons] at one ⊢
    omega
  | complete ec now later =>
    cases undisturbed
    apply ends_guarded
    intro writing
    obtain ⟨busy, one⟩ := delivering.busy (by unfold Sender.operations; omega)
    obtain ⟨msg, rest, front⟩ := List.exists_cons_of_ne_nil (delivering.queue busy)
    unfold onSendQueue
    rw [if_neg (by rw [delivering.active]; exact Bool.false_ne_true), if_neg Bool.false_ne_true, front]
    -- The strand rests behind its last line, or starts on the next.
    cases rest with
    | nil =>
      apply ends_ok
      refine ⟨rfl, perm_nil_right rfl, .inl ⟨.inr rfl, .inr ⟨busy, rfl⟩⟩, fun _ => ?_⟩
      simp only [pending, Sender.operations, List.length_nil] at one ⊢
      omega
    | cons following others =>
      have done : Sender.operations { s with
          writes := s.writes - 1, lastMessageSendtTime := now, sendQueue := following :: others } = 0 := by
        simp only [Sender.operations] at one ⊢
        omega
      obtain ⟨next, ran, identity, pushed, handlers, isBusy, fewer⟩ :=
        advances_start done (List.cons_ne_nil _ _) later
      change Ends _ (some (doSendQueue _ later))
      rw [ran]
      apply ends_ok
      refine ⟨identity, perm_nil_right (by rw [pushed, handlers]), .inl ⟨.inl (isBusy.trans busy), .inr ⟨busy, pushed⟩⟩,
        fun _ => ?_⟩
      refine Nat.lt_of_le_of_lt fewer ?_
      simp only [pending, Sender.operations, front, List.length_cons] at one ⊢
      omega
  | suspend | reconnect | resolve | connect | handshake => cases undisturbed

/-! Runs of a connection. -/

/-- Nothing but the login is there and it waits for a line to follow, or the queue is worked on until it is empty. -/
def Begun (s : Sender) : Prop :=
  (s.sendQueueBusy = true ∨ s.sendQueue = []) ∧ 2 < s.pushed.length ∨
    s.pushed = s.loginLines ∧ s.written = [] ∧ s.sendQueueBusy = false

theorem Advances.begins {event : Event} (advances : Advances event s s') (begun : s.Begun)
    (login : 2 ≤ s.pushed.length) : s'.Begun := by
  rcases advances.begun with ⟨worked, more | ⟨busy, pushed⟩⟩ | ⟨busy, queue, pushed, written⟩
  · exact .inl ⟨worked, Nat.lt_of_le_of_lt login more⟩
  · rcases begun with ⟨-, long⟩ | ⟨-, -, idle⟩
    · exact .inl ⟨worked, pushed ▸ long⟩
    · rw [idle] at busy
      cases busy
  · unfold Begun
    rw [busy, queue, pushed, written, advances.identity]
    exact begun

/-- What is known of a connection after these events. -/
structure Handed (start : Sender) (events : List Event) (s : Sender) : Prop where
  delivers : Delivers s
  identity : s.loginLines = start.loginLines
  lines : (s.pushed ++ s.sendHandlers).Perm (start.loginLines ++ (start.sendHandlers ++ events.flatMap handed))
  begun : s.Begun

variable {start : Sender} {events : List Event}

theorem handed_onHandshake (queue : start.sendQueue = []) (idle : start.sendQueueBusy = false)
    (nothing : start.operations = 0) : Handed start [] start.onHandshake where
  delivers := ⟨[], delivering_onHandshake queue idle nothing⟩
  identity := rfl
  lines := by simp [onHandshake, loginLines]
  begun := .inr ⟨rfl, rfl, idle⟩

theorem Handed.step (known : Handed start events s) {event : Event} (ran : s.undisturbedStep event = some s') :
    Handed start (events ++ [event]) s' := by
  obtain ⟨texts, delivering⟩ := known.delivers
  obtain ⟨undisturbed, stepped⟩ := undisturbedStep_iff.mp ran
  have advances := (delivering.advances undisturbed).step stepped
  obtain ⟨later, login⟩ := delivering.login
  refine ⟨known.delivers.step ran, advances.identity.trans known.identity, ?_, ?_⟩
  · refine advances.lines.trans ?_
    rw [List.flatMap_append, List.flatMap_singleton, ← List.append_assoc, ← List.append_assoc,
      List.append_assoc _ _ (handed event)]
    simpa only [List.append_assoc] using known.lines.append_right (handed event)
  · exact advances.begins known.begun (by rw [login]; simp)

theorem Handed.run (known : Handed start events s) {more : List Event}
    (ran : Transition.run undisturbedStep s more = some s') : Handed start (events ++ more) s' := by
  refine @run_invariant _ _ _ _ (fun more s' => Handed start (events ++ more) s') ?_ ?_ _ _ ran
  · rw [List.append_nil]
    exact known
  · intro more before event next known step
    rw [← List.append_assoc]
    exact known.step step

theorem handed_run (queue : start.sendQueue = []) (idle : start.sendQueueBusy = false) (nothing : start.operations = 0)
    (ran : Transition.run undisturbedStep start.onHandshake events = some s) : Handed start events s :=
  (handed_onHandshake queue idle nothing).run ran

/-- The strand's own work uses up the turns that are left. -/
theorem Delivers.working (delivers : Delivers s) {work : List Event} (own : ∀ event ∈ work, Working event)
    (ran : run Sender.step s work = some s') : Delivers s' ∧ work.length + s'.pending ≤ s.pending := by
  refine @run_invariant _ _ _ _ (fun work s' => (∀ event ∈ work, Working event) →
    Delivers s' ∧ work.length + s'.pending ≤ s.pending) ?_ ?_ _ _ ran own
  · exact fun _ => ⟨delivers, by simp⟩
  · intro work before event next earlier stepped own
    obtain ⟨⟨texts, delivering⟩, bound⟩ := earlier fun other member => own other (List.mem_append_left _ member)
    have working := own event (by simp)
    have undisturbed := undisturbed_of_working working
    have less := ((delivering.advances undisturbed).step stepped).fewer working
    refine ⟨(delivering.outcome undisturbed).step stepped, ?_⟩
    rw [List.length_append, List.length_singleton]
    omega

theorem Delivering.pending_le (delivering : Delivering s texts) :
    s.pending ≤ 5 * s.sendHandlers.length + 4 * s.sendQueue.length := by
  have single := delivering.single
  simp only [pending, Sender.operations] at single ⊢
  omega

/-- At rest no handler and no operation is left. -/
theorem atRest_iff : s.AtRest ↔ s.sendHandlers = [] ∧ s.operations = 0 := by
  constructor
  · intro rest
    have push := rest (.push 0 0) trivial
    have expire := rest .expire trivial
    have delay := rest .delay trivial
    have send := rest .send trivial
    have complete := rest (.complete false 0 0) rfl
    simp only [outcome, ite_eq_right_iff, reduceCtorEq, imp_false, Nat.not_lt, Nat.le_zero_eq,
      Option.map_eq_none_iff, List.getElem?_eq_none_iff, List.length_eq_zero_iff] at push expire delay send complete
    refine ⟨push, ?_⟩
    unfold operations
    omega
  · rintro ⟨handlers, nothing⟩ event working
    unfold operations at nothing
    cases event with
    | push index now => simp [outcome, handlers]
    | expire => exact if_neg (by omega)
    | delay => exact if_neg (by omega)
    | send => exact if_neg (by omega)
    | complete ec now later => exact if_neg (by omega)
    | post | suspend | reconnect | resolve | connect | handshake => cases working

/-- At rest everything has been written, or there has been nothing but the login. -/
theorem Handed.written (known : Handed start events s) (rest : s.AtRest) :
    if start.sendHandlers ++ events.flatMap handed = [] then s.written = []
    else ∃ order texts, order.Perm (start.sendHandlers ++ events.flatMap handed) ∧
      s.written = texts.map (· ++ crlf) ∧ List.Forall₂ Carries texts (start.loginLines ++ order) := by
  obtain ⟨⟨texts, delivering⟩, identity, lines, begun⟩ := known
  obtain ⟨noHandlers, noOperations⟩ := atRest_iff.mp rest
  obtain ⟨order, pushed⟩ : ∃ order, s.pushed = start.loginLines ++ order := by
    rw [← identity]
    exact delivering.login
  have handedOver : order.Perm (start.sendHandlers ++ events.flatMap handed) := by
    rw [noHandlers, List.append_nil, pushed] at lines
    exact (List.perm_append_left_iff _).mp lines
  have notBusy : s.sendQueueBusy = false := by
    have operations := delivering.operations
    cases busy : s.sendQueueBusy with
    | false => rfl
    | true =>
      rw [busy, if_pos rfl, noOperations] at operations
      cases operations
  rcases begun with ⟨worked, long⟩ | ⟨onlyLogin, nothing, -⟩
  -- The queue has been worked on and is not busy, so it is empty.
  · have empty : s.sendQueue = [] := worked.resolve_left (by rw [notBusy]; exact Bool.false_ne_true)
    have something : start.sendHandlers ++ events.flatMap handed ≠ [] := by
      intro empty
      rw [empty, List.perm_nil] at handedOver
      rw [pushed, handedOver] at long
      simp [loginLines] at long
    rw [if_neg something]
    have left := delivering.left
    rw [empty, List.drop_nil] at left
    have all : s.pushed.take texts.length = s.pushed := List.take_of_length_le (List.drop_eq_nil_iff.mp left.symm)
    have carried := delivering.delivered.carried
    rw [all, pushed] at carried
    exact ⟨order, texts, handedOver, delivering.delivered.written, carried⟩
  -- Nothing was pushed behind the login, which still waits.
  · have noOrder : order = [] := by
      rw [pushed, identity, List.append_right_eq_self] at onlyLogin
      exact onlyLogin
    rw [noOrder, List.nil_perm] at handedOver
    rw [if_pos handedOver]
    exact nothing

/-- On a connection with no RECONNECT and no failing write, which nothing is left over to: however the handlers, the
timer and the writes interleave, the strand's own work comes to an end after five turns for each line not pushed and
four for each one queued, and then every line that was handed to the connection has been written once, behind the
login. Where no line was, the login is not written either. -/
theorem drained_run (start : Sender) (queue : start.sendQueue = []) (idle : start.sendQueueBusy = false)
    (nothing : start.operations = 0) (events : List Event) (s : Sender)
    (ran : run undisturbedStep start.onHandshake events = some s) :
    (∀ work s', (∀ event ∈ work, Working event) → run step s work = some s' →
        work.length ≤ 5 * s.sendHandlers.length + 4 * s.sendQueue.length) ∧
      (s.AtRest →
        if start.sendHandlers ++ events.flatMap handed = [] then s.written = []
        else ∃ order texts, order.Perm (start.sendHandlers ++ events.flatMap handed) ∧
          s.written = texts.map (· ++ crlf) ∧ List.Forall₂ Carries texts (start.loginLines ++ order)) := by
  have known := handed_run queue idle nothing ran
  refine ⟨?_, known.written⟩
  intro work s' own worked
  obtain ⟨texts, delivering⟩ := known.delivers
  have bound := (Delivers.working ⟨texts, delivering⟩ own worked).2
  have few := delivering.pending_le
  omega

/-- A line is handed over and written behind the login. -/
def joining : List Event :=
  [.post (.sendIRC (ascii "JOIN #saiv")), .push 0 (10 * ticksPerSecond),
    .complete false (10 * ticksPerSecond) (20 * ticksPerSecond),
    .complete false (20 * ticksPerSecond) (30 * ticksPerSecond),
    .complete false (30 * ticksPerSecond) (30 * ticksPerSecond)]

theorem drained_run_sample : ∃ s, run undisturbedStep sampleSender.onHandshake joining = some s ∧ s.AtRest ∧
    s.written.length = 3 ∧ ∃ order texts, order.Perm [ascii "JOIN #saiv"] ∧ s.written = texts.map (· ++ crlf) ∧
      List.Forall₂ Carries texts (sampleSender.loginLines ++ order) := by
  have facts : (run undisturbedStep sampleSender.onHandshake joining).map
      (fun s => (s.written.length, s.sendHandlers, s.operations)) = some (3, [], 0) := by decide
  obtain ⟨s, ran, values⟩ := Option.map_eq_some_iff.mp facts
  simp only [Prod.mk.injEq] at values
  obtain ⟨three, handlers, nothing⟩ := values
  have rest : s.AtRest := atRest_iff.mpr ⟨handlers, nothing⟩
  have written := (drained_run sampleSender rfl rfl rfl joining s ran).2 rest
  rw [if_neg (by simp [joining, handed])] at written
  exact ⟨s, ran, rest, three, written⟩

end Sender

end SaivBot
