import Mathlib.Tactic.Common
import SaivBot.Message.Parsing
import SaivBot.Transition

/-! The buffer that drops a message after some time.

One timer is set for the oldest message. Its handler removes that message and sets the
timer for the next one. Messages come, time passes and handlers run in any order.
-/

set_option autoImplicit false

namespace SaivBot
open Transition

structure IRCMessageTimedBuffer where
  timeout : Int
  queue : List IRCMessage
  /-- When the timer expires, the waits for that, and the handlers of waits that are over, each with its error. -/
  expiry : TimePoint
  waits : Nat
  handlers : List Bool

/-- What a handler ends with that does not return. -/
inductive TimerAbort where
  /-- "Operation canceled". -/
  | thrown
  /-- `pop_front` of an empty `std::deque`. -/
  | emptyDeque

namespace IRCMessageTimedBuffer

/-- A wait that is still going on is cancelled, and its handler gets an error. -/
def expiresAt (buffer : IRCMessageTimedBuffer) (time : TimePoint) : IRCMessageTimedBuffer :=
  { buffer with expiry := time, waits := 0, handlers := buffer.handlers ++ List.replicate buffer.waits true }

def asyncWait (buffer : IRCMessageTimedBuffer) : IRCMessageTimedBuffer := { buffer with waits := buffer.waits + 1 }

def push (buffer : IRCMessageTimedBuffer) (msg : IRCMessage) : IRCMessageTimedBuffer :=
  match buffer.queue with
  | [] => { buffer.expiresAt (msg.time + buffer.timeout) with queue := [msg] }.asyncWait
  -- That the message is not older than the last one is only asserted.
  | _ :: _ => { buffer with queue := buffer.queue ++ [msg] }

def timerHandler (ec : Bool) (buffer : IRCMessageTimedBuffer) : Except TimerAbort IRCMessageTimedBuffer :=
  if ec then .error .thrown
  else
    match buffer.queue with
    | [] => .error .emptyDeque
    | [_] => .ok { buffer with queue := [] }
    | _ :: front :: rest =>
      .ok ({ buffer with queue := front :: rest }.expiresAt (front.time + buffer.timeout)).asyncWait

/-- The buffer and the time it is. -/
structure Timed where
  now : TimePoint
  buffer : IRCMessageTimedBuffer

inductive Event where
  | push (msg : IRCMessage)
  | tick (now : TimePoint)
  | expire
  | timerHandler (index : Nat)

/-- Of the timer and its handlers, and not of those that use the buffer. -/
def Event.Own : Event → Prop
  | .expire | .timerHandler _ => True
  | _ => False

def Event.pushed : Event → Option IRCMessage
  | .push msg => some msg
  | _ => none

/-- `none` where there is nothing of the kind. The clock is not set back. -/
def Timed.outcome (timed : Timed) : Event → Option (Except TimerAbort Timed)
  | .push msg => some (.ok { timed with buffer := timed.buffer.push msg })
  | .tick now => if timed.now ≤ now then some (.ok { timed with now := now }) else none
  | .expire =>
    if 0 < timed.buffer.waits ∧ timed.buffer.expiry ≤ timed.now then
      some (.ok { timed with buffer := { timed.buffer with
        waits := 0
        handlers := timed.buffer.handlers ++ List.replicate timed.buffer.waits false } })
    else none
  | .timerHandler index =>
    timed.buffer.handlers[index]?.map fun ec =>
      (timerHandler ec { timed.buffer with handlers := timed.buffer.handlers.eraseIdx index }).map fun buffer =>
        { timed with buffer }

def Timed.step (timed : Timed) (event : Event) : Option Timed :=
  match timed.outcome event with
  | some (.ok next) => some next
  | _ => none

def empty (timeout : Int) : IRCMessageTimedBuffer where
  timeout := timeout
  queue := []
  expiry := 0
  waits := 0
  handlers := []

/-- Nothing of the buffer's own can happen before the clock goes on. -/
def Timed.Settled (timed : Timed) : Prop := ∀ event, event.Own → timed.outcome event = none

/-! The timer and the queue. -/

/-- The timer is set for the oldest message: the one wait goes on, or its handler is about to run. -/
inductive Set (now : TimePoint) : IRCMessageTimedBuffer → Prop where
  | idle {timeout : Int} {expiry : TimePoint} : Set now ⟨timeout, [], expiry, 0, []⟩
  | waiting {timeout : Int} (front : IRCMessage) (rest : List IRCMessage) :
      Set now ⟨timeout, front :: rest, front.time + timeout, 1, []⟩
  | expired {timeout : Int} (front : IRCMessage) (rest : List IRCMessage) : front.time + timeout ≤ now →
      Set now ⟨timeout, front :: rest, front.time + timeout, 0, [false]⟩

/-- The timer is set, and the messages that are missing from the front are old enough. -/
structure Keeps (timeout : Int) (pushed : List IRCMessage) (timed : Timed) : Prop where
  unchanged : timed.buffer.timeout = timeout
  set : Set timed.now timed.buffer
  removed : ∃ removed, pushed = removed ++ timed.buffer.queue ∧ ∀ msg ∈ removed, msg.time + timeout ≤ timed.now

variable {timeout : Int} {pushed : List IRCMessage} {timed next : Timed}

theorem keeps_empty (timeout : Int) (now : TimePoint) : Keeps timeout [] ⟨now, empty timeout⟩ where
  unchanged := rfl
  set := .idle
  removed := ⟨[], rfl, nofun⟩

theorem Keeps.push (keeps : Keeps timeout pushed timed) (msg : IRCMessage) :
    Keeps timeout (pushed ++ [msg]) { timed with buffer := timed.buffer.push msg } := by
  obtain ⟨now, buffer⟩ := timed
  obtain ⟨same, set, removed, split, old⟩ := keeps
  cases set with
  | idle =>
    exact ⟨same, .waiting msg [], removed, by rw [split]; simp [IRCMessageTimedBuffer.push, asyncWait, expiresAt], old⟩
  | waiting front rest =>
    exact ⟨same, .waiting front (rest ++ [msg]), removed, by rw [split]; simp [IRCMessageTimedBuffer.push], old⟩
  | expired front rest due =>
    exact ⟨same, .expired front (rest ++ [msg]) due, removed, by rw [split]; simp [IRCMessageTimedBuffer.push], old⟩

theorem Keeps.tick (keeps : Keeps timeout pushed timed) {now : TimePoint} (later : timed.now ≤ now) :
    Keeps timeout pushed { timed with now := now } := by
  obtain ⟨before, buffer⟩ := timed
  obtain ⟨same, set, removed, split, old⟩ := keeps
  refine ⟨same, ?_, removed, split, fun msg member => Int.le_trans (old msg member) later⟩
  cases set with
  | idle => exact .idle
  | waiting front rest => exact .waiting front rest
  | expired front rest due => exact .expired front rest (Int.le_trans due later)

/-- The wait for the oldest message is over: it is due. -/
theorem Keeps.expire (keeps : Keeps timeout pushed timed) (waits : 0 < timed.buffer.waits)
    (passed : timed.buffer.expiry ≤ timed.now) :
    Keeps timeout pushed { timed with buffer := { timed.buffer with
      waits := 0
      handlers := timed.buffer.handlers ++ List.replicate timed.buffer.waits false } } := by
  obtain ⟨now, buffer⟩ := timed
  obtain ⟨same, set, removed⟩ := keeps
  cases set with
  | idle => exact absurd waits (Nat.lt_irrefl 0)
  | waiting front rest => exact ⟨same, .expired front rest passed, removed⟩
  | expired front rest due => exact absurd waits (Nat.lt_irrefl 0)

/-- The handler never gets an error, and there is a message for it to remove. -/
theorem Keeps.timerHandler (keeps : Keeps timeout pushed timed) {index : Nat} {ec : Bool}
    (found : timed.buffer.handlers[index]? = some ec) :
    ∃ buffer, IRCMessageTimedBuffer.timerHandler ec
        { timed.buffer with handlers := timed.buffer.handlers.eraseIdx index } = .ok buffer ∧
      buffer.queue.length + 1 = timed.buffer.queue.length ∧ buffer.handlers = [] ∧
      Keeps timeout pushed { timed with buffer := buffer } := by
  obtain ⟨now, buffer⟩ := timed
  obtain ⟨same, set, removed, split, old⟩ := keeps
  cases set with
  | idle => cases found
  | waiting front rest => cases found
  | @expired timeout' front rest due =>
    obtain rfl : timeout' = timeout := same
    obtain ⟨rfl, rfl⟩ : index = 0 ∧ ec = false := by
      cases index with
      | zero =>
        cases found
        exact ⟨rfl, rfl⟩
      | succ index => cases found
    have removedFront : ∀ msg ∈ removed ++ [front], msg.time + timeout' ≤ now := by
      intro msg member
      rcases List.mem_append.mp member with earlier | last
      · exact old msg earlier
      · obtain rfl := List.mem_singleton.mp last
        exact due
    have split' : pushed = (removed ++ [front]) ++ rest := by rw [split, List.append_assoc, List.singleton_append]
    cases rest with
    | nil => exact ⟨_, rfl, rfl, rfl, rfl, .idle, removed ++ [front], split', removedFront⟩
    | cons next rest => exact ⟨_, rfl, rfl, rfl, rfl, .waiting next rest, removed ++ [front], split', removedFront⟩

/-- How often the timer and its handlers can still run without a message coming or time passing. -/
def Timed.turns (timed : Timed) : Nat := 2 * timed.buffer.queue.length - timed.buffer.handlers.length

/-- No event ends with an error. Each keeps the buffer, and those of its own run out. -/
theorem Keeps.outcome (keeps : Keeps timeout pushed timed) {event : Event} {result : Except TimerAbort Timed}
    (happens : timed.outcome event = some result) :
    ∃ next, result = .ok next ∧ Keeps timeout (pushed ++ event.pushed.toList) next ∧
      (event.Own → next.now = timed.now ∧ event.pushed = none ∧ next.turns < timed.turns) := by
  have same (next : Timed) (kept : Keeps timeout pushed next) : Keeps timeout (pushed ++ []) next := by
    rwa [List.append_nil]
  cases event with
  | push msg =>
    cases happens
    exact ⟨_, rfl, keeps.push msg, False.elim⟩
  | tick now =>
    simp only [Timed.outcome, Option.ite_none_right_eq_some, Option.some.injEq] at happens
    obtain ⟨later, rfl⟩ := happens
    exact ⟨_, rfl, same _ (keeps.tick later), False.elim⟩
  | expire =>
    simp only [Timed.outcome, Option.ite_none_right_eq_some, Option.some.injEq] at happens
    obtain ⟨⟨waits, passed⟩, rfl⟩ := happens
    refine ⟨_, rfl, same _ (keeps.expire waits passed), fun _ => ⟨rfl, rfl, ?_⟩⟩
    obtain ⟨now, buffer⟩ := timed
    cases keeps.set with
    | idle => exact absurd waits (Nat.lt_irrefl 0)
    | waiting front rest =>
      simp only [Timed.turns, List.length_cons, List.length_nil, List.length_append, List.length_replicate]
      omega
    | expired front rest due => exact absurd waits (Nat.lt_irrefl 0)
  | timerHandler index =>
    obtain ⟨ec, found, ran⟩ := Option.map_eq_some_iff.mp happens
    obtain ⟨buffer, returns, shorter, nothing, kept⟩ := keeps.timerHandler found
    rw [returns] at ran
    refine ⟨_, ran.symm, same _ kept, fun _ => ⟨rfl, rfl, ?_⟩⟩
    have bounded : timed.buffer.handlers.length ≤ 1 := by
      obtain ⟨now, buffer⟩ := timed
      cases keeps.set with
      | idle => exact Nat.zero_le 1
      | waiting front rest => exact Nat.zero_le 1
      | expired front rest due => exact Nat.le_refl 1
    simp only [Timed.turns, nothing, List.length_nil]
    omega

theorem Keeps.step (keeps : Keeps timeout pushed timed) {event : Event} (ran : timed.step event = some next) :
    Keeps timeout (pushed ++ event.pushed.toList) next ∧
      (event.Own → next.now = timed.now ∧ event.pushed = none ∧ next.turns < timed.turns) := by
  unfold Timed.step at ran
  cases happens : timed.outcome event with
  | none =>
    rw [happens] at ran
    cases ran
  | some result =>
    obtain ⟨after, rfl, kept⟩ := keeps.outcome happens
    rw [happens] at ran
    cases ran
    exact kept

/-- Where nothing of its own can happen, the oldest message is not due. -/
theorem Keeps.young (keeps : Keeps timeout pushed timed) (settled : timed.Settled) {front : IRCMessage}
    {rest : List IRCMessage} (queue : timed.buffer.queue = front :: rest) : timed.now < front.time + timeout := by
  obtain ⟨now, buffer⟩ := timed
  obtain ⟨same, set, -⟩ := keeps
  cases set with
  | idle => cases queue
  | waiting front rest =>
    cases queue
    cases same
    have nothing := settled .expire trivial
    simp only [Timed.outcome, ite_eq_right_iff, reduceCtorEq, imp_false] at nothing
    exact Int.lt_of_not_ge fun due => nothing ⟨Nat.one_pos, due⟩
  | expired front rest due => cases settled (.timerHandler 0) trivial

/-- The messages that have come. -/
def arrivals (events : List Event) : List IRCMessage := events.filterMap Event.pushed

theorem keeps_run {now : TimePoint} {events : List Event}
    (ran : run Timed.step ⟨now, empty timeout⟩ events = some timed) : Keeps timeout (arrivals events) timed := by
  refine @run_invariant _ _ _ _ (fun events timed => Keeps timeout (arrivals events) timed) ?_ ?_ _ _ ran
  · exact keeps_empty timeout now
  · intro events timed event next keeps stepped
    have kept := (keeps.step stepped).1
    have more : arrivals (events ++ [event]) = arrivals events ++ event.pushed.toList := by
      cases event <;> simp [arrivals, Event.pushed]
    rwa [more]

/-- Left alone, the timer and its handlers come to an end, and time has not passed. -/
theorem keeps_own (keeps : Keeps timeout pushed timed) {events : List Event} (own : ∀ event ∈ events, event.Own)
    (ran : run Timed.step timed events = some next) :
    Keeps timeout pushed next ∧ next.now = timed.now ∧ events.length + next.turns ≤ timed.turns := by
  refine @run_invariant _ _ _ _ (fun events next => (∀ event ∈ events, event.Own) →
    Keeps timeout pushed next ∧ next.now = timed.now ∧ events.length + next.turns ≤ timed.turns) ?_ ?_ _ _ ran own
  · exact fun _ => ⟨keeps, rfl, by simp⟩
  · intro events before event next earlier stepped own
    obtain ⟨kept, still, fewer⟩ := earlier fun other member => own other (List.mem_append_left _ member)
    obtain ⟨kept', later⟩ := kept.step stepped
    obtain ⟨still', nothing, less⟩ := later (own event (by simp))
    rw [nothing, Option.toList_none, List.append_nil] at kept'
    refine ⟨kept', still'.trans still, ?_⟩
    rw [List.length_append, List.length_singleton]
    omega

/-- A list in the order of time is cut where its first young message is. -/
theorem filter_young {removed queue : List IRCMessage} {now : TimePoint}
    (sorted : (removed ++ queue).Pairwise fun first second => first.time ≤ second.time)
    (old : ∀ msg ∈ removed, msg.time + timeout ≤ now)
    (young : ∀ front rest, queue = front :: rest → now < front.time + timeout) :
    (removed ++ queue).filter (fun msg => decide (now < msg.time + timeout)) = queue := by
  have nothing : removed.filter (fun msg => decide (now < msg.time + timeout)) = [] := by
    apply List.filter_eq_nil_iff.mpr
    intro msg member
    simpa using old msg member
  rw [List.filter_append, nothing, List.nil_append]
  apply List.filter_eq_self.mpr
  intro msg member
  cases queue with
  | nil => cases member
  | cons front rest =>
    have first := young front rest rfl
    have ordered := (List.pairwise_cons.mp (List.pairwise_append.mp sorted).2.1).1
    rcases List.mem_cons.mp member with rfl | behind
    · exact decide_eq_true first
    · have later : front.time ≤ msg.time := ordered msg behind
      exact decide_eq_true (Int.lt_of_lt_of_le first (Int.add_le_add_right later timeout))

/-- Whenever messages come and handlers run: no handler gets an error or finds the buffer empty; only messages that
are old enough have been removed, in the order they came. Left alone, the buffer settles after two turns for each
message at most, and if the messages came in the order of their times it then holds exactly the young ones. -/
theorem timed_run (timeout : Int) (now : TimePoint) (events : List Event) (timed : Timed)
    (ran : run Timed.step ⟨now, empty timeout⟩ events = some timed) :
    (∀ event abort, timed.outcome event ≠ some (.error abort)) ∧
      (∃ removed, arrivals events = removed ++ timed.buffer.queue ∧
        ∀ msg ∈ removed, msg.time + timeout ≤ timed.now) ∧
      ∀ (turns : List Event) (later : Timed), (∀ event ∈ turns, event.Own) →
        run Timed.step timed turns = some later → turns.length ≤ 2 * timed.buffer.queue.length ∧
          (later.Settled → (arrivals events).Pairwise (fun first second => first.time ≤ second.time) →
            later.buffer.queue =
              (arrivals events).filter fun msg => decide (timed.now < msg.time + timeout)) := by
  have keeps := keeps_run ran
  refine ⟨?_, keeps.removed, ?_⟩
  · intro event abort aborts
    obtain ⟨next, wrong, -⟩ := keeps.outcome aborts
    cases wrong
  · intro turns later own ran
    obtain ⟨kept, still, bound⟩ := keeps_own keeps own ran
    refine ⟨?_, ?_⟩
    · unfold Timed.turns at bound
      omega
    · intro settled sorted
      obtain ⟨removed, split, old⟩ := kept.removed
      rw [split] at sorted ⊢
      rw [still] at old
      exact (filter_young sorted old fun front rest queue => still ▸ kept.young settled queue).symm

/-! Two messages, of which the first gets old. -/

def stamped (time : TimePoint) : IRCMessage := { time := time, data := [] }

def agedEvents : List Event := [.push (stamped 0), .push (stamped 5), .tick 12]

def aged : Timed where
  now := 12
  buffer := { empty 10 with queue := [stamped 0, stamped 5], expiry := 10, waits := 1 }

theorem timed_run_sample : run Timed.step ⟨0, empty 10⟩ agedEvents = some aged ∧
    ∃ later, run Timed.step aged [.expire, .timerHandler 0] = some later ∧ later.buffer.queue = [stamped 5] := by
  have ran : run Timed.step ⟨0, empty 10⟩ agedEvents = some aged := rfl
  have settles := (timed_run 10 0 agedEvents aged ran).2.2
  have own : ∀ event ∈ [Event.expire, .timerHandler 0], event.Own := by simp [Event.Own]
  obtain ⟨later, turned⟩ : ∃ later, run Timed.step aged [.expire, .timerHandler 0] = some later := ⟨_, rfl⟩
  have sorted : (arrivals agedEvents).Pairwise fun first second => first.time ≤ second.time := by decide
  have young : (arrivals agedEvents).filter (fun msg => decide (aged.now < msg.time + 10)) = [stamped 5] := rfl
  have settled : later.Settled := by
    intro event own
    cases turned
    cases event with
    | push msg => cases own
    | tick now => cases own
    | expire => rfl
    | timerHandler index => rfl
  exact ⟨ran, later, turned, ((settles _ later own turned).2 settled sorted).trans young⟩

end IRCMessageTimedBuffer

end SaivBot
