import Mathlib.Data.List.Induction
import Mathlib.Logic.Relation

/-! Runs of a system whose steps carry events. -/

set_option autoImplicit false

namespace Transition

universe u

variable {State : Type} {Event : Type u}

/-- Some event leads from one state to the next. -/
def Next (Step : State → Event → State → Prop) (s s' : State) : Prop := ∃ event, Step s event s'

/-- The states of all runs from `start`. -/
def Reaches (Step : State → Event → State → Prop) : State → State → Prop :=
  Relation.ReflTransGen (Next Step)

variable {Step : State → Event → State → Prop} {start s : State}

/-- What holds at the start and survives every step holds in every state reached. -/
theorem Reaches.invariant {Inv : State → Prop} (reached : Reaches Step start s) (initial : Inv start)
    (preserved : ∀ {s event s'}, Inv s → Step s event s' → Inv s') : Inv s := by
  induction reached with
  | refl => exact initial
  | tail _ next ih =>
    obtain ⟨event, step⟩ := next
    exact preserved ih step

/-- A run whose steps all meet a condition is a run. -/
theorem Reaches.weaken {Narrow : State → Event → State → Prop}
    (included : ∀ {s event s'}, Narrow s event s' → Step s event s') (reached : Reaches Narrow start s) :
    Reaches Step start s := by
  refine Relation.ReflTransGen.mono ?_ _ _ reached
  rintro a b ⟨event, step⟩
  exact ⟨event, included step⟩

/-- A run with its events. -/
inductive Trace (Step : State → Event → State → Prop) (start : State) : List Event → State → Prop where
  | nil : Trace Step start [] start
  | snoc {events : List Event} {s s' : State} {event : Event} : Trace Step start events s → Step s event s' →
      Trace Step start (events ++ [event]) s'

theorem Trace.append {middle : State} {events events' : List Event} (first : Trace Step start events middle)
    (second : Trace Step middle events' s) : Trace Step start (events ++ events') s := by
  induction second with
  | nil =>
    rw [List.append_nil]
    exact first
  | snoc _ step ih =>
    rw [← List.append_assoc]
    exact ih.snoc step

/-- Where each step can be answered by a step with the same event, so can each run. -/
theorem Trace.simulated {R : State → State → Prop} {start' : State} {events : List Event}
    (simulates : ∀ {s t event s'}, R s t → Step s event s' → ∃ t', Step t event t' ∧ R s' t')
    (related : R start start') (trace : Trace Step start events s) : ∃ t, Trace Step start' events t ∧ R s t := by
  induction trace with
  | nil => exact ⟨start', .nil, related⟩
  | snoc _ step ih =>
    obtain ⟨t, trace, related⟩ := ih
    obtain ⟨t', step', related'⟩ := simulates related step
    exact ⟨t', trace.snoc step', related'⟩

/-! Runs that use something up. -/

section

variable {Inv : State → Prop} {measure : State → Nat}
  (fewer : ∀ {s event s'}, Inv s → Step s event s' → Inv s' ∧ measure s' < measure s)

include fewer

/-- Where every event uses something up, what there is bounds the run. -/
theorem Trace.length_le (initial : Inv start) {events : List Event} (trace : Trace Step start events s) :
    Inv s ∧ events.length + measure s ≤ measure start := by
  induction trace with
  | nil => exact ⟨initial, Nat.le_of_eq (Nat.zero_add _)⟩
  | snoc _ step ih =>
    obtain ⟨holds, bound⟩ := ih
    obtain ⟨holds', less⟩ := fewer holds step
    refine ⟨holds', ?_⟩
    rw [List.length_append, List.length_singleton]
    omega

/-- Some run goes on until nothing more can happen. Induction on what is left. -/
theorem exists_rest (initial : Inv start) :
    ∃ events s, Trace Step start events s ∧ ∀ event s', ¬ Step s event s' := by
  induction left : measure start using Nat.strongRecOn generalizing start with
  | ind n ih =>
    by_cases rests : ∀ event s', ¬ Step start event s'
    · exact ⟨[], start, .nil, rests⟩
    · push Not at rests
      obtain ⟨event, next, step⟩ := rests
      obtain ⟨holds, less⟩ := fewer initial step
      obtain ⟨events, s, trace, rest⟩ := ih (measure next) (left ▸ less) holds rfl
      have first : Trace Step start ([] ++ [event]) next := .snoc .nil step
      exact ⟨_, s, first.append trace, rest⟩

end

/-- The steps of a partial function; `none` is an event that cannot happen. -/
def Of (step : State → Event → Option State) (s : State) (event : Event) (s' : State) : Prop :=
  step s event = some s'

/-- A list of events in a row. -/
def run (step : State → Event → Option State) (s : State) (events : List Event) : Option State :=
  events.foldlM step s

theorem run_append {step : State → Event → Option State} (events : List Event) (event : Event) :
    run step start (events ++ [event]) = (run step start events).bind fun s => step s event := by
  simp [run, List.foldlM_append]

/-- What is said of a state and the events that led to it. Induction on the events, the last one first. -/
theorem run_invariant {step : State → Event → Option State} {Inv : List Event → State → Prop}
    (initial : Inv [] start)
    (preserved : ∀ {events s event s'}, Inv events s → step s event = some s' → Inv (events ++ [event]) s')
    {events : List Event} {s : State} (ran : run step start events = some s) : Inv events s := by
  induction events using List.reverseRecOn generalizing s with
  | nil =>
    cases ran
    exact initial
  | append_singleton events event ih =>
    rw [run_append, Option.bind_eq_some_iff] at ran
    obtain ⟨before, earlier, last⟩ := ran
    exact preserved (ih earlier) last

/-- Where every event uses something up, what there is bounds the run. Induction on the events. -/
theorem length_run {step : State → Event → Option State} {measure : State → Nat}
    (fewer : ∀ {s event s'}, step s event = some s' → measure s' < measure s)
    {events : List Event} {start s : State} (ran : run step start events = some s) :
    events.length + measure s ≤ measure start := by
  induction events generalizing start with
  | nil =>
    cases ran
    exact Nat.le_of_eq (Nat.zero_add _)
  | cons event events ih =>
    obtain ⟨next, first, rest⟩ := Option.bind_eq_some_iff.mp ran
    have used := fewer first
    have later := ih rest
    rw [List.length_cons]
    omega

/-- Runs from related states with the same events go on together and end together, in related states again. -/
theorem rel_run {step step' : State → Event → Option State} {R : State → State → Prop} {events : List Event}
    (each : ∀ event ∈ events, ∀ {s t}, R s t → Option.Rel R (step s event) (step' t event))
    {start start' : State} (related : R start start') : Option.Rel R (run step start events) (run step' start' events) := by
  induction events generalizing start start' with
  | nil => exact .some related
  | cons event events ih =>
    have first := each event List.mem_cons_self related
    simp only [run, List.foldlM_cons]
    generalize step start event = next at first ⊢
    generalize step' start' event = next' at first ⊢
    cases first with
    | none => exact .none
    | some related => exact ih (fun other member => each other (List.mem_cons_of_mem _ member)) related

/-- Every event of a run meets a condition on the state it happens in. -/
def Along (step : State → Event → Option State) (P : State → Event → Prop) : State → List Event → Prop
  | _, [] => True
  | s, event :: events => P s event ∧ ∀ s', step s event = some s' → Along step P s' events

/-- Where every event that meets the condition can happen, all of them can. -/
theorem Along.runs {step : State → Event → Option State} {P : State → Event → Prop}
    (happens : ∀ {s event}, P s event → ∃ s', step s event = some s') {start : State} {events : List Event}
    (along : Along step P start events) : ∃ s, run step start events = some s := by
  induction events generalizing start with
  | nil => exact ⟨start, rfl⟩
  | cons event events ih =>
    obtain ⟨meets, later⟩ := along
    obtain ⟨next, stepped⟩ := happens meets
    obtain ⟨s, ran⟩ := ih (later next stepped)
    refine ⟨s, ?_⟩
    rw [run, List.foldlM_cons, stepped]
    exact ran

/-- Some events can be struck from a run: where they lead stays related to where the run without them is, and the
other events keep the two related. Induction on the events. -/
theorem run_struck {step : State → Event → Option State} {P : State → Event → Prop} {R : State → State → Prop}
    {struck : Event → Bool} {events : List Event}
    (aside : ∀ event ∈ events, struck event = true → ∀ {s t s'}, P s event → R s t → step s event = some s' → R s' t)
    (together : ∀ event ∈ events, struck event = false → ∀ {s t}, P s event → R s t →
      Option.Rel R (step s event) (step t event))
    {start start' : State} (related : R start start') (along : Along step P start events)
    (ran : run step start events = some s) :
    ∃ t, run step start' (events.filter fun event => !struck event) = some t ∧ R s t := by
  induction events generalizing start start' with
  | nil =>
    cases ran
    exact ⟨start', rfl, related⟩
  | cons event events ih =>
    obtain ⟨meets, later⟩ := along
    obtain ⟨next, first, rest⟩ := Option.bind_eq_some_iff.mp ran
    have others := @ih (fun other member => aside other (List.mem_cons_of_mem _ member))
      (fun other member => together other (List.mem_cons_of_mem _ member))
    cases strikes : struck event with
    | true =>
      rw [List.filter_cons_of_neg (by simp [strikes])]
      exact others (aside event List.mem_cons_self strikes meets related first) (later next first) rest
    | false =>
      rw [List.filter_cons_of_pos (by simp [strikes])]
      have both := together event List.mem_cons_self strikes meets related
      rw [first] at both
      generalize same : step start' event = outcome at both
      cases both with
      | @some _ next' related =>
        obtain ⟨t, goes, ends⟩ := others related (later next first) rest
        refine ⟨t, ?_, ends⟩
        rw [run, List.foldlM_cons, same]
        exact goes

theorem reaches_of_run {step : State → Event → Option State} (events : List Event) {start s : State}
    (ran : run step start events = some s) : Reaches (Of step) start s := by
  induction events generalizing start with
  | nil =>
    cases ran
    exact .refl
  | cons event events ih =>
    rw [run, List.foldlM_cons] at ran
    cases first : step start event with
    | none =>
      rw [first] at ran
      cases ran
    | some next =>
      rw [first] at ran
      exact .head ⟨event, first⟩ (ih ran)

end Transition
