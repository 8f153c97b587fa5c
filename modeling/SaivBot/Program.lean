import Mathlib.Data.List.Basic
import Mathlib.Logic.Relation
import Mathlib.Order.Defs.Unbundled

/-! Rules for programs with a state and exceptions, where an exception keeps the state.

`Preserves` speaks about every outcome, `Returns` about the absence of an
exception. Both compose along the program text. A loop is described by the
states in which its turns begin.
-/

set_option autoImplicit false

namespace Program

variable {ε σ τ α β : Type}

/-- The state a program leaves behind, however it ends. -/
def final : EStateM.Result ε σ α → σ
  | .ok _ s => s
  | .error _ s => s

/-! One step of a program. -/

theorem get_bind (f : σ → EStateM ε σ β) (s : σ) : (get >>= f) s = f s s := rfl

theorem modify_bind (g : σ → σ) (f : Unit → EStateM ε σ β) (s : σ) : (modify g >>= f) s = f () (g s) := rfl

theorem bind_ok {m : EStateM ε σ α} {f : α → EStateM ε σ β} {s s' : σ} {a : α} (first : m s = .ok a s') :
    (m >>= f) s = f a s' := by
  simp only [bind, EStateM.bind, first]

theorem bind_error {m : EStateM ε σ α} {f : α → EStateM ε σ β} {s s' : σ} {e : ε}
    (first : m s = .error e s') : (m >>= f) s = .error e s' := by
  simp only [bind, EStateM.bind, first]

theorem bind_eq_ok {m : EStateM ε σ α} {f : α → EStateM ε σ β} {s s' : σ} {b : β} :
    (m >>= f) s = .ok b s' ↔ ∃ a middle, m s = .ok a middle ∧ f a middle = .ok b s' := by
  cases ran : m s with
  | ok a middle => simp [bind_ok ran]
  | error e middle => simp [bind_error ran]

/-- A computation without a state that has a result has one in both of its parts. -/
theorem except_bind_eq_ok {m : Except ε α} {f : α → Except ε β} {b : β} :
    m >>= f = .ok b ↔ ∃ a, m = .ok a ∧ f a = .ok b := by
  cases m with
  | ok a => simp [bind, Except.bind]
  | error e => simp [bind, Except.bind]

theorem mapM_ok {f : α → Except ε β} {items : List α} (each : ∀ item ∈ items, ∃ b, f item = .ok b) :
    ∃ results, items.mapM f = .ok results := by
  induction items with
  | nil => exact ⟨[], rfl⟩
  | cons item items ih =>
    obtain ⟨b, first⟩ := each item (by simp)
    obtain ⟨results, rest⟩ := ih fun other member => each other (by simp [member])
    exact ⟨b :: results, by rw [List.mapM_cons, first, rest]; rfl⟩

theorem map_of_mapM {f : α → Except ε β} {items : List α} {results : List β} (all : items.mapM f = .ok results) :
    items.map f = results.map Except.ok := by
  induction items generalizing results with
  | nil =>
    cases all
    rfl
  | cons item items ih =>
    rw [List.mapM_cons] at all
    obtain ⟨first, here, all⟩ := except_bind_eq_ok.mp all
    obtain ⟨rest, later, all⟩ := except_bind_eq_ok.mp all
    cases all
    rw [List.map_cons, List.map_cons, here, ih later]

theorem mapError_eq_ok {ε' : Type} {m : Except ε α} {f : ε → ε'} {a : α} :
    m.mapError f = .ok a ↔ m = .ok a := by
  cases m with
  | ok b => simp [Except.mapError]
  | error e => simp [Except.mapError]

/-- No outcome changes this part of the state. -/
def Preserves (view : σ → τ) (m : EStateM ε σ α) : Prop := ∀ s, view (final (m s)) = view s

theorem Preserves.ok {view : σ → τ} {m : EStateM ε σ α} {s s' : σ} {a : α} (kept : Preserves view m)
    (ran : m s = .ok a s') : view s' = view s := by
  have same := kept s
  rwa [ran] at same

/-- From this state the program ends without an exception. -/
def Returns (m : EStateM ε σ α) (s : σ) : Prop := ∃ a s', m s = .ok a s'

def returned : EStateM.Result ε σ α → Bool
  | .ok .. => true
  | .error .. => false

theorem returned_iff {m : EStateM ε σ α} {s : σ} : returned (m s) = true ↔ Returns m s := by
  cases ran : m s <;> simp [returned, Returns, ran]

instance (m : EStateM ε σ α) (s : σ) : Decidable (Returns m s) := decidable_of_iff _ returned_iff

/-- A computation without effects on the state. -/
def lift : Except ε α → EStateM ε σ α
  | .ok a => pure a
  | .error e => throw e

theorem lift_bind_eq_ok {result : Except ε α} {f : α → EStateM ε σ β} {s s' : σ} {b : β} :
    (lift result >>= f) s = .ok b s' ↔ ∃ a, result = .ok a ∧ f a s = .ok b s' := by
  cases result with
  | ok a => exact ⟨fun ran => ⟨a, rfl, ran⟩, by rintro ⟨_, ⟨⟩, ran⟩; exact ran⟩
  | error e => exact ⟨nofun, by rintro ⟨_, ⟨⟩, -⟩⟩

variable {view : σ → τ}

theorem preserves_pure (a : α) : Preserves view (pure a : EStateM ε σ α) := fun _ => rfl

theorem preserves_throw (e : ε) : Preserves view (throw e : EStateM ε σ α) := fun _ => rfl

theorem preserves_lift (result : Except ε α) : Preserves view (lift result : EStateM ε σ α) := by
  cases result with
  | ok a => exact preserves_pure a
  | error e => exact preserves_throw e

theorem preserves_get : Preserves view (get : EStateM ε σ σ) := fun _ => rfl

theorem preserves_modify {f : σ → σ} (kept : ∀ s, view (f s) = view s) :
    Preserves view (modify f : EStateM ε σ Unit) := kept

theorem preserves_bind {m : EStateM ε σ α} {f : α → EStateM ε σ β} (first : Preserves view m)
    (rest : ∀ a, Preserves view (f a)) : Preserves view (m >>= f) := by
  intro s
  have start := first s
  cases ran : m s with
  | ok a s' =>
    rw [ran] at start
    rw [bind_ok ran]
    exact (rest a s').trans start
  | error e s' =>
    rw [ran] at start
    rw [bind_error ran]
    exact start

/-- What follows does not change the view. -/
theorem view_final_bind {m : EStateM ε σ α} {f : α → EStateM ε σ β} (rest : ∀ a, Preserves view (f a)) (s : σ) :
    view (final ((m >>= f) s)) = view (final (m s)) := by
  cases ran : m s with
  | ok a s' =>
    rw [bind_ok ran]
    exact rest a s'
  | error e s' => rw [bind_error ran]; rfl

theorem preserves_ite {c : Prop} [Decidable c] {yes no : EStateM ε σ α} (first : Preserves view yes)
    (second : Preserves view no) : Preserves view (if c then yes else no) := by
  split
  · exact first
  · exact second

/-- A loop over a list keeps what its body keeps. -/
theorem preserves_forM {items : List α} {body : α → EStateM ε σ PUnit}
    (each : ∀ item, Preserves view (body item)) : Preserves view (items.forM body) := by
  induction items with
  | nil => exact preserves_pure _
  | cons item items ih => exact preserves_bind (each item) fun _ => ih

/-- The two states show the same view. -/
def Alike (view : σ → τ) (s s' : σ) : Prop := view s' = view s

instance : IsPreorder σ (Alike view) where
  refl _ := rfl
  trans _ _ _ first second := second.trans first

/-- The second state has the property if the first one does. -/
def Maintains (P : σ → Prop) (s s' : σ) : Prop := P s → P s'

instance (P : σ → Prop) : IsPreorder σ (Maintains P) where
  refl _ := id
  trans _ _ _ first second := second ∘ first

/-- However the program ends when it is run from this state, the state it leaves is related to it. -/
def Leads (R : σ → σ → Prop) (m : EStateM ε σ α) (s : σ) : Prop := R s (final (m s))

section

variable {R : σ → σ → Prop}

theorem Leads.ok {m : EStateM ε σ α} {s s' : σ} {a : α} (leads : Leads R m s) (ran : m s = .ok a s') : R s s' := by
  rwa [Leads, ran] at leads

theorem leads_get_bind {f : σ → EStateM ε σ β} {s : σ} (rest : Leads R (f s) s) : Leads R (get >>= f) s := rest

theorem leads_ite {c : Prop} [Decidable c] {yes no : EStateM ε σ α} {s : σ} (first : c → Leads R yes s)
    (second : ¬ c → Leads R no s) : Leads R (if c then yes else no) s := by
  split
  · next holds => exact first holds
  · next fails => exact second fails

variable [IsPreorder σ R]

theorem leads_pure (a : α) (s : σ) : Leads R (pure a : EStateM ε σ α) s := Std.Refl.refl s

theorem leads_throw (e : ε) (s : σ) : Leads R (throw e : EStateM ε σ α) s := Std.Refl.refl s

theorem leads_bind {m : EStateM ε σ α} {f : α → EStateM ε σ β} {s : σ} (first : Leads R m s)
    (rest : ∀ a s', m s = .ok a s' → Leads R (f a) s') : Leads R (m >>= f) s := by
  unfold Leads at first ⊢
  cases ran : m s with
  | ok a s' =>
    rw [ran] at first
    rw [bind_ok ran]
    exact IsTrans.trans _ _ _ first (rest a s' ran)
  | error e s' =>
    rw [ran] at first
    rw [bind_error ran]
    exact first

theorem leads_modify_bind {g : σ → σ} {f : Unit → EStateM ε σ β} {s : σ} (step : R s (g s))
    (rest : Leads R (f ()) (g s)) : Leads R (modify g >>= f) s :=
  IsTrans.trans _ _ _ step rest

theorem leads_lift_bind {result : Except ε α} {f : α → EStateM ε σ β} {s : σ}
    (rest : ∀ a, result = .ok a → Leads R (f a) s) : Leads R (lift result >>= f) s := by
  cases result with
  | ok a => exact rest a rfl
  | error e => exact leads_throw e s

/-- A handler that first looks whether it may run at all. -/
theorem leads_guarded {guard : σ → Bool} {body : σ → EStateM ε σ PUnit} {s : σ}
    (each : guard s = true → Leads R (body s) s) :
    Leads R (get >>= fun s => if guard s then body s else pure ⟨⟩) s :=
  leads_get_bind (leads_ite each fun _ => leads_pure _ s)

theorem leads_forM {items : List α} {body : α → EStateM ε σ PUnit} (each : ∀ item s, Leads R (body item) s)
    (s : σ) : Leads R (items.forM body) s := by
  induction items generalizing s with
  | nil => exact leads_pure _ s
  | cons item items ih => exact leads_bind (each item s) fun _ s' _ => ih s'

end

/-- Every outcome but the excused exceptions leaves a state with this property. -/
def Leaves (excused : ε → Prop) (P : σ → Prop) (m : EStateM ε σ α) (s : σ) : Prop :=
  match m s with
  | .ok _ s' => P s'
  | .error e s' => excused e ∨ P s'

section

variable {excused : ε → Prop} {P : σ → Prop}

theorem leaves_pure {a : α} {s : σ} (holds : P s) : Leaves excused P (pure a : EStateM ε σ α) s := holds

theorem leaves_bind {m : EStateM ε σ α} {f : α → EStateM ε σ β} {s : σ} (first : Leaves excused P m s)
    (rest : ∀ a s', m s = .ok a s' → P s' → Leaves excused P (f a) s') : Leaves excused P (m >>= f) s := by
  unfold Leaves at first ⊢
  cases ran : m s with
  | ok a s' =>
    rw [ran] at first
    rw [bind_ok ran]
    exact rest a s' ran first
  | error e s' =>
    rw [ran] at first
    rw [bind_error ran]
    exact first

theorem leaves_lift_bind {result : Except ε α} {f : α → EStateM ε σ β} {s : σ} (holds : P s)
    (rest : ∀ a, result = .ok a → Leaves excused P (f a) s) : Leaves excused P (lift result >>= f) s := by
  cases result with
  | ok a => exact rest a rfl
  | error e => exact .inr holds

theorem leaves_ite {c : Prop} [Decidable c] {yes no : EStateM ε σ α} {s : σ} (first : c → Leaves excused P yes s)
    (second : ¬ c → Leaves excused P no s) : Leaves excused P (if c then yes else no) s := by
  split
  · next holds => exact first holds
  · next fails => exact second fails

/-- Where the program changes nothing that the property is about. -/
theorem leaves_of_leads {R : σ → σ → Prop} {m : EStateM ε σ α} {s : σ} (leads : Leads R m s)
    (kept : ∀ s', R s s' → P s') : Leaves excused P m s := by
  unfold Leads at leads
  unfold Leaves
  cases ran : m s with
  | ok a s' =>
    rw [ran] at leads
    exact kept s' leads
  | error e s' =>
    rw [ran] at leads
    exact .inr (kept s' leads)

end

/-- No outcome is one of these exceptions. -/
def Avoids (bad : ε → Prop) (m : EStateM ε σ α) : Prop := ∀ s e s', m s = .error e s' → ¬ bad e

variable {bad : ε → Prop}

theorem avoids_pure (a : α) : Avoids bad (pure a : EStateM ε σ α) := by
  intro s e s' failed
  cases failed

theorem avoids_throw {e : ε} (good : ¬ bad e) : Avoids bad (throw e : EStateM ε σ α) := by
  intro s e s' failed
  cases failed
  exact good

theorem avoids_get : Avoids bad (get : EStateM ε σ σ) := by
  intro s e s' failed
  cases failed

theorem avoids_modify (f : σ → σ) : Avoids bad (modify f : EStateM ε σ Unit) := by
  intro s e s' failed
  cases failed

theorem avoids_bind {m : EStateM ε σ α} {f : α → EStateM ε σ β} (first : Avoids bad m)
    (rest : ∀ a, Avoids bad (f a)) : Avoids bad (m >>= f) := by
  intro s e s' failed
  cases ran : m s with
  | ok a middle =>
    rw [bind_ok ran] at failed
    exact rest a middle e s' failed
  | error other middle =>
    rw [bind_error ran] at failed
    cases failed
    exact first s _ _ ran

theorem avoids_ite {c : Prop} [Decidable c] {yes no : EStateM ε σ α} (first : Avoids bad yes)
    (second : Avoids bad no) : Avoids bad (if c then yes else no) := by
  split
  · exact first
  · exact second

theorem avoids_guarded {guard : σ → Bool} {body : σ → EStateM ε σ PUnit}
    (each : ∀ s, Avoids bad (body s)) :
    Avoids bad (get >>= fun s => if guard s then body s else pure ⟨⟩) := by
  apply avoids_bind avoids_get
  intro s
  exact avoids_ite (each s) (avoids_pure _)

theorem avoids_lift_bind {result : Except ε α} {a : α} (found : result = .ok a) {f : α → EStateM ε σ β}
    (rest : Avoids bad (f a)) : Avoids bad (lift result >>= f) := by
  rw [found]
  exact rest

theorem avoids_forM {items : List α} {body : α → EStateM ε σ PUnit}
    (each : ∀ item, Avoids bad (body item)) : Avoids bad (items.forM body) := by
  induction items with
  | nil => exact avoids_pure _
  | cons item items ih => exact avoids_bind (each item) fun _ => ih

/-! What makes a program return, read off its text. -/

@[simp] theorem returns_pure (a : α) (s : σ) : Returns (pure a : EStateM ε σ α) s := ⟨a, s, rfl⟩

@[simp] theorem not_returns_throw (e : ε) (s : σ) : ¬ Returns (throw e : EStateM ε σ α) s := by
  rintro ⟨a, s', ran⟩
  cases ran

@[simp] theorem returns_modify (f : σ → σ) (s : σ) : Returns (modify f : EStateM ε σ Unit) s := ⟨(), f s, rfl⟩

theorem returns_bind_of_ok {m : EStateM ε σ α} {f : α → EStateM ε σ β} {s s' : σ} {a : α}
    (first : m s = .ok a s') : Returns (m >>= f) s ↔ Returns (f a) s' := by
  simp only [Returns, bind_ok first]

theorem returns_bind_iff {m : EStateM ε σ α} {f : α → EStateM ε σ β} {s : σ} :
    Returns (m >>= f) s ↔ ∃ a s', m s = .ok a s' ∧ Returns (f a) s' := by
  cases ran : m s with
  | ok a s' =>
    rw [returns_bind_of_ok ran]
    simp
  | error e s' => simp [Returns, bind_error ran]

@[simp] theorem returns_get_bind (f : σ → EStateM ε σ β) (s : σ) :
    Returns (get >>= f) s ↔ Returns (f s) s := returns_bind_of_ok rfl

@[simp] theorem returns_modify_bind (g : σ → σ) (f : Unit → EStateM ε σ β) (s : σ) :
    Returns (modify g >>= f) s ↔ Returns (f ()) (g s) := returns_bind_of_ok rfl

/-- A computation without effects fails where it stands. -/
theorem returns_lift_bind (result : Except ε α) (f : α → EStateM ε σ β) (s : σ) :
    Returns (lift result >>= f) s ↔ ∃ a, result = .ok a ∧ Returns (f a) s := by
  cases result with
  | ok a =>
    have first : (lift (.ok a) : EStateM ε σ α) s = .ok a s := rfl
    rw [returns_bind_of_ok first]
    simp
  | error e =>
    have failed : (lift (.error e) : EStateM ε σ α) s = .error e s := rfl
    simp [returns_bind_iff, failed]

/-- What follows may return or not, whatever the computation gives. -/
theorem returns_lift_bind_const {result : Except ε α} {f : α → EStateM ε σ β} {s : σ} {p : Prop}
    (rest : ∀ a, Returns (f a) s ↔ p) : Returns (lift result >>= f) s ↔ (∃ a, result = .ok a) ∧ p := by
  simp only [returns_lift_bind, rest, exists_and_right]

theorem returns_forM {items : List α} {body : α → EStateM ε σ PUnit}
    (each : ∀ item s, Returns (body item) s) (s : σ) : Returns (items.forM body) s := by
  induction items generalizing s with
  | nil => exact returns_pure _ s
  | cons item items ih =>
    obtain ⟨_, s', ran⟩ := each item s
    exact (returns_bind_of_ok ran).mpr (ih s')

/-- A loop whose body throws returns only when there is nothing to do. -/
theorem returns_forM_throw (items : List α) (e : ε) (s : σ) :
    Returns (items.forM fun _ => (throw e : EStateM ε σ PUnit)) s ↔ items = [] := by
  cases items with
  | nil => simp [List.forM]
  | cons item items =>
    have failed : (throw e : EStateM ε σ PUnit) s = .error e s := rfl
    simp [List.forM, returns_bind_iff, failed]

/-- `while (turn) {}`: a turn says whether there is another one. -/
def loop (turn : EStateM ε σ Bool) : Nat → EStateM ε σ Unit
  | 0 => pure ()
  | fuel + 1 => do if (← turn) then loop turn fuel else pure ()

/-- The states in which turns begin. -/
def Turns (turn : EStateM ε σ Bool) : σ → σ → Prop := Relation.ReflTransGen fun s s' => turn s = .ok true s'

variable {turn : EStateM ε σ Bool}

theorem loop_again {fuel : Nat} {s s' : σ} (again : turn s = .ok true s') :
    loop turn (fuel + 1) s = loop turn fuel s' := by
  rw [loop, bind_ok again, if_pos rfl]

theorem loop_stop {fuel : Nat} {s s' : σ} (stop : turn s = .ok false s') :
    loop turn (fuel + 1) s = .ok () s' := by
  rw [loop, bind_ok stop, if_neg Bool.false_ne_true]
  rfl

theorem loop_fail {fuel : Nat} {s s' : σ} {e : ε} (fail : turn s = .error e s') :
    loop turn (fuel + 1) s = .error e s' := by
  rw [loop, bind_error fail]

/-- A loop ends with its last turn, which stops or fails. Induction on the fuel; what the turns use up
is what `size` measures. -/
theorem loop_last (size : σ → Nat) (less : ∀ s s', turn s = .ok true s' → size s' < size s) {fuel : Nat}
    {s : σ} (enough : size s < fuel) :
    ∃ last, Turns turn s last ∧ ((∃ s', turn last = .ok false s' ∧ loop turn fuel s = .ok () s') ∨
      ∃ e s', turn last = .error e s' ∧ loop turn fuel s = .error e s') := by
  induction fuel generalizing s with
  | zero => exact absurd enough (Nat.not_lt_zero _)
  | succ fuel ih =>
    cases ran : turn s with
    | error e s' => exact ⟨s, .refl, Or.inr ⟨e, s', ran, loop_fail ran⟩⟩
    | ok again s' =>
      cases again with
      | false => exact ⟨s, .refl, Or.inl ⟨s', ran, loop_stop ran⟩⟩
      | true =>
        -- The turn has used up some of the size, and the fuel shrinks by one.
        have shrunk := less s s' ran
        rw [loop_again ran]
        obtain ⟨last, turns, ended⟩ := ih (s := s') (by omega)
        exact ⟨last, .head ran turns, ended⟩

/-- Where a loop has stopped, every turn has been gone through. -/
theorem Turns.reaches_stop {s last s' : σ} (turns : Turns turn s last) (stop : ∀ s', turn last ≠ .ok true s')
    (other : Turns turn s s') : Turns turn s' last := by
  induction other with
  | refl => exact turns
  | tail _ next ih =>
    -- A turn has one outcome, so both go through the same states.
    rcases Relation.ReflTransGen.cases_head ih with same | ⟨middle, first, rest⟩
    · rw [same] at next
      exact absurd next (stop _)
    · rw [first] at next
      cases next
      exact rest

theorem Turns.stop_unique {s last last' : σ} (turns : Turns turn s last)
    (stop : ∀ s', turn last ≠ .ok true s') (other : Turns turn s last') (stop' : ∀ s', turn last' ≠ .ok true s') :
    last' = last := by
  rcases Relation.ReflTransGen.cases_head (turns.reaches_stop stop other) with same | ⟨next, again, -⟩
  · exact same
  · exact absurd again (stop' next)

/-- A loop returns when every turn that begins does. -/
theorem returns_loop_iff (turn : EStateM ε σ Bool) (size : σ → Nat) (less : ∀ s s', turn s = .ok true s' → size s' < size s)
    {fuel : Nat} {s : σ} (enough : size s < fuel) :
    Returns (loop turn fuel) s ↔ ∀ s', Turns turn s s' → Returns turn s' := by
  obtain ⟨last, turns, ⟨s', stop, ended⟩ | ⟨e, s', fail, ended⟩⟩ := loop_last size less enough
  · refine iff_of_true ⟨(), s', ended⟩ ?_
    intro middle reached
    have stopped : ∀ s', turn last ≠ .ok true s' := by
      intro s' again
      rw [stop] at again
      cases again
    rcases Relation.ReflTransGen.cases_head (turns.reaches_stop stopped reached) with rfl | ⟨next, ran, -⟩
    · exact ⟨false, s', stop⟩
    · exact ⟨true, next, ran⟩
  · refine iff_of_false ?_ ?_
    · rintro ⟨_, _, returned⟩
      rw [ended] at returned
      cases returned
    · intro all
      obtain ⟨_, _, returned⟩ := all last turns
      rw [fail] at returned
      cases returned

/-- Where a loop has returned, its last turn has stopped it. -/
theorem loop_ok (size : σ → Nat) (less : ∀ s s', turn s = .ok true s' → size s' < size s) {fuel : Nat}
    {s s' : σ} (enough : size s < fuel) (returned : loop turn fuel s = .ok () s') :
    ∃ last, Turns turn s last ∧ turn last = .ok false s' := by
  obtain ⟨last, turns, ⟨_, stop, ended⟩ | ⟨e, _, fail, ended⟩⟩ := loop_last size less enough
  · rw [returned] at ended
    cases ended
    exact ⟨last, turns, stop⟩
  · rw [returned] at ended
    cases ended

theorem leads_loop {R : σ → σ → Prop} [IsPreorder σ R] (each : ∀ s, Leads R turn s) (fuel : Nat) (s : σ) :
    Leads R (loop turn fuel) s := by
  induction fuel generalizing s with
  | zero => exact leads_pure _ s
  | succ fuel ih =>
    apply leads_bind (each s)
    intro again s' _
    cases again with
    | false => exact leads_pure _ s'
    | true => exact ih s'

theorem preserves_loop (kept : Preserves view turn) (fuel : Nat) : Preserves view (loop turn fuel) := by
  induction fuel with
  | zero => exact preserves_pure _
  | succ fuel ih =>
    apply preserves_bind kept
    intro again
    cases again with
    | false => exact preserves_pure _
    | true => exact ih

end Program
