import SaivBot.Program

/-! Two runs of one program side by side.

Started in related states, the runs end in the same way: with the same value or the
same exception, and in related states again. Where the relation is that two states look
alike to an observer, this says that nothing the observer cannot see has any effect.
-/

set_option autoImplicit false

namespace Program

variable {ε σ α β : Type}

/-- Two outcomes of one kind, in related states. -/
inductive Matches (R : σ → σ → Prop) : EStateM.Result ε σ α → EStateM.Result ε σ α → Prop where
  | ok {s s' : σ} (a : α) : R s s' → Matches R (.ok a s) (.ok a s')
  | error {s s' : σ} (e : ε) : R s s' → Matches R (.error e s) (.error e s')

/-- The two programs end in the same way from these states. -/
def Agree (R : σ → σ → Prop) (m m' : EStateM ε σ α) (s s' : σ) : Prop := Matches R (m s) (m' s')

variable {R : σ → σ → Prop} {s s' : σ}

theorem Agree.final {m m' : EStateM ε σ α} (agree : Agree R m m' s s') : R (final (m s)) (final (m' s')) := by
  unfold Agree at agree
  generalize m s = outcome at agree ⊢
  generalize m' s' = outcome' at agree ⊢
  cases agree with
  | ok a related => exact related
  | error e related => exact related

theorem agree_pure (a : α) (related : R s s') : Agree R (pure a : EStateM ε σ α) (pure a) s s' := .ok a related

theorem agree_throw (e : ε) (related : R s s') : Agree R (throw e : EStateM ε σ α) (throw e) s s' := .error e related

theorem agree_bind {m m' : EStateM ε σ α} {f f' : α → EStateM ε σ β} (first : Agree R m m' s s')
    (rest : ∀ a t t', m s = .ok a t → R t t' → Agree R (f a) (f' a) t t') : Agree R (m >>= f) (m' >>= f') s s' := by
  unfold Agree at first ⊢
  cases ran : m s with
  | ok a t =>
    cases ran' : m' s' with
    | ok a' t' =>
      rw [ran, ran'] at first
      cases first with
      | ok _ related =>
        rw [bind_ok ran, bind_ok ran']
        exact rest a t t' ran related
    | error e' t' =>
      rw [ran, ran'] at first
      cases first
  | error e t =>
    cases ran' : m' s' with
    | ok a' t' =>
      rw [ran, ran'] at first
      cases first
    | error e' t' =>
      rw [ran, ran'] at first
      cases first with
      | error _ related =>
        rw [bind_error ran, bind_error ran']
        exact .error e related

theorem agree_get_bind {f f' : σ → EStateM ε σ β} (rest : Agree R (f s) (f' s') s s') :
    Agree R (get >>= f) (get >>= f') s s' := rest

theorem agree_modify {g g' : σ → σ} (related : R (g s) (g' s')) :
    Agree R (modify g : EStateM ε σ Unit) (modify g') s s' := .ok () related

theorem agree_modify_bind {g g' : σ → σ} {f f' : Unit → EStateM ε σ β}
    (rest : Agree R (f ()) (f' ()) (g s) (g' s')) : Agree R (modify g >>= f) (modify g' >>= f') s s' := rest

theorem agree_lift_bind {result : Except ε α} {f f' : α → EStateM ε σ β} (related : R s s')
    (rest : ∀ a, result = .ok a → Agree R (f a) (f' a) s s') : Agree R (lift result >>= f) (lift result >>= f') s s' := by
  cases result with
  | ok a => exact rest a rfl
  | error e => exact .error e related

/-- A branch that both take. -/
theorem agree_ite {c c' : Prop} [Decidable c] [Decidable c'] {yes yes' no no' : EStateM ε σ α} (same : c ↔ c')
    (first : c → Agree R yes yes' s s') (second : ¬ c → Agree R no no' s s') :
    Agree R (if c then yes else no) (if c' then yes' else no') s s' := by
  by_cases holds : c
  · rw [if_pos holds, if_pos (same.mp holds)]
    exact first holds
  · rw [if_neg holds, if_neg fun other => holds (same.mpr other)]
    exact second holds

theorem agree_forM {items : List α} {body : α → EStateM ε σ PUnit}
    (each : ∀ item s s', R s s' → Agree R (body item) (body item) s s') (related : R s s') :
    Agree R (items.forM body) (items.forM body) s s' := by
  induction items generalizing s s' with
  | nil => exact agree_pure _ related
  | cons item items ih => exact agree_bind (each item s s' related) fun _ t t' _ related => ih related

theorem agree_loop {turn : EStateM ε σ Bool} (each : ∀ s s', R s s' → Agree R turn turn s s') (fuel : Nat)
    (related : R s s') : Agree R (loop turn fuel) (loop turn fuel) s s' := by
  induction fuel generalizing s s' with
  | zero => exact agree_pure _ related
  | succ fuel ih =>
    apply agree_bind (each s s' related)
    intro again t t' _ related
    cases again with
    | false => exact agree_pure _ related
    | true => exact ih related

end Program
