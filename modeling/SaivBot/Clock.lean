import Mathlib.Algebra.Group.Int.Defs
import Mathlib.Data.Int.Basic

/-! The system clock: signed 64-bit counts of nanoseconds since 1970-01-01 00:00 UTC. -/

set_option autoImplicit false

namespace SaivBot

/-- `system_clock::time_point`, and differences of two of them, in ticks. -/
abbrev TimePoint := Int

def ticksPerSecond : Int := 1000000000
def ticksPerDay : Int := 86400 * ticksPerSecond

/-- Two's complement reduction to the range of the tick counter. -/
def wrapTicks (ticks : Int) : TimePoint := (ticks + 2 ^ 63) % 2 ^ 64 - 2 ^ 63

def Representable (ticks : Int) : Prop := -2 ^ 63 ≤ ticks ∧ ticks < 2 ^ 63

instance (ticks : Int) : Decidable (Representable ticks) :=
  inferInstanceAs (Decidable (_ ∧ _))

theorem wrapTicks_of_representable {ticks : Int} (fits : Representable ticks) :
    wrapTicks ticks = ticks := by
  obtain ⟨lower, upper⟩ := fits
  have reduced : (ticks + 2 ^ 63) % 2 ^ 64 = ticks + 2 ^ 63 :=
    Int.emod_eq_of_lt (by omega) (by omega)
  rw [wrapTicks, reduced]
  exact Int.add_sub_cancel ticks _

end SaivBot
