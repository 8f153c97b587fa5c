import Mathlib.Data.Int.Order.Basic
import Mathlib.Tactic.Linarith

/-! A civil calendar over serial days: what a date library promises of its conversions.

A calendar numbers the days; months are consecutive runs of days. Everything
else here is derived: which days a month holds, that the serial number orders
the dates, and that the two conversions are inverse to each other.
-/

set_option autoImplicit false

namespace Civil

structure YearMonth where
  year : Int
  month : Nat
  deriving DecidableEq, Repr

structure Date where
  year : Int
  month : Nat
  day : Nat
  deriving DecidableEq, Repr

namespace YearMonth

def Valid (ym : YearMonth) : Prop := 1 ≤ ym.month ∧ ym.month ≤ 12

/-- The position on the line of all months. -/
def index (ym : YearMonth) : Int := 12 * ym.year + ym.month

/-- One month later, carrying into the year. -/
def next (ym : YearMonth) : YearMonth :=
  if ym.month = 12 then ⟨ym.year + 1, 1⟩ else ⟨ym.year, ym.month + 1⟩

/-- The lexicographic order of year and month. -/
def before (first second : YearMonth) : Bool :=
  decide (first.year < second.year ∨ first.year = second.year ∧ first.month < second.month)

/-- The first date of the month. -/
def first (ym : YearMonth) : Date := ⟨ym.year, ym.month, 1⟩

theorem Valid.next {ym : YearMonth} (valid : ym.Valid) : ym.next.Valid := by
  obtain ⟨lower, upper⟩ := valid
  simp only [YearMonth.next]
  split
  · exact ⟨Nat.le_refl 1, Nat.le_of_ble_eq_true rfl⟩
  · next notDecember => exact ⟨Nat.le_add_left 1 ym.month, Nat.lt_of_le_of_ne upper notDecember⟩

theorem index_next (ym : YearMonth) : ym.next.index = ym.index + 1 := by
  simp only [YearMonth.next, index]
  split
  · next december => simp only [december]; omega
  · simp only; omega

theorem eq_of_index {a b : YearMonth} (validA : a.Valid) (validB : b.Valid)
    (same : a.index = b.index) : a = b := by
  obtain ⟨lowerA, upperA⟩ := validA
  obtain ⟨lowerB, upperB⟩ := validB
  simp only [index] at same
  have year : a.year = b.year := by omega
  have month : a.month = b.month := by omega
  cases a
  cases b
  simp_all

theorem before_iff {a b : YearMonth} (validA : a.Valid) (validB : b.Valid) :
    a.before b = true ↔ a.index < b.index := by
  obtain ⟨lowerA, upperA⟩ := validA
  obtain ⟨lowerB, upperB⟩ := validB
  simp only [before, index, decide_eq_true_eq]
  omega

end YearMonth

namespace Date

def yearMonth (date : Date) : YearMonth := ⟨date.year, date.month⟩

/-- The lexicographic order of year, month and day. -/
def before (first second : Date) : Bool :=
  decide (first.year < second.year ∨ first.year = second.year ∧
    (first.month < second.month ∨ first.month = second.month ∧ first.day < second.day))

end Date

/-- The conversions of a date library, with their documented behaviour. -/
structure Calendar where
  lastDay : YearMonth → Nat
  sysDays : Date → Int
  fromDays : Int → Date
  lastDay_pos : ∀ ym : YearMonth, ym.Valid → 0 < lastDay ym
  fromDays_month : ∀ n, (fromDays n).yearMonth.Valid
  fromDays_day : ∀ n, 1 ≤ (fromDays n).day ∧ (fromDays n).day ≤ lastDay (fromDays n).yearMonth
  sysDays_fromDays : ∀ n, sysDays (fromDays n) = n
  /-- Days are numbered consecutively inside a month. -/
  sysDays_day : ∀ date : Date, date.yearMonth.Valid →
    sysDays date = sysDays date.yearMonth.first + date.day - 1
  /-- A month begins behind the last day of the month before it. -/
  sysDays_next : ∀ ym : YearMonth, ym.Valid →
    sysDays ym.next.first = sysDays ym.first + lastDay ym
  /-- Serial day 0 is 1970-01-01. -/
  epoch : sysDays ⟨1970, 1, 1⟩ = 0

namespace Calendar

variable (calendar : Calendar)

def ValidDate (date : Date) : Prop :=
  date.yearMonth.Valid ∧ 1 ≤ date.day ∧ date.day ≤ calendar.lastDay date.yearMonth

def firstDay (ym : YearMonth) : Int := calendar.sysDays ym.first

def monthOf (n : Int) : YearMonth := (calendar.fromDays n).yearMonth

variable {calendar}

theorem validDate_fromDays (calendar : Calendar) (n : Int) : calendar.ValidDate (calendar.fromDays n) :=
  ⟨calendar.fromDays_month n, calendar.fromDays_day n⟩

theorem valid_monthOf (calendar : Calendar) (n : Int) : (calendar.monthOf n).Valid := calendar.fromDays_month n

theorem firstDay_next {ym : YearMonth} (valid : ym.Valid) :
    calendar.firstDay ym.next = calendar.firstDay ym + calendar.lastDay ym :=
  calendar.sysDays_next ym valid

theorem firstDay_lt_next (calendar : Calendar) {ym : YearMonth} (valid : ym.Valid) :
    calendar.firstDay ym < calendar.firstDay ym.next := by
  have positive := calendar.lastDay_pos ym valid
  rw [firstDay_next valid]
  omega

theorem firstDay_mono (calendar : Calendar) {a b : YearMonth} (validA : a.Valid) (validB : b.Valid)
    (le : a.index ≤ b.index) : calendar.firstDay a ≤ calendar.firstDay b := by
  -- Month by month: the induction is on the distance of the two.
  obtain ⟨gap, far⟩ := Int.eq_ofNat_of_zero_le (Int.sub_nonneg.mpr le)
  induction gap generalizing a with
  | zero => rw [YearMonth.eq_of_index validA validB (by omega)]
  | succ gap ih =>
    have step := calendar.firstDay_lt_next validA
    have next := YearMonth.index_next a
    have rest := ih validA.next (by omega) (by omega)
    omega

theorem sysDays_eq {date : Date} (valid : date.yearMonth.Valid) :
    calendar.sysDays date = calendar.firstDay date.yearMonth + date.day - 1 :=
  calendar.sysDays_day date valid

/-- A valid date lies in its month. -/
theorem sysDays_bounds {date : Date} (valid : calendar.ValidDate date) :
    calendar.firstDay date.yearMonth ≤ calendar.sysDays date ∧
      calendar.sysDays date < calendar.firstDay date.yearMonth.next := by
  obtain ⟨month, lower, upper⟩ := valid
  rw [sysDays_eq month, firstDay_next month]
  omega

theorem monthOf_bounds (calendar : Calendar) (n : Int) :
    calendar.firstDay (calendar.monthOf n) ≤ n ∧ n < calendar.firstDay (calendar.monthOf n).next := by
  have bounds := sysDays_bounds (calendar.validDate_fromDays n)
  rwa [calendar.sysDays_fromDays] at bounds

/-- Months are disjoint, so the month a day lies in is its month. -/
theorem monthOf_eq {ym : YearMonth} (valid : ym.Valid) {n : Int} (lower : calendar.firstDay ym ≤ n)
    (upper : n < calendar.firstDay ym.next) : calendar.monthOf n = ym := by
  have own := calendar.monthOf_bounds n
  have validOwn := calendar.valid_monthOf n
  refine YearMonth.eq_of_index validOwn valid (le_antisymm ?_ ?_)
  · by_contra later
    have far := calendar.firstDay_mono valid.next validOwn
      (by rw [YearMonth.index_next]; omega)
    omega
  · by_contra earlier
    have far := calendar.firstDay_mono validOwn.next valid
      (by rw [YearMonth.index_next]; omega)
    omega

theorem monthOf_mono (calendar : Calendar) {m n : Int} (le : m ≤ n) :
    (calendar.monthOf m).index ≤ (calendar.monthOf n).index := by
  by_contra later
  have far := calendar.firstDay_mono (calendar.valid_monthOf n).next
    (calendar.valid_monthOf m) (by rw [YearMonth.index_next]; omega)
  have boundsM := calendar.monthOf_bounds m
  have boundsN := calendar.monthOf_bounds n
  omega

/-- A valid date is determined by its serial day: the day fixes the month, and then the rest. -/
theorem eq_of_sysDays {a b : Date} (validA : calendar.ValidDate a) (validB : calendar.ValidDate b)
    (same : calendar.sysDays a = calendar.sysDays b) : a = b := by
  have boundsA := sysDays_bounds validA
  have boundsB := sysDays_bounds validB
  have month : a.yearMonth = b.yearMonth := by
    rw [← monthOf_eq validA.1 boundsA.1 boundsA.2, ← monthOf_eq validB.1 boundsB.1 boundsB.2, same]
  rw [sysDays_eq validA.1, sysDays_eq validB.1, month] at same
  have day : a.day = b.day := by omega
  simp only [Date.yearMonth, YearMonth.mk.injEq] at month
  cases a
  cases b
  simp_all

theorem fromDays_sysDays {date : Date} (valid : calendar.ValidDate date) :
    calendar.fromDays (calendar.sysDays date) = date :=
  eq_of_sysDays (calendar.validDate_fromDays _) valid (calendar.sysDays_fromDays _)

/-- One day later: the next one of the month, or the first one of the next month. -/
def follow (calendar : Calendar) (date : Date) : Date :=
  if date.day = calendar.lastDay date.yearMonth then date.yearMonth.next.first
  else { date with day := date.day + 1 }

theorem validDate_follow {date : Date} (valid : calendar.ValidDate date) : calendar.ValidDate (calendar.follow date) := by
  obtain ⟨month, lower, upper⟩ := valid
  unfold follow
  split
  · exact ⟨month.next, Nat.le_refl 1, calendar.lastDay_pos _ month.next⟩
  · next inside => exact ⟨month, Nat.le_add_left 1 _, Nat.lt_of_le_of_ne upper inside⟩

theorem sysDays_follow {date : Date} (valid : date.yearMonth.Valid) :
    calendar.sysDays (calendar.follow date) = calendar.sysDays date + 1 := by
  have own := @sysDays_eq calendar date valid
  unfold follow
  split
  · next last =>
    have month := @firstDay_next calendar date.yearMonth valid
    rw [← firstDay, month, own, last]
    omega
  · have behind := @sysDays_eq calendar { date with day := date.day + 1 } valid
    rw [behind, own]
    simp only [Date.yearMonth]
    omega

/-- Stepping through the serial number is stepping through the calendar. -/
theorem fromDays_succ {date : Date} (valid : calendar.ValidDate date) :
    calendar.fromDays (calendar.sysDays date + 1) = calendar.follow date := by
  rw [← sysDays_follow valid.1, fromDays_sysDays (validDate_follow valid)]

/-- The serial number orders the dates. -/
theorem before_iff {a b : Date} (validA : calendar.ValidDate a) (validB : calendar.ValidDate b) :
    a.before b = true ↔ calendar.sysDays a < calendar.sysDays b := by
  have boundsA := sysDays_bounds validA
  have boundsB := sysDays_bounds validB
  have monthwise : a.before b = true ↔
      a.yearMonth.index < b.yearMonth.index ∨ a.yearMonth = b.yearMonth ∧ a.day < b.day := by
    obtain ⟨⟨lowerA, upperA⟩, -⟩ := validA
    obtain ⟨⟨lowerB, upperB⟩, -⟩ := validB
    simp only [Date.before, Date.yearMonth, YearMonth.index, YearMonth.mk.injEq, decide_eq_true_eq] at *
    omega
  rw [monthwise]
  constructor
  · rintro (earlier | ⟨same, day⟩)
    · have far := calendar.firstDay_mono validA.1.next validB.1
        (by rw [YearMonth.index_next]; omega)
      omega
    · rw [sysDays_eq validA.1, sysDays_eq validB.1, same]
      omega
  · intro less
    have order := calendar.monthOf_mono (Int.le_of_lt less)
    rw [monthOf_eq validA.1 boundsA.1 boundsA.2, monthOf_eq validB.1 boundsB.1 boundsB.2] at order
    -- An earlier day lies in no later month; inside a month the days decide.
    rcases Int.lt_or_eq_of_le order with earlier | same
    · exact Or.inl earlier
    · have month := YearMonth.eq_of_index validA.1 validB.1 same
      rw [sysDays_eq validA.1, sysDays_eq validB.1, month] at less
      exact Or.inr ⟨month, by omega⟩

end Calendar

end Civil
