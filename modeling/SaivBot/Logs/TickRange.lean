import SaivBot.Logs.Instants
import SaivBot.Logs.Relevance

/-! Periods whose instants fit into the tick counter.

A year of four digits may lie outside the 584 years that 64 bits of nanoseconds count,
and the last log of a period ends behind the period. Nothing checks either.
-/

set_option autoImplicit false

namespace SaivBot
open Civil

namespace LogRequest

/-- No conversion of the two texts and of the logs requested for them overflows: the period is the one named,
and no period constructed ends before it begins. -/
structure Exact (calendar : Calendar) (first last : Stamp) (period : TimeDetail.TimePeriod) : Prop where
  fitsFirst : Representable (first.instant calendar)
  fitsLast : Representable (last.instant calendar)
  named : period = ⟨first.instant calendar, last.instant calendar⟩
  ordered : period.beginTime ≤ period.endTime
  months : ∀ months, periodToYearMonths calendar period = some months → ∀ ym ∈ months,
    TimeDetail.MonthRepresentable calendar ym ∧
      (TimeDetail.createYearMonthPeriod calendar ym).beginTime ≤ (TimeDetail.createYearMonthPeriod calendar ym).endTime
  days : ∀ dates, periodToDates calendar period = some dates → ∀ date ∈ dates,
    (TimeDetail.DayRepresentable (calendar.sysDays date) ∧ TimeDetail.DayRepresentable (calendar.sysDays date + 1)) ∧
      (TimeDetail.createYearMonthDayPeriod calendar date).beginTime ≤
        (TimeDetail.createYearMonthDayPeriod calendar date).endTime

/-- A date from October 1677 to March 2262. -/
def InRange (stamp : Stamp) : Prop :=
  YearMonth.index ⟨1677, 10⟩ ≤ stamp.date.yearMonth.index ∧ stamp.date.yearMonth.index ≤ YearMonth.index ⟨2262, 3⟩

instance (stamp : Stamp) : Decidable (InRange stamp) := inferInstanceAs (Decidable (_ ∧ _))

variable {calendar : Calendar} {stamp first last : Stamp} {period : TimeDetail.TimePeriod} {view : Bytes}

/-- A text that is read has a valid date and time of day. -/
theorem valid_of_stampOf (read : TimeDetail.stampOf calendar view = some stamp) : stamp.Valid calendar := by
  have valid (top : Nat) (read : TimeDetail.longestStamp calendar view top = some stamp) : stamp.Valid calendar := by
    induction top with
    | zero =>
      obtain ⟨_, _, _, _, valid⟩ := TimeDetail.readStamp_eq_some.mp read
      exact valid
    | succ top ih =>
      rcases Option.or_eq_some_iff.mp read with longest | ⟨-, shorter⟩
      · obtain ⟨_, _, _, _, valid⟩ := TimeDetail.readStamp_eq_some.mp longest
        exact valid
      · exact ih shorter
  exact valid 5 read

/-- The day of an instant is the one that its text names. -/
theorem floorDays_instant (valid : stamp.Valid calendar) :
    TimeDetail.floorDays (stamp.instant calendar) = calendar.sysDays stamp.date := by
  obtain ⟨-, hour, minute, second⟩ := valid
  simp only [TimeDetail.floorDays, Stamp.instant, Stamp.secondOfDay, ticksPerDay, ticksPerSecond]
  omega

theorem monthOf_instant (valid : stamp.Valid calendar) :
    calendar.monthOf (TimeDetail.floorDays (stamp.instant calendar)) = stamp.date.yearMonth := by
  have bounds := Calendar.sysDays_bounds valid.1
  rw [floorDays_instant valid]
  exact Calendar.monthOf_eq valid.1.1 bounds.1 bounds.2

/-- Between two days that can be represented, so can every instant. -/
theorem representable_between {day behind point : Int} (fitsDay : TimeDetail.DayRepresentable day)
    (fitsUntil : TimeDetail.DayRepresentable behind) (lower : day ≤ TimeDetail.floorDays point)
    (upper : TimeDetail.floorDays point < behind) : Representable point := by
  obtain ⟨begins, ends⟩ := (TimeDetail.between_days_iff point day behind).mpr ⟨lower, upper⟩
  exact ⟨le_trans fitsDay.1 begins, lt_trans ends fitsUntil.2⟩

/-! The first and the last month of the counter, in the Gregorian calendar. -/

theorem first_month {ym : YearMonth} (valid : ym.Valid) (fits : TimeDetail.DayRepresentable (gregorian.firstDay ym)) :
    YearMonth.index ⟨1677, 10⟩ ≤ ym.index := by
  by_contra early
  have before := gregorian.firstDay_mono valid (b := ⟨1677, 9⟩) ⟨by decide, by decide⟩
    (by simp only [YearMonth.index] at early ⊢; omega)
  have origin : TimeDetail.DayRepresentable 0 := by decide
  have september := TimeDetail.dayRepresentable_between fits origin before (by decide)
  exact absurd september (by decide)

theorem last_month {ym : YearMonth} (valid : ym.Valid)
    (fits : TimeDetail.DayRepresentable (gregorian.firstDay ym.next)) : ym.index ≤ YearMonth.index ⟨2262, 3⟩ := by
  by_contra late
  have behind := gregorian.firstDay_mono (a := ⟨2262, 5⟩) ⟨by decide, by decide⟩ valid.next
    (by rw [YearMonth.index_next]; simp only [YearMonth.index] at late ⊢; omega)
  have origin : TimeDetail.DayRepresentable 0 := by decide
  have may := TimeDetail.dayRepresentable_between origin fits (by decide) behind
  exact absurd may (by decide)

theorem firstDay_of_inRange (valid : stamp.Valid gregorian) (inRange : InRange stamp) :
    TimeDetail.DayRepresentable (gregorian.firstDay stamp.date.yearMonth) ∧
      TimeDetail.DayRepresentable (gregorian.firstDay stamp.date.yearMonth.next) := by
  obtain ⟨lower, upper⟩ := inRange
  have begins := gregorian.firstDay_mono (a := ⟨1677, 10⟩) ⟨by decide, by decide⟩ valid.1.1 lower
  have ends := gregorian.firstDay_mono valid.1.1.next (b := ⟨2262, 4⟩) ⟨by decide, by decide⟩
    (by rw [YearMonth.index_next]; simp only [YearMonth.index] at upper ⊢; omega)
  have month := gregorian.firstDay_lt_next valid.1.1
  have october : TimeDetail.DayRepresentable (gregorian.firstDay ⟨1677, 10⟩) := by decide
  have april : TimeDetail.DayRepresentable (gregorian.firstDay ⟨2262, 4⟩) := by decide
  exact ⟨TimeDetail.dayRepresentable_between october april begins (by omega),
    TimeDetail.dayRepresentable_between october april (by omega) ends⟩

theorem instant_of_inRange (valid : stamp.Valid gregorian) (inRange : InRange stamp) :
    Representable (stamp.instant gregorian) := by
  obtain ⟨begins, ends⟩ := firstDay_of_inRange valid inRange
  obtain ⟨lower, upper⟩ := Calendar.sysDays_bounds valid.1
  apply representable_between begins ends <;> rwa [floorDays_instant valid]

/-- Two texts in the range and in order: everything between the two months fits. -/
theorem exact_of_inRange (validFirst : first.Valid gregorian) (validLast : last.Valid gregorian)
    (inRangeFirst : InRange first) (inRangeLast : InRange last)
    (named : period = ⟨first.instant gregorian, last.instant gregorian⟩)
    (ordered : period.beginTime ≤ period.endTime) : Exact gregorian first last period := by
  have begins : gregorian.monthOf (TimeDetail.floorDays period.beginTime) = first.date.yearMonth := by
    rw [named, monthOf_instant validFirst]
  have ends : gregorian.monthOf (TimeDetail.floorDays period.endTime) = last.date.yearMonth := by
    rw [named, monthOf_instant validLast]
  have convertible : Convertible gregorian period := by
    apply convertible_of_ends
    · rw [begins]
      exact (firstDay_of_inRange validFirst inRangeFirst).1
    · rw [ends]
      exact (firstDay_of_inRange validLast inRangeLast).2
  refine ⟨instant_of_inRange validFirst inRangeFirst, instant_of_inRange validLast inRangeLast, named, ordered,
    ?_, ?_⟩
  · intro months listed ym member
    obtain ⟨_, same, members, -⟩ := periodToYearMonths_spec gregorian period
    obtain rfl := Option.some.inj (listed.symm.trans same)
    have touched := (members ym).mp member
    have fits := convertible ym touched
    refine ⟨fits, ?_⟩
    have less := gregorian.firstDay_lt_next touched.1
    rw [TimeDetail.createYearMonthPeriod, ← Calendar.firstDay, ← Calendar.firstDay,
      TimeDetail.ofDays_of_representable fits.1, TimeDetail.ofDays_of_representable fits.2]
    exact Int.mul_le_mul_of_nonneg_right (Int.le_of_lt less) (by decide)
  · intro dates listed date member
    obtain ⟨_, same, members, -⟩ := periodToDates_spec gregorian period
    obtain rfl := Option.some.inj (listed.symm.trans same)
    have fits := day_convertible convertible ((members date).mp member)
    refine ⟨fits, ?_⟩
    rw [TimeDetail.createYearMonthDayPeriod, TimeDetail.ofDays_of_representable fits.1,
      TimeDetail.ofDays_of_representable fits.2]
    exact Int.mul_le_mul_of_nonneg_right (Int.le_add_one (Int.le_refl _)) (by decide)

/-- The first month and the last one are requested, and the two texts are in order. -/
theorem Exact.inRange (exact : Exact gregorian first last period) (validFirst : first.Valid gregorian)
    (validLast : last.Valid gregorian) : InRange first ∧ InRange last := by
  obtain ⟨-, -, named, ordered, converted, -⟩ := exact
  obtain ⟨months, listed, members, -⟩ := periodToYearMonths_spec gregorian period
  have begins : gregorian.monthOf (TimeDetail.floorDays period.beginTime) = first.date.yearMonth := by
    rw [named, monthOf_instant validFirst]
  have ends : gregorian.monthOf (TimeDetail.floorDays period.endTime) = last.date.yearMonth := by
    rw [named, monthOf_instant validLast]
  have order := gregorian.monthOf_mono (TimeDetail.floorDays_mono ordered)
  rw [begins, ends] at order
  have touchesFirst : Touches gregorian period first.date.yearMonth := by
    refine ⟨validFirst.1.1, ?_, ?_⟩
    · rw [begins]
    · rw [ends]
      exact order
  have touchesLast : Touches gregorian period last.date.yearMonth := by
    rw [← ends]
    exact touches_last ordered
  have lower := first_month validFirst.1.1 (converted months listed _ ((members _).mpr touchesFirst)).1.1
  have upper := last_month validLast.1.1 (converted months listed _ ((members _).mpr touchesLast)).1.2
  exact ⟨⟨lower, le_trans order upper⟩, ⟨le_trans lower order, upper⟩⟩

/-- An accepted period is the wrapped one of two texts that have been read, and in order. -/
theorem parseTimePeriod_eq_some {date : DateParser} (reads : date.ReadsFields calendar) {beginView endView : Bytes}
    (accepted : TimeDetail.parseTimePeriod calendar date beginView endView = some period) :
    ∃ first last, TimeDetail.stampOf calendar beginView = some first ∧
      TimeDetail.stampOf calendar endView = some last ∧
      period = ⟨wrapTicks (first.instant calendar), wrapTicks (last.instant calendar)⟩ ∧
      period.beginTime ≤ period.endTime := by
  unfold TimeDetail.parseTimePeriod at accepted
  rw [TimeDetail.parseTimePointString_eq reads, TimeDetail.parseTimePointString_eq reads] at accepted
  cases begins : TimeDetail.stampOf calendar beginView with
  | none =>
    rw [begins] at accepted
    cases accepted
  | some first =>
    cases ends : TimeDetail.stampOf calendar endView with
    | none =>
      rw [begins, ends] at accepted
      cases accepted
    | some last =>
      rw [begins, ends] at accepted
      simp only [Option.map_some, Option.ite_none_left_eq_some, Option.some.injEq] at accepted
      obtain ⟨ordered, rfl⟩ := accepted
      exact ⟨first, last, rfl, rfl, rfl, not_lt.mp ordered⟩

/-- For two accepted texts nothing overflows exactly when both name dates from October 1677 to March 2262. -/
theorem exact_iff_inRange (date : DateParser) (reads : date.ReadsFields gregorian) (beginView endView : Bytes)
    (period : TimeDetail.TimePeriod)
    (accepted : TimeDetail.parseTimePeriod gregorian date beginView endView = some period) :
    ∃ first last, TimeDetail.stampOf gregorian beginView = some first ∧
      TimeDetail.stampOf gregorian endView = some last ∧
      (Exact gregorian first last period ↔ InRange first ∧ InRange last) := by
  obtain ⟨first, last, begins, ends, wrapped, ordered⟩ := parseTimePeriod_eq_some reads accepted
  have validFirst := valid_of_stampOf begins
  have validLast := valid_of_stampOf ends
  refine ⟨first, last, begins, ends, fun exact => exact.inRange validFirst validLast, ?_⟩
  rintro ⟨inRangeFirst, inRangeLast⟩
  have named : period = ⟨first.instant gregorian, last.instant gregorian⟩ := by
    rw [wrapped, wrapTicks_of_representable (instant_of_inRange validFirst inRangeFirst),
      wrapTicks_of_representable (instant_of_inRange validLast inRangeLast)]
  exact exact_of_inRange validFirst validLast inRangeFirst inRangeLast named ordered

theorem exact_iff_inRange_day : ∃ first last,
    TimeDetail.stampOf gregorian (ascii "2019-02-08") = some first ∧
      TimeDetail.stampOf gregorian (ascii "2019-02-09") = some last ∧
      Exact gregorian first last
        ⟨gregorian.sysDays ⟨2019, 2, 8⟩ * ticksPerDay, gregorian.sysDays ⟨2019, 2, 9⟩ * ticksPerDay⟩ := by
  have accepted : TimeDetail.parseTimePeriod gregorian (TimeDetail.fieldParser gregorian) (ascii "2019-02-08")
      (ascii "2019-02-09") =
      some ⟨gregorian.sysDays ⟨2019, 2, 8⟩ * ticksPerDay, gregorian.sysDays ⟨2019, 2, 9⟩ * ticksPerDay⟩ := by decide
  obtain ⟨first, last, begins, ends, exact_iff⟩ := exact_iff_inRange (TimeDetail.fieldParser gregorian)
    (TimeDetail.readsFields_fieldParser gregorian) (ascii "2019-02-08") (ascii "2019-02-09") _ accepted
  have eighth : TimeDetail.stampOf gregorian (ascii "2019-02-08") = some ⟨⟨2019, 2, 8⟩, 0, 0, 0⟩ := by decide
  have ninth : TimeDetail.stampOf gregorian (ascii "2019-02-09") = some ⟨⟨2019, 2, 9⟩, 0, 0, 0⟩ := by decide
  obtain rfl := Option.some.inj (eighth.symm.trans begins)
  obtain rfl := Option.some.inj (ninth.symm.trans ends)
  exact ⟨_, _, begins, ends, exact_iff.mpr ⟨by decide, by decide⟩⟩

/-- The two texts fit, the end of the month they lie in does not: the period of its log ends before it begins. -/
theorem april_2262_overflows : ¬ ∀ (date : DateParser), date.ReadsFields gregorian → ∀ beginView endView period,
    TimeDetail.parseTimePeriod gregorian date beginView endView = some period →
      ∃ first last, TimeDetail.stampOf gregorian beginView = some first ∧
        TimeDetail.stampOf gregorian endView = some last ∧ Exact gregorian first last period := by
  intro exact
  have accepted : TimeDetail.parseTimePeriod gregorian (TimeDetail.fieldParser gregorian) (ascii "2262-04-01")
      (ascii "2262-04-02") =
      some ⟨gregorian.sysDays ⟨2262, 4, 1⟩ * ticksPerDay, gregorian.sysDays ⟨2262, 4, 2⟩ * ticksPerDay⟩ := by decide
  obtain ⟨first, last, -, -, exact⟩ :=
    exact _ (TimeDetail.readsFields_fieldParser gregorian) _ _ _ accepted
  have april : periodToYearMonths gregorian
      ⟨gregorian.sysDays ⟨2262, 4, 1⟩ * ticksPerDay, gregorian.sysDays ⟨2262, 4, 2⟩ * ticksPerDay⟩ =
      some [⟨2262, 4⟩] := by decide
  have ordered := (exact.months _ april ⟨2262, 4⟩ (List.mem_singleton.mpr rfl)).2
  revert ordered
  decide

end LogRequest

end SaivBot
