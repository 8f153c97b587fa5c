import SaivBot.Logs.Relevance

/-! The months and the days of a period, one behind the other.

The loops step through the calendar, the periods of the logs are made of serial days.
Both agree at every boundary, so the logs cover the period without a gap and without
an overlap.
-/

set_option autoImplicit false

namespace SaivBot
open Civil

namespace LogRequest

/-- Values in a row, each one behind the one before it, whose periods tile this one. -/
structure Tiles {α : Type} (period : TimeDetail.TimePeriod) (Valid : α → Prop) (before : α → α → Bool)
    (next : α → α) (span : α → TimeDetail.TimePeriod) (list : List α) : Prop where
  nonempty : list ≠ []
  valid : ∀ a ∈ list, Valid a
  increasing : list.Pairwise fun a b => before a b = true
  consecutive : list.IsChain fun a b => b = next a
  joined : list.IsChain fun a b => (span a).endTime = (span b).beginTime
  first : ∃ a, list.head? = some a ∧ (span a).isInside period.beginTime = true
  last : ∃ a, list.getLast? = some a ∧ (span a).isInside period.endTime = true
  once : ∀ point, period.isInside point = true → ∃! a, a ∈ list ∧ (span a).isInside point = true

variable {calendar : Calendar} {period : TimeDetail.TimePeriod}

/-- Each instant has its value, later instants have no earlier ones, and the period of a value holds the
instants whose value it is. -/
theorem tiles_loop {α : Type} {before : α → α → Bool} {next follow : α → α} {Valid : α → Prop} {index : α → Int}
    {span : α → TimeDetail.TimePeriod} (valueOf : TimePoint → α)
    (numbered : Ascending.Numbered before next Valid index) (ordered : period.beginTime ≤ period.endTime)
    (valid : ∀ point, Valid (valueOf point))
    (mono : ∀ {point later : TimePoint}, point ≤ later → index (valueOf point) ≤ index (valueOf later))
    (agrees : ∀ a, Valid a → next a = follow a)
    (joined : ∀ a, Valid a → (span a).endTime = (span (follow a)).beginTime)
    (inside : ∀ a, Valid a → index (valueOf period.beginTime) ≤ index a → index a ≤ index (valueOf period.endTime) →
      ∀ point : TimePoint, (span a).isInside point = true ↔ valueOf point = a) :
    ∃ list, Ascending.loop before next
        ((index (next (valueOf period.endTime)) - index (valueOf period.beginTime)).toNat + 1)
        (valueOf period.beginTime) (next (valueOf period.endTime)) = some list ∧
      Tiles period Valid before follow span list := by
  have validFirst := valid period.beginTime
  have validEnd := valid period.endTime
  have validLast := numbered.valid_next _ validEnd
  have step := numbered.index_next (valueOf period.endTime)
  have order := mono ordered
  obtain ⟨list, listed, members, increasing⟩ := numbered.loop_spec validFirst validLast (Nat.lt_succ_self _)
  obtain ⟨chain, head, last, final, ends⟩ := numbered.loop_consecutive validFirst validLast (by omega) listed
  have memFirst := List.mem_of_mem_head? head
  have memLast := List.mem_of_getLast? final
  have validIn : ∀ a ∈ list, Valid a := fun a member => ((members a).mp member).1
  have holds : ∀ a ∈ list, ∀ point : TimePoint, (span a).isInside point = true ↔ valueOf point = a := by
    intro a member
    obtain ⟨valid, lower, upper⟩ := (members a).mp member
    exact inside a valid lower (by omega)
  refine ⟨list, listed, ?_⟩
  constructor
  case nonempty => exact List.ne_nil_of_mem memFirst
  case valid => exact validIn
  case increasing =>
    exact increasing.imp_of_mem fun {a b} memA memB less =>
      (numbered.before_iff a b (validIn a memA) (validIn b memB)).mpr less
  case consecutive =>
    refine chain.imp_of_mem_imp fun a b memA _ follows => ?_
    rw [follows]
    exact agrees a (validIn a memA)
  case joined =>
    refine chain.imp_of_mem_imp fun a b memA _ follows => ?_
    rw [follows, agrees a (validIn a memA)]
    exact joined a (validIn a memA)
  case first => exact ⟨_, head, (holds _ memFirst _).mpr rfl⟩
  case last =>
    have own := numbered.index_next last
    rw [ends] at own
    exact ⟨last, final, (holds _ memLast _).mpr (numbered.eq_of_index _ _ validEnd (validIn _ memLast) (by omega))⟩
  case once =>
    intro point within
    obtain ⟨lower, upper⟩ := (period.isInside_iff point).mp within
    have begins := mono lower
    have stops := mono (Int.le_of_lt upper)
    have member : valueOf point ∈ list := (members _).mpr ⟨valid point, begins, by omega⟩
    refine ⟨valueOf point, ⟨member, (holds _ member point).mpr rfl⟩, ?_⟩
    rintro a ⟨memA, insideA⟩
    exact ((holds a memA point).mp insideA).symm

/-- A day ends where the next one begins. -/
theorem day_joined (calendar : Calendar) {date : Date} (valid : calendar.ValidDate date) :
    (TimeDetail.createYearMonthDayPeriod calendar date).endTime =
      (TimeDetail.createYearMonthDayPeriod calendar (calendar.follow date)).beginTime := by
  simp only [TimeDetail.createYearMonthDayPeriod, Calendar.sysDays_follow valid.1]

theorem months_tile (ordered : period.beginTime ≤ period.endTime) (convertible : Convertible calendar period) :
    ∃ months, periodToYearMonths calendar period = some months ∧
      Tiles period YearMonth.Valid YearMonth.before YearMonth.next (TimeDetail.createYearMonthPeriod calendar)
        months := by
  apply tiles_loop (fun point => calendar.monthOf (TimeDetail.floorDays point)) numbered_yearMonths ordered
  · exact fun point => calendar.valid_monthOf _
  · exact fun later => calendar.monthOf_mono (TimeDetail.floorDays_mono later)
  · exact fun _ _ => rfl
  · exact fun _ _ => rfl
  · intro ym valid lower upper
    exact TimeDetail.isInside_month valid (convertible ym ⟨valid, lower, upper⟩)

theorem dates_tile (ordered : period.beginTime ≤ period.endTime) (convertible : Convertible calendar period) :
    ∃ dates, periodToDates calendar period = some dates ∧
      Tiles period calendar.ValidDate Date.before calendar.follow (TimeDetail.createYearMonthDayPeriod calendar)
        dates := by
  apply tiles_loop (fun point => calendar.fromDays (TimeDetail.floorDays point)) (numbered_dates calendar) ordered
  · exact fun point => calendar.validDate_fromDays _
  · intro point later order
    rw [calendar.sysDays_fromDays, calendar.sysDays_fromDays]
    exact TimeDetail.floorDays_mono order
  · exact fun date valid => Calendar.fromDays_succ valid
  · exact fun date valid => day_joined calendar valid
  · intro date valid lower upper
    rw [calendar.sysDays_fromDays] at lower upper
    obtain ⟨fits, fitsNext⟩ := day_convertible convertible ⟨valid, lower, upper⟩
    exact TimeDetail.isInside_day valid fits fitsNext

/-- The months and the days that a period's logs are asked for, for every period whose months can all be
represented. -/
theorem periods_tile (calendar : Calendar) (period : TimeDetail.TimePeriod)
    (ordered : period.beginTime ≤ period.endTime) (convertible : Convertible calendar period) :
    (∃ months, periodToYearMonths calendar period = some months ∧
      Tiles period YearMonth.Valid YearMonth.before YearMonth.next (TimeDetail.createYearMonthPeriod calendar)
        months) ∧
    ∃ dates, periodToDates calendar period = some dates ∧
      Tiles period calendar.ValidDate Date.before calendar.follow (TimeDetail.createYearMonthDayPeriod calendar)
        dates :=
  ⟨months_tile ordered convertible, dates_tile ordered convertible⟩

/-- A leap day and the end of a year lie in this period. -/
theorem periods_tile_leap : ∃ dates,
    periodToDates gregorian
      ⟨gregorian.sysDays ⟨2019, 12, 31⟩ * ticksPerDay, gregorian.sysDays ⟨2020, 3, 1⟩ * ticksPerDay⟩ = some dates ∧
      Tiles ⟨gregorian.sysDays ⟨2019, 12, 31⟩ * ticksPerDay, gregorian.sysDays ⟨2020, 3, 1⟩ * ticksPerDay⟩
        gregorian.ValidDate Date.before gregorian.follow (TimeDetail.createYearMonthDayPeriod gregorian) dates :=
  (periods_tile gregorian
    ⟨gregorian.sysDays ⟨2019, 12, 31⟩ * ticksPerDay, gregorian.sysDays ⟨2020, 3, 1⟩ * ticksPerDay⟩ (by decide)
    (convertible_of_ends (by decide) (by decide))).2

end LogRequest

end SaivBot
