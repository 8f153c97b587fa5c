import SaivBot.Logs.Accounting

/-! Which of the requested logs can hold a line of the period.

A period does not include its end, the loops include the month and the day of the
end. Where the end is the first instant of that month or day, its log is requested
and no instant of it lies in the period.
-/

set_option autoImplicit false

namespace SaivBot
open Civil

namespace LogRequest

/-- The log and the query share an instant. -/
def Contributes (period : TimeDetail.TimePeriod) (target : Target) : Prop :=
  ∃ point, target.period.isInside point = true ∧ period.isInside point = true

/-- The first instant of the last month or day that is asked for. -/
def lastBegin (calendar : Calendar) (allUsers : Bool) (period : TimeDetail.TimePeriod) : TimePoint :=
  let day := TimeDetail.floorDays period.endTime
  if allUsers then day * ticksPerDay else calendar.firstDay (calendar.monthOf day) * ticksPerDay

/-- Some log is asked for. -/
def Asks (allUsers : Bool) (channels users : List Bytes) : Prop :=
  channels ≠ [] ∧ (allUsers = true ∨ users ≠ [])

variable {calendar : Calendar} {period : TimeDetail.TimePeriod}

/-- Whole days that reach from the period's begin or its end: they share an instant with it unless they
start with its end. -/
theorem contributes_days_iff {beginTime endTime first last : Int} (ordered : beginTime < endTime)
    (days : first < last) (begins : TimeDetail.floorDays beginTime < last)
    (ends : first ≤ TimeDetail.floorDays endTime) :
    (∃ point : Int, (first * ticksPerDay ≤ point ∧ point < last * ticksPerDay) ∧
        beginTime ≤ point ∧ point < endTime) ↔ endTime ≠ first * ticksPerDay := by
  simp only [TimeDetail.floorDays, ticksPerDay, ticksPerSecond] at *
  constructor
  · rintro ⟨point, ⟨lower, -⟩, -, upper⟩ rfl
    omega
  · intro inside
    -- The later of the two begins lies in front of both ends.
    refine ⟨max beginTime (first * (86400 * 1000000000)), ?_, ?_⟩ <;> omega

theorem contributes_month_iff (ordered : period.beginTime < period.endTime)
    (convertible : Convertible calendar period) {ym : YearMonth} (touched : Touches calendar period ym)
    (service : LogService) (channel user : Bytes) :
    Contributes period (userTarget calendar service channel user ym) ↔
      period.endTime ≠ calendar.firstDay ym * ticksPerDay := by
  have fits := convertible ym touched
  obtain ⟨valid, lower, upper⟩ := touched
  have begins : TimeDetail.floorDays period.beginTime < calendar.firstDay ym.next := by
    have own := (calendar.monthOf_bounds (TimeDetail.floorDays period.beginTime)).2
    have later := calendar.firstDay_mono (calendar.valid_monthOf (TimeDetail.floorDays period.beginTime)).next valid.next
      (by rw [YearMonth.index_next, YearMonth.index_next]; omega)
    omega
  have ends : calendar.firstDay ym ≤ TimeDetail.floorDays period.endTime := by
    have own := (calendar.monthOf_bounds (TimeDetail.floorDays period.endTime)).1
    have earlier := calendar.firstDay_mono valid (calendar.valid_monthOf _) upper
    omega
  rw [← contributes_days_iff ordered (calendar.firstDay_lt_next valid) begins ends]
  have start : (userTarget calendar service channel user ym).period.beginTime = calendar.firstDay ym * ticksPerDay :=
    TimeDetail.ofDays_of_representable fits.1
  have stop : (userTarget calendar service channel user ym).period.endTime =
      calendar.firstDay ym.next * ticksPerDay := TimeDetail.ofDays_of_representable fits.2
  simp only [Contributes, TimeDetail.TimePeriod.isInside_iff, start, stop]

theorem contributes_day_iff (ordered : period.beginTime < period.endTime)
    (convertible : Convertible calendar period) {date : Date} (touched : TouchesDay calendar period date)
    (service : LogService) (channel : Bytes) :
    Contributes period (channelTarget calendar service channel date) ↔
      period.endTime ≠ calendar.sysDays date * ticksPerDay := by
  obtain ⟨fits, fitsNext⟩ := day_convertible convertible touched
  obtain ⟨valid, lower, upper⟩ := touched
  rw [← contributes_days_iff ordered (Int.lt_succ _) (Int.lt_add_one_of_le lower) upper]
  have start : (channelTarget calendar service channel date).period.beginTime = calendar.sysDays date * ticksPerDay :=
    TimeDetail.ofDays_of_representable fits
  have stop : (channelTarget calendar service channel date).period.endTime =
      (calendar.sysDays date + 1) * ticksPerDay := TimeDetail.ofDays_of_representable fitsNext
  simp only [Contributes, TimeDetail.TimePeriod.isInside_iff, start, stop]

/-- The month of the end is one of those asked for. -/
theorem touches_last (ordered : period.beginTime ≤ period.endTime) :
    Touches calendar period (calendar.monthOf (TimeDetail.floorDays period.endTime)) :=
  ⟨calendar.valid_monthOf _, calendar.monthOf_mono (TimeDetail.floorDays_mono ordered), Int.le_refl _⟩

theorem touchesDay_last (ordered : period.beginTime ≤ period.endTime) :
    TouchesDay calendar period (calendar.fromDays (TimeDetail.floorDays period.endTime)) := by
  refine ⟨calendar.validDate_fromDays _, ?_, ?_⟩
  · rw [calendar.sysDays_fromDays]
    exact TimeDetail.floorDays_mono ordered
  · rw [calendar.sysDays_fromDays]

theorem floorDays_mul (day : Int) : TimeDetail.floorDays (day * ticksPerDay) = day := by
  simp only [TimeDetail.floorDays, ticksPerDay, ticksPerSecond]
  omega

variable {date : DateParser} {service : LogService} {channels users : List Bytes} {request : LogRequest}

theorem all_contribute_users (ordered : period.beginTime < period.endTime)
    (convertible : Convertible calendar period)
    (filled : fillLogRequestTargetFields calendar date service false period channels users = some request) :
    (∀ target ∈ request.targets, Contributes period target) ↔
      (Asks false channels users → period.endTime ≠ lastBegin calendar false period) := by
  obtain ⟨months, listed, members, -⟩ := periodToYearMonths_spec calendar period
  obtain ⟨_, same, -, targets⟩ := fill_users_targets date service listed channels users
  obtain rfl := Option.some.inj (filled.symm.trans same)
  rw [targets]
  simp only [List.mem_flatMap, List.mem_map]
  constructor
  · rintro all ⟨named, asked | asked⟩
    · cases asked
    · obtain ⟨channel, channelMember⟩ := List.exists_mem_of_ne_nil channels named
      obtain ⟨user, userMember⟩ := List.exists_mem_of_ne_nil users asked
      have last : Touches calendar period _ := touches_last (Int.le_of_lt ordered)
      exact (contributes_month_iff ordered convertible last service channel user).mp
        (all _ ⟨channel, channelMember, user, userMember, _, (members _).mpr last, rfl⟩)
  · rintro inside target ⟨channel, channelMember, user, userMember, ym, month, rfl⟩
    have touched := (members ym).mp month
    rw [contributes_month_iff ordered convertible touched]
    intro ends
    -- The month that starts with the end is the month of the end.
    have own : calendar.monthOf (TimeDetail.floorDays period.endTime) = ym := by
      rw [ends, floorDays_mul]
      exact Calendar.monthOf_eq touched.1 (Int.le_refl _) (calendar.firstDay_lt_next touched.1)
    refine inside ⟨List.ne_nil_of_mem channelMember, .inr (List.ne_nil_of_mem userMember)⟩ ?_
    simp only [lastBegin, Bool.false_eq_true, ↓reduceIte, own]
    exact ends

theorem all_contribute_days (ordered : period.beginTime < period.endTime)
    (convertible : Convertible calendar period)
    (filled : fillLogRequestTargetFields calendar date service true period channels users = some request) :
    (∀ target ∈ request.targets, Contributes period target) ↔
      (Asks true channels users → period.endTime ≠ lastBegin calendar true period) := by
  obtain ⟨dates, listed, members, -⟩ := periodToDates_spec calendar period
  obtain ⟨_, same, -, targets⟩ := fill_days_targets date service listed channels users
  obtain rfl := Option.some.inj (filled.symm.trans same)
  rw [targets]
  simp only [List.mem_flatMap, List.mem_map]
  constructor
  · rintro all ⟨named, -⟩
    obtain ⟨channel, channelMember⟩ := List.exists_mem_of_ne_nil channels named
    have last : TouchesDay calendar period _ := touchesDay_last (Int.le_of_lt ordered)
    have inside := (contributes_day_iff ordered convertible last service channel).mp
      (all _ ⟨channel, channelMember, _, (members _).mpr last, rfl⟩)
    rwa [calendar.sysDays_fromDays] at inside
  · rintro inside target ⟨channel, channelMember, day, touched, rfl⟩
    rw [contributes_day_iff ordered convertible ((members day).mp touched)]
    intro ends
    have own : TimeDetail.floorDays period.endTime = calendar.sysDays day := by rw [ends, floorDays_mul]
    refine inside ⟨List.ne_nil_of_mem channelMember, .inl rfl⟩ ?_
    simp only [lastBegin, ↓reduceIte, own]
    exact ends

/-- The months from the first to the last are representable when its two ends are. -/
theorem convertible_of_ends
    (first : TimeDetail.DayRepresentable (calendar.firstDay (calendar.monthOf (TimeDetail.floorDays period.beginTime))))
    (last : TimeDetail.DayRepresentable
      (calendar.firstDay (calendar.monthOf (TimeDetail.floorDays period.endTime)).next)) :
    Convertible calendar period := by
  rintro ym ⟨valid, lower, upper⟩
  have begins := calendar.firstDay_mono (calendar.valid_monthOf _) valid lower
  have ends := calendar.firstDay_mono valid.next (calendar.valid_monthOf (TimeDetail.floorDays period.endTime)).next
    (by rw [YearMonth.index_next, YearMonth.index_next]; omega)
  have month := calendar.firstDay_lt_next valid
  exact ⟨TimeDetail.dayRepresentable_between first last begins (by omega),
    TimeDetail.dayRepresentable_between first last (by omega) ends⟩

/-! February 2019: the default period of a query made in it, and half a day less. -/

def february : TimeDetail.TimePeriod :=
  ⟨gregorian.sysDays ⟨2019, 2, 1⟩ * ticksPerDay, gregorian.sysDays ⟨2019, 3, 1⟩ * ticksPerDay⟩

def mostOfFebruary : TimeDetail.TimePeriod :=
  ⟨february.beginTime, february.endTime - ticksPerDay / 2⟩

/-- Every log requested shares an instant with the period exactly when the period does not end with the
first instant of the last month (for all users: day) asked for. -/
theorem all_contribute_iff (calendar : Calendar) (date : DateParser) (service : LogService) (allUsers : Bool)
    (period : TimeDetail.TimePeriod) (channels users : List Bytes) (request : LogRequest)
    (ordered : period.beginTime < period.endTime) (convertible : Convertible calendar period)
    (filled : fillLogRequestTargetFields calendar date service allUsers period channels users = some request) :
    (∀ target ∈ request.targets, Contributes period target) ↔
      (Asks allUsers channels users → period.endTime ≠ lastBegin calendar allUsers period) := by
  cases allUsers with
  | false => exact all_contribute_users ordered convertible filled
  | true => exact all_contribute_days ordered convertible filled

theorem all_contribute_february : ∃ request,
    fillLogRequestTargetFields gregorian LogParsing.sampleParser .gempirLog false mostOfFebruary sampleChannels
      sampleUsers = some request ∧ ∀ target ∈ request.targets, Contributes mostOfFebruary target := by
  obtain ⟨request, filled⟩ := fillLogRequestTargetFields_some gregorian LogParsing.sampleParser .gempirLog false
    mostOfFebruary sampleChannels sampleUsers
  refine ⟨request, filled, ?_⟩
  have convertible : Convertible gregorian mostOfFebruary := convertible_of_ends (by decide) (by decide)
  exact (all_contribute_iff gregorian LogParsing.sampleParser .gempirLog false mostOfFebruary sampleChannels
    sampleUsers request (by decide) convertible filled).mpr fun _ => by decide

/-- March is requested for February. -/
theorem february_asks_for_march : ¬ ∀ (calendar : Calendar) (date : DateParser) (service : LogService) (allUsers : Bool)
    (period : TimeDetail.TimePeriod) (channels users : List Bytes) (request : LogRequest),
    period.beginTime < period.endTime → Convertible calendar period →
      fillLogRequestTargetFields calendar date service allUsers period channels users = some request →
        ∀ target ∈ request.targets, Contributes period target := by
  intro all
  have convertible : Convertible gregorian february := convertible_of_ends (by decide) (by decide)
  obtain ⟨request, filled⟩ := fillLogRequestTargetFields_some gregorian LogParsing.sampleParser .gempirLog false
    february sampleChannels sampleUsers
  have contribute := all gregorian LogParsing.sampleParser .gempirLog false february sampleChannels sampleUsers
    request (by decide) convertible filled
  have asks : Asks false sampleChannels sampleUsers := ⟨by decide, .inr (by decide)⟩
  exact (all_contribute_users (by decide) convertible filled).mp contribute asks (by decide)

end LogRequest

end SaivBot
