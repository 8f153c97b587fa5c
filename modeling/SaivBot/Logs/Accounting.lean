import SaivBot.Grouping
import SaivBot.Logs.Request
import SaivBot.Logs.RoundTrip

/-! What `count` adds up over all logs of a request.

A chat history is split twice: by user and calendar month, or by calendar day.
Both splits count every line of the period exactly once.
-/

set_option autoImplicit false

namespace SaivBot
open Civil Grouping

def LogService.parser (date : DateParser) : LogService → ParserFunc
  | .gempirLog => LogParsing.gempirLogParser date
  | .overrustleLog => LogParsing.overrustleLogParser date

namespace LogRequest

def userTarget (calendar : Calendar) (service : LogService) (channel user : Bytes) (ym : YearMonth) : Target where
  period := TimeDetail.createYearMonthPeriod calendar ym
  channelName := channel
  logTarget := match service with
    | .gempirLog => createGempirUserTarget channel user ym
    | .overrustleLog => createOverrustleUserTarget channel user ym

def channelTarget (calendar : Calendar) (service : LogService) (channel : Bytes) (date : Date) : Target where
  period := TimeDetail.createYearMonthDayPeriod calendar date
  channelName := channel
  logTarget := match service with
    | .gempirLog => createGempirChannelTarget channel date
    | .overrustleLog => createOverrustleChannelTarget channel date

/-- The calendar months from that of the period's begin through that of its end. -/
def Touches (calendar : Calendar) (period : TimeDetail.TimePeriod) (ym : YearMonth) : Prop :=
  ym.Valid ∧ (calendar.monthOf (TimeDetail.floorDays period.beginTime)).index ≤ ym.index ∧
    ym.index ≤ (calendar.monthOf (TimeDetail.floorDays period.endTime)).index

/-- The calendar days from that of the period's begin through that of its end. -/
def TouchesDay (calendar : Calendar) (period : TimeDetail.TimePeriod) (date : Date) : Prop :=
  calendar.ValidDate date ∧ TimeDetail.floorDays period.beginTime ≤ calendar.sysDays date ∧
    calendar.sysDays date ≤ TimeDetail.floorDays period.endTime

variable {calendar : Calendar} {period : TimeDetail.TimePeriod}

theorem periodToYearMonths_spec (calendar : Calendar) (period : TimeDetail.TimePeriod) :
    ∃ months, periodToYearMonths calendar period = some months ∧
      (∀ ym, ym ∈ months ↔ Touches calendar period ym) ∧ months.Nodup := by
  have next := YearMonth.index_next (calendar.monthOf (TimeDetail.floorDays period.endTime))
  obtain ⟨months, listed, members, increasing⟩ := numbered_yearMonths.loop_spec
    (calendar.valid_monthOf (TimeDetail.floorDays period.beginTime))
    (calendar.valid_monthOf (TimeDetail.floorDays period.endTime)).next
    (Nat.lt_succ_self _)
  refine ⟨months, listed, ?_, increasing.imp ?_⟩
  · intro ym
    rw [members, Touches]
    exact and_congr_right fun _ => and_congr_right fun _ => by rw [next]; exact Int.lt_add_one_iff
  · rintro a b less rfl
    exact lt_irrefl _ less

theorem periodToDates_spec (calendar : Calendar) (period : TimeDetail.TimePeriod) :
    ∃ dates, periodToDates calendar period = some dates ∧
    (∀ date, date ∈ dates ↔ TouchesDay calendar period date) ∧ dates.Nodup := by
  have first := calendar.sysDays_fromDays (TimeDetail.floorDays period.beginTime)
  have last := calendar.sysDays_fromDays (TimeDetail.floorDays period.endTime)
  have next := sysDays_nextDate calendar
    (calendar.fromDays (TimeDetail.floorDays period.endTime))
  obtain ⟨dates, listed, members, increasing⟩ := (numbered_dates calendar).loop_spec
    (calendar.validDate_fromDays (TimeDetail.floorDays period.beginTime))
    (validDate_nextDate calendar (calendar.fromDays (TimeDetail.floorDays period.endTime)))
    (Nat.lt_succ_self _)
  refine ⟨dates, listed, ?_, increasing.imp ?_⟩
  · intro date
    rw [members, TouchesDay, first, next, last]
    exact and_congr_right fun _ => and_congr_right fun _ => Int.lt_add_one_iff
  · rintro a b less rfl
    exact lt_irrefl _ less

/-! What `fillLogRequestTargetFields` fills in, once the months and the days are listed. -/

theorem fill_users_targets (date : DateParser) (service : LogService) {months : List YearMonth}
    (listed : periodToYearMonths calendar period = some months) (channels users : List Bytes) :
    ∃ request, fillLogRequestTargetFields calendar date service false period channels users = some request ∧
      request.parser = service.parser date ∧
      request.targets = channels.flatMap fun channel => users.flatMap fun user =>
        months.map (userTarget calendar service channel user) := by
  cases service <;>
    exact ⟨_, by simp only [fillLogRequestTargetFields, generateYearMonthUserList, listed]; rfl, rfl, rfl⟩

theorem fill_days_targets (date : DateParser) (service : LogService) {dates : List Date}
    (listed : periodToDates calendar period = some dates) (channels users : List Bytes) :
    ∃ request, fillLogRequestTargetFields calendar date service true period channels users = some request ∧
      request.parser = service.parser date ∧
      request.targets = channels.flatMap fun channel => dates.map (channelTarget calendar service channel) := by
  cases service <;>
    exact ⟨_, by simp only [fillLogRequestTargetFields, generateDateList, listed]; rfl, rfl, rfl⟩

/-! The two splits of a history. -/

/-- Every month the period touches can be converted to time points. -/
def Convertible (calendar : Calendar) (period : TimeDetail.TimePeriod) : Prop :=
  ∀ ym, Touches calendar period ym → TimeDetail.MonthRepresentable calendar ym

theorem touches_of_inside {point : TimePoint} (inside : period.isInside point = true) :
    Touches calendar period (calendar.monthOf (TimeDetail.floorDays point)) := by
  obtain ⟨lower, upper⟩ := (period.isInside_iff point).mp inside
  exact ⟨calendar.valid_monthOf _, calendar.monthOf_mono (TimeDetail.floorDays_mono lower),
    calendar.monthOf_mono (TimeDetail.floorDays_mono (Int.le_of_lt upper))⟩

theorem touchesDay_of_inside {point : TimePoint} (inside : period.isInside point = true) :
    TouchesDay calendar period (calendar.fromDays (TimeDetail.floorDays point)) := by
  obtain ⟨lower, upper⟩ := (period.isInside_iff point).mp inside
  refine ⟨calendar.validDate_fromDays _, ?_, ?_⟩
  · rw [calendar.sysDays_fromDays]
    exact TimeDetail.floorDays_mono lower
  · rw [calendar.sysDays_fromDays]
    exact TimeDetail.floorDays_mono (Int.le_of_lt upper)

/-- A day the period touches lies in a month it touches, so both its ends can be converted. -/
theorem day_convertible (convertible : Convertible calendar period) {date : Date}
    (touched : TouchesDay calendar period date) :
    TimeDetail.DayRepresentable (calendar.sysDays date) ∧
      TimeDetail.DayRepresentable (calendar.sysDays date + 1) := by
  obtain ⟨valid, lower, upper⟩ := touched
  have bounds := Calendar.sysDays_bounds valid
  have month : calendar.monthOf (calendar.sysDays date) = date.yearMonth :=
    Calendar.monthOf_eq valid.1 bounds.1 bounds.2
  have fits := convertible date.yearMonth ⟨valid.1, month ▸ calendar.monthOf_mono lower,
    month ▸ calendar.monthOf_mono upper⟩
  exact ⟨TimeDetail.dayRepresentable_between fits.1 fits.2 bounds.1 (by omega),
    TimeDetail.dayRepresentable_between fits.1 fits.2 (by omega) (by omega)⟩

/-- The lines of one channel, one author and one month. -/
def ofUserMonth (calendar : Calendar) (channel user : Bytes) (ym : YearMonth) (line : ChatLine) : Bool :=
  decide (line.channel = channel) && decide (line.author = user) &&
    (TimeDetail.createYearMonthPeriod calendar ym).isInside line.time

/-- The lines of one channel and one day. -/
def ofDay (calendar : Calendar) (channel : Bytes) (date : Date) (line : ChatLine) : Bool :=
  decide (line.channel = channel) && (TimeDetail.createYearMonthDayPeriod calendar date).isInside line.time

/-- The lines a query is about. -/
def wanted (period : TimeDetail.TimePeriod) (channels users : List Bytes) (allUsers : Bool)
    (line : ChatLine) : Bool :=
  period.isInside line.time && decide (line.channel ∈ channels) &&
    (allUsers || decide (line.author ∈ users))

variable {Value : Type} [AddCommMonoid Value] (value : ChatLine → Value) (history : List ChatLine)

theorem total_users (convertible : Convertible calendar period) {months : List YearMonth}
    (members : ∀ ym, ym ∈ months ↔ Touches calendar period ym) (nodup : months.Nodup)
    {channels users : List Bytes} (channelsNodup : channels.Nodup) (usersNodup : users.Nodup) :
    (channels.map fun channel => (users.map fun user => (months.map fun ym =>
        total (fun line => if period.isInside line.time then value line else 0) history
          (ofUserMonth calendar channel user ym)).sum).sum).sum =
      total value history (wanted period channels users false) := by
  -- From the inside out: the months of a user, the users of a channel, the channels.
  have monthly (channel user : Bytes) : (months.map fun ym =>
      total (fun line => if period.isInside line.time then value line else 0) history
        (ofUserMonth calendar channel user ym)).sum =
      total value history fun line =>
        decide (line.channel = channel) && decide (line.author = user) && period.isInside line.time := by
    simp only [total_guarded]
    apply total_partition value history nodup fun line => calendar.monthOf (TimeDetail.floorDays line.time)
    · intro ym member line _
      have touched := (members ym).mp member
      have month := TimeDetail.isInside_month touched.1 (convertible ym touched) line.time
      simp only [ofUserMonth, Bool.and_eq_true, decide_eq_true_eq, month]
      tauto
    · intro line _ selected
      simp only [Bool.and_eq_true] at selected
      exact (members _).mpr (touches_of_inside selected.2)
  have byUser (channel : Bytes) : (users.map fun user =>
      total value history fun line =>
        decide (line.channel = channel) && decide (line.author = user) && period.isInside line.time).sum =
      total value history fun line =>
        decide (line.channel = channel) && decide (line.author ∈ users) && period.isInside line.time := by
    apply total_partition value history usersNodup ChatLine.author
    · intro user member line _
      simp only [Bool.and_eq_true, decide_eq_true_eq]
      constructor
      · rintro ⟨⟨here, rfl⟩, inside⟩
        exact ⟨rfl, ⟨here, member⟩, inside⟩
      · rintro ⟨author, ⟨here, -⟩, inside⟩
        exact ⟨⟨here, author⟩, inside⟩
    · intro line _ selected
      simp only [Bool.and_eq_true, decide_eq_true_eq] at selected
      exact selected.1.2
  simp only [monthly, byUser]
  apply total_partition value history channelsNodup ChatLine.channel
  · intro channel member line _
    simp only [wanted, Bool.and_eq_true, decide_eq_true_eq, Bool.false_or]
    constructor
    · rintro ⟨⟨rfl, author⟩, inside⟩
      exact ⟨rfl, ⟨inside, member⟩, author⟩
    · rintro ⟨here, ⟨inside, -⟩, author⟩
      exact ⟨⟨here, author⟩, inside⟩
  · intro line _ selected
    simp only [wanted, Bool.and_eq_true, decide_eq_true_eq] at selected
    exact selected.1.2

theorem total_days (convertible : Convertible calendar period) {dates : List Date}
    (members : ∀ date, date ∈ dates ↔ TouchesDay calendar period date) (nodup : dates.Nodup)
    {channels : List Bytes} (users : List Bytes) (channelsNodup : channels.Nodup) :
    (channels.map fun channel => (dates.map fun date =>
        total (fun line => if period.isInside line.time then value line else 0) history
          (ofDay calendar channel date)).sum).sum =
      total value history (wanted period channels users true) := by
  have daily (channel : Bytes) : (dates.map fun date =>
      total (fun line => if period.isInside line.time then value line else 0) history
        (ofDay calendar channel date)).sum =
      total value history fun line => decide (line.channel = channel) && period.isInside line.time := by
    simp only [total_guarded]
    apply total_partition value history nodup fun line => calendar.fromDays (TimeDetail.floorDays line.time)
    · intro date member line _
      have touched := (members date).mp member
      have fits := day_convertible convertible touched
      have day := TimeDetail.isInside_day touched.1 fits.1 fits.2 line.time
      simp only [ofDay, Bool.and_eq_true, decide_eq_true_eq, day]
      tauto
    · intro line _ selected
      simp only [Bool.and_eq_true] at selected
      exact (members _).mpr (touchesDay_of_inside selected.2)
  simp only [daily]
  apply total_partition value history channelsNodup ChatLine.channel
  · intro channel member line _
    simp only [wanted, Bool.and_eq_true, decide_eq_true_eq, Bool.true_or, and_true]
    constructor
    · rintro ⟨rfl, inside⟩
      exact ⟨rfl, inside, member⟩
    · rintro ⟨here, inside, -⟩
      exact ⟨here, inside⟩
  · intro line _ selected
    simp only [wanted, Bool.and_eq_true, decide_eq_true_eq] at selected
    exact selected.1.2

/-! The callbacks of a whole request. -/

/-- The answer to a target, parsed, shows exactly these lines. A service may also refuse a target for
which it has none. -/
def Shows (parser : ParserFunc) (target : Target) (data : Bytes) (lines : List ChatLine) : Prop :=
  ∃ log, Log.ofData target.period target.channelName data parser = .ok log ∧
    if log.valid then log.contents.Perm (lines.map (·.content)) else lines = []

/-- The targets of a request, each with the lines it stands for. -/
inductive StandsFor (calendar : Calendar) (service : LogService) (period : TimeDetail.TimePeriod)
    (channels users : List Bytes) : Bool → Target → (ChatLine → Bool) → Prop where
  | userMonth {channel user : Bytes} {ym : YearMonth} : channel ∈ channels → user ∈ users →
      Touches calendar period ym → StandsFor calendar service period channels users false
        (userTarget calendar service channel user ym) (ofUserMonth calendar channel user ym)
  | day {channel : Bytes} {date : Date} : channel ∈ channels → TouchesDay calendar period date →
      StandsFor calendar service period channels users true
        (channelTarget calendar service channel date) (ofDay calendar channel date)

/-- The answer to a target becomes a log, and the log goes to the callback. -/
def receive (query : CountQuery) (parser : ParserFunc) (answer : Target → Bytes) (shared : CountShared)
    (target : Target) : Except Abort CountShared := do
  let log ← (Log.ofData target.period target.channelName (answer target) parser).mapError Abort.ofView
  query.countCommandCallback log shared

/-- Every target is downloaded and received, in order. -/
def countTargets (query : CountQuery) (request : LogRequest) (answer : Target → Bytes) :
    Except Abort CountShared :=
  request.targets.foldlM (receive query request.parser answer) (CountQuery.start request.targets.length)

/-- The log an answer becomes. -/
def received (parser : ParserFunc) (answer : Target → Bytes) (target : Target) : Log :=
  match Log.ofData target.period target.channelName (answer target) parser with
  | .ok log => log
  | .error _ =>
    { period := target.period, channelName := target.channelName, data := [], valid := false, lines := [] }

section

variable {query : CountQuery} {parser : ParserFunc} {answer : Target → Bytes} {target : Target} {log : Log}

theorem received_channelName : (received parser answer target).channelName = target.channelName := by
  unfold received Log.ofData
  cases parser (answer target) <;> rfl

theorem received_eq (parsed : Log.ofData target.period target.channelName (answer target) parser = .ok log) :
    received parser answer target = log := by
  rw [received, parsed]

/-- The counter is the number of logs still to come, so it reaches zero on the last one. Induction on
the targets. -/
theorem countTargets_fold {targets : List Target}
    (parsed : ∀ target ∈ targets,
      ∃ log, Log.ofData target.period target.channelName (answer target) parser = .ok log)
    (counted : ∀ target ∈ targets, ∃ count, query.countLog (received parser answer target) = .ok count)
    (shared : CountShared) (counter : shared.referenceCount = targets.length) (small : shared.sharedCount < sizeLimit) :
    ∃ final, targets.foldlM (receive query parser answer) shared = .ok final ∧
      final.sharedCount =
        (shared.sharedCount + query.countLogs (targets.map (received parser answer))) % sizeLimit := by
  induction targets generalizing shared with
  | nil => exact ⟨shared, rfl, by simp [CountQuery.countLogs, Nat.mod_eq_of_lt small]⟩
  | cons target targets ih =>
    obtain ⟨log, parsedHere⟩ := parsed target List.mem_cons_self
    obtain ⟨count, countedHere⟩ := counted target List.mem_cons_self
    have same := received_eq parsedHere
    rw [same] at countedHere
    obtain ⟨next, called, sum, left⟩ : ∃ next, query.countCommandCallback log shared = .ok next ∧
        next.sharedCount = addSize shared.sharedCount count ∧ next.referenceCount = targets.length := by
      rw [List.length_cons] at counter
      cases targets with
      | nil => exact ⟨_, CountQuery.callback_last countedHere counter, rfl, rfl⟩
      | cons other targets =>
        rw [List.length_cons] at counter
        refine ⟨_, CountQuery.callback_waiting countedHere (by omega), rfl, ?_⟩
        simp only [List.length_cons]
        omega
    have bound : next.sharedCount < sizeLimit := by
      rw [sum]
      exact Nat.mod_lt _ (by decide)
    obtain ⟨final, folded, total⟩ := ih (fun other member => parsed other (List.mem_cons_of_mem target member))
      (fun other member => counted other (List.mem_cons_of_mem target member)) next left bound
    refine ⟨final, ?_, ?_⟩
    · rw [List.foldlM_cons]
      simp only [receive, parsedHere, Except.mapError, bind, Except.bind, called]
      exact folded
    · rw [total, sum, CountQuery.countLog_eq countedHere, addSize, CountQuery.countLogs, CountQuery.countLogs,
        List.map_cons, List.map_cons, List.sum_cons, same]
      simp only [Nat.add_mod_mod, Nat.mod_add_mod, Nat.add_assoc]

/-- A total is reached only where every log is counted to its end. -/
theorem counted_of_foldlM {targets : List Target} {shared final : CountShared}
    (folded : targets.foldlM (receive query parser answer) shared = .ok final) :
    ∀ target ∈ targets, ∃ count, query.countLog (received parser answer target) = .ok count := by
  induction targets generalizing shared with
  | nil => simp
  | cons target targets ih =>
    rw [List.foldlM_cons] at folded
    obtain ⟨next, here, later⟩ := Program.except_bind_eq_ok.mp folded
    obtain ⟨log, parsed, called⟩ := Program.except_bind_eq_ok.mp here
    have counted := CountQuery.callback_returns_iff.mp ⟨next, called⟩
    rw [← received_eq (Program.mapError_eq_ok.mp parsed)] at counted
    exact List.forall_mem_cons.mpr ⟨counted, ih later⟩

variable {count : Bytes → Nat} {lines : List ChatLine}

/-- A log that shows these lines counts what they count. -/
theorem worth_shows (counts : query.CountsOn count lines)
    (shows : if log.valid then log.contents.Perm (lines.map (·.content)) else lines = []) :
    query.worth log = (lines.map fun line => query.countContent count line.content).sum ∧
      ∃ total, query.countLog log = .ok total := by
  cases valid : log.valid with
  | true =>
    simp only [valid, ↓reduceIte] at shows
    have tells : query.Tells count log.contents := fun content member =>
      counts.tells content (shows.mem_iff.mp member)
    refine ⟨?_, tells.countLog⟩
    rw [CountQuery.worth, if_pos valid, tells.sum_counts, (shows.map _).sum_eq, List.map_map]
    rfl
  | false =>
    simp only [valid, Bool.false_eq_true, ↓reduceIte] at shows
    subst shows
    simp [CountQuery.worth, CountQuery.countLog, valid]

/-- The logs together count what the lines of their targets count. -/
theorem countLogs_received {parts : List (Target × List ChatLine)}
    (shows : ∀ part ∈ parts, Shows parser part.1 (answer part.1) part.2)
    (counts : ∀ part ∈ parts, query.CountsOn count part.2) :
    query.countLogs ((parts.map Prod.fst).map (received parser answer)) =
      (parts.map fun part => (part.2.map fun line => query.countContent count line.content).sum).sum := by
  induction parts with
  | nil => rfl
  | cons part parts ih =>
    obtain ⟨log, parsed, lines⟩ := shows part List.mem_cons_self
    have rest := ih (fun other member => shows other (List.mem_cons_of_mem part member))
      fun other member => counts other (List.mem_cons_of_mem part member)
    have first := (worth_shows (counts part List.mem_cons_self) lines).1
    unfold CountQuery.countLogs at rest ⊢
    rw [List.map_cons, List.map_cons, List.map_cons, List.sum_cons, rest, received_eq parsed, first, List.map_cons,
      List.sum_cons]

end

/-! The targets `fillLogRequestTargetFields` builds. -/

/-- A request covers a history: its targets take the history apart into the lines they stand for. -/
structure Covers (calendar : Calendar) (date : DateParser) (service : LogService)
    (period : TimeDetail.TimePeriod) (channels users : List Bytes) (allUsers : Bool)
    (history : List ChatLine) (request : LogRequest) (parts : List (Target × List ChatLine)) : Prop where
  parser : request.parser = service.parser date
  targets : request.targets = parts.map Prod.fst
  standsFor : ∀ part ∈ parts, ∃ selected,
    StandsFor calendar service period channels users allUsers part.1 selected ∧
      part.2 = history.filter selected
  sum : ∀ value : ChatLine → Nat,
    (parts.map fun part => (part.2.map fun line =>
        if period.isInside line.time then value line else 0).sum).sum =
      total value history (wanted period channels users allUsers)

theorem fill_users (date : DateParser) (service : LogService) (convertible : Convertible calendar period)
    {channels users : List Bytes} (channelsNodup : channels.Nodup) (usersNodup : users.Nodup) :
    ∃ request parts,
      fillLogRequestTargetFields calendar date service false period channels users = some request ∧
      Covers calendar date service period channels users false history request parts := by
  obtain ⟨months, listed, members, nodup⟩ := periodToYearMonths_spec calendar period
  let parts := channels.flatMap fun channel => users.flatMap fun user => months.map fun ym =>
    (userTarget calendar service channel user ym, history.filter (ofUserMonth calendar channel user ym))
  obtain ⟨request, filled, parser, targets⟩ := fill_users_targets date service listed channels users
  have same : request.targets = parts.map Prod.fst := by
    rw [targets]
    simp only [parts, List.map_flatMap, List.map_map]
    rfl
  refine ⟨request, parts, filled, ⟨parser, same, ?_, ?_⟩⟩
  · intro part member
    simp only [parts, List.mem_flatMap, List.mem_map] at member
    obtain ⟨channel, named, user, asked, ym, month, rfl⟩ := member
    exact ⟨_, .userMonth named asked ((members ym).mp month), rfl⟩
  · intro value
    rw [← total_users value history convertible members nodup channelsNodup usersNodup]
    simp only [parts, sum_flatMap, List.map_map]
    rfl

theorem fill_days (date : DateParser) (service : LogService) (convertible : Convertible calendar period)
    {channels : List Bytes} (users : List Bytes) (channelsNodup : channels.Nodup) :
    ∃ request parts,
      fillLogRequestTargetFields calendar date service true period channels users = some request ∧
      Covers calendar date service period channels users true history request parts := by
  obtain ⟨dates, listed, members, nodup⟩ := periodToDates_spec calendar period
  let parts := channels.flatMap fun channel => dates.map fun day =>
    (channelTarget calendar service channel day, history.filter (ofDay calendar channel day))
  obtain ⟨request, filled, parser, targets⟩ := fill_days_targets date service listed channels users
  have same : request.targets = parts.map Prod.fst := by
    rw [targets]
    simp only [parts, List.map_flatMap, List.map_map]
    rfl
  refine ⟨request, parts, filled, ⟨parser, same, ?_, ?_⟩⟩
  · intro part member
    simp only [parts, List.mem_flatMap, List.mem_map] at member
    obtain ⟨channel, named, day, touched, rfl⟩ := member
    exact ⟨_, .day named ((members day).mp touched), rfl⟩
  · intro value
    rw [← total_days value history convertible members nodup users channelsNodup]
    simp only [parts, sum_flatMap, List.map_map]
    rfl

theorem fill_covers (date : DateParser) (service : LogService) (allUsers : Bool)
    (convertible : Convertible calendar period)
    {channels users : List Bytes} (channelsNodup : channels.Nodup) (usersNodup : users.Nodup) :
    ∃ request parts,
      fillLogRequestTargetFields calendar date service allUsers period channels users = some request ∧
      Covers calendar date service period channels users allUsers history request parts := by
  cases allUsers with
  | false => exact fill_users history date service convertible channelsNodup usersNodup
  | true => exact fill_days history date service convertible users channelsNodup

/-- The log service answers every target of a request with exactly the lines it stands for. -/
def Answered (calendar : Calendar) (date : DateParser) (service : LogService)
    (period : TimeDetail.TimePeriod) (channels users : List Bytes) (history : List ChatLine)
    (answer : Target → Bytes) (allUsers : Bool) : Prop :=
  ∀ target selected, StandsFor calendar service period channels users allUsers target selected →
    Shows (service.parser date) target (answer target) (history.filter selected)

/-- The targets are answered with lines of the history. -/
theorem Covers.shown {date : DateParser} {service : LogService} {channels users : List Bytes} {allUsers : Bool}
    {history : List ChatLine} {answer : Target → Bytes} {request : LogRequest} {parts : List (Target × List ChatLine)}
    (covers : Covers calendar date service period channels users allUsers history request parts)
    (answered : Answered calendar date service period channels users history answer allUsers) :
    (∀ part ∈ parts, Shows request.parser part.1 (answer part.1) part.2) ∧ ∀ part ∈ parts, part.2 ⊆ history := by
  constructor
  · intro part member
    obtain ⟨selected, stands, lines⟩ := covers.standsFor part member
    rw [covers.parser, lines]
    exact answered part.1 selected stands
  · intro part member
    obtain ⟨selected, -, lines⟩ := covers.standsFor part member
    rw [lines]
    exact List.filter_subset_self _

section

variable {history} {date : DateParser} {service : LogService} {channels users : List Bytes} {allUsers : Bool}
  {request : LogRequest} {parts : List (Target × List ChatLine)} {answer : Target → Bytes}
  (covers : Covers calendar date service period channels users allUsers history request parts)
  (shows : ∀ part ∈ parts, Shows request.parser part.1 (answer part.1) part.2)

include covers shows

theorem Covers.parsed : ∀ target ∈ request.targets,
    ∃ log, Log.ofData target.period target.channelName (answer target) request.parser = .ok log := by
  rw [covers.targets, List.forall_mem_map]
  intro part member
  obtain ⟨log, parsed, -⟩ := shows part member
  exact ⟨log, parsed⟩

/-- A search that comes to its end on these lines does so in each of the answers. -/
theorem Covers.counted {query : CountQuery} {count : Bytes → Nat}
    (counts : ∀ part ∈ parts, query.CountsOn count part.2) :
    ∀ target ∈ request.targets, ∃ number, query.countLog (received request.parser answer target) = .ok number := by
  rw [covers.targets, List.forall_mem_map]
  intro part member
  obtain ⟨log, parsed, lines⟩ := shows part member
  rw [received_eq parsed]
  exact (worth_shows (counts part member) lines).2

end

/-- The request is built, all its logs are counted, and the counter then shows `count`. -/
def CountsTo (calendar : Calendar) (date : DateParser) (service : LogService) (query : CountQuery)
    (channels users : List Bytes) (answer : Target → Bytes) (allUsers : Bool) (count : Nat) : Prop :=
  ∃ request shared,
    fillLogRequestTargetFields calendar date service allUsers query.period channels users = some request ∧
    countTargets query request answer = .ok shared ∧ shared.sharedCount = count

theorem countsTo_total {date : DateParser} {service : LogService} {query : CountQuery}
    {channels users : List Bytes} {answer : Target → Bytes} {allUsers : Bool} {count : Bytes → Nat}
    (counts : query.CountsOn count history) (convertible : Convertible calendar query.period)
    (channelsNodup : channels.Nodup) (usersNodup : users.Nodup)
    (answered : Answered calendar date service query.period channels users history answer allUsers) :
    CountsTo calendar date service query channels users answer allUsers
      (total (fun line => count line.message) history (wanted query.period channels users allUsers) % sizeLimit) := by
  obtain ⟨request, parts, filled, covers⟩ :=
    fill_covers history date service allUsers convertible channelsNodup usersNodup
  obtain ⟨shows, inside⟩ := covers.shown answered
  have each : ∀ part ∈ parts, query.CountsOn count part.2 := fun part member => counts.mono (inside part member)
  obtain ⟨final, folded, sum⟩ := countTargets_fold (covers.parsed shows) (covers.counted shows each)
    (CountQuery.start request.targets.length) rfl (Nat.two_pow_pos 64)
  refine ⟨request, final, filled, folded, ?_⟩
  rw [sum, covers.targets, countLogs_received shows each, ← covers.sum fun line => count line.message]
  simp only [CountQuery.start, Nat.zero_add]
  rfl

/-- `count` adds up exactly the lines of the period, the channels and the users, each once (in
`size_t`). Asking for all users and listing all authors give the same total. -/
theorem count_exact (calendar : Calendar) (date : DateParser) (service : LogService) (query : CountQuery)
    (count : Bytes → Nat) (channels users : List Bytes) (history : List ChatLine) (answer : Target → Bytes)
    (counts : query.CountsOn count history) (convertible : Convertible calendar query.period)
    (channelsNodup : channels.Nodup) (usersNodup : users.Nodup) :
    (∀ allUsers, Answered calendar date service query.period channels users history answer allUsers →
      CountsTo calendar date service query channels users answer allUsers
        (total (fun line => count line.message) history
          (wanted query.period channels users allUsers) % sizeLimit)) ∧
    ((∀ line ∈ history, line.author ∈ users) →
      (∀ allUsers, Answered calendar date service query.period channels users history answer allUsers) →
      ∃ number, ∀ allUsers, CountsTo calendar date service query channels users answer allUsers number) := by
  constructor
  · intro allUsers answered
    exact countsTo_total history counts convertible channelsNodup usersNodup answered
  · intro allAuthors answered
    refine ⟨total (fun line => count line.message) history
      (wanted query.period channels users true) % sizeLimit, fun allUsers => ?_⟩
    have same : total (fun line => count line.message) history (wanted query.period channels users allUsers) =
        total (fun line => count line.message) history (wanted query.period channels users true) := by
      apply total_congr
      intro line member
      simp [wanted, allAuthors line member]
    rw [← same]
    exact countsTo_total history counts convertible channelsNodup usersNodup (answered allUsers)

/-- A service that prints its lines in its own format answers with exactly these lines. -/
theorem shows_of_recovers {parser : ParserFunc} {target : Target} {data : Bytes} {entries : List ChatEntry}
    (recovers : LogParsing.Recovers parser data entries) :
    Shows parser target data (entries.map (·.toChatLine)) := by
  obtain ⟨lines, parsed, contents⟩ := recovers
  refine ⟨⟨target.period, target.channelName, data, true, lines⟩, ?_, ?_⟩
  · rw [Log.ofData, parsed]
    rfl
  · simp only [↓reduceIte, Log.contents, contents, List.map_map]
    exact List.Perm.refl _

/-! One day of one channel, asked for in both ways. -/

def sampleChannels : List Bytes := [ascii "pajlada"]
def sampleUsers : List Bytes := [ascii "saiv", ascii "forsen"]
def sampleHistory : List ChatLine := LogParsing.sampleEntries.map (·.toChatLine)

/-- The entries that the service files under a path. -/
def sampleFiled (logTarget : Bytes) : List ChatEntry :=
  LogParsing.sampleEntries.filter fun entry =>
    decide (logTarget = createGempirUserTarget entry.channel entry.author ⟨2019, 2⟩) ||
      decide (logTarget = createGempirChannelTarget entry.channel ⟨2019, 2, 8⟩)

def sampleAnswer (target : Target) : Bytes :=
  LogParsing.render (LogParsing.gempirText gregorian) (sampleFiled target.logTarget)

theorem sample_shows {target : Target} {selected : ChatLine → Bool}
    (filed : (sampleFiled target.logTarget).map (·.toChatLine) = sampleHistory.filter selected) :
    Shows (LogService.gempirLog.parser LogParsing.sampleParser) target (sampleAnswer target)
      (sampleHistory.filter selected) := by
  rw [← filed]
  apply shows_of_recovers
  apply LogParsing.parseLog_render
  · intro entry member
    apply LogParsing.gempirLine_reads
    have sample := (List.mem_filter.mp member).1
    simp only [LogParsing.sampleEntries, List.mem_cons, List.not_mem_nil, or_false] at sample
    rcases sample with rfl | rfl <;> decide
  · decide
  · decide

theorem sample_touches {ym : YearMonth} (touched : Touches gregorian sampleQuery.period ym) :
    ym = ⟨2019, 2⟩ := by
  have first : gregorian.monthOf (TimeDetail.floorDays sampleQuery.period.beginTime) = ⟨2019, 2⟩ := by decide
  have last : gregorian.monthOf (TimeDetail.floorDays sampleQuery.period.endTime) = ⟨2019, 2⟩ := by decide
  obtain ⟨valid, lower, upper⟩ := touched
  rw [first] at lower
  rw [last] at upper
  exact YearMonth.eq_of_index valid ⟨by decide, by decide⟩ (Int.le_antisymm upper lower)

theorem sample_touchesDay {date : Date} (touched : TouchesDay gregorian sampleQuery.period date) :
    date = ⟨2019, 2, 8⟩ := by
  have first : TimeDetail.floorDays sampleQuery.period.beginTime = gregorian.sysDays ⟨2019, 2, 8⟩ := by decide
  have last : TimeDetail.floorDays sampleQuery.period.endTime = gregorian.sysDays ⟨2019, 2, 8⟩ := by decide
  obtain ⟨valid, lower, upper⟩ := touched
  rw [first] at lower
  rw [last] at upper
  exact Calendar.eq_of_sysDays valid ⟨⟨by decide, by decide⟩, by decide, by decide⟩ (Int.le_antisymm upper lower)

theorem sample_answered (allUsers : Bool) :
    Answered gregorian LogParsing.sampleParser .gempirLog sampleQuery.period sampleChannels sampleUsers
      sampleHistory sampleAnswer allUsers := by
  intro target selected stands
  cases stands with
  | userMonth named asked touched =>
    obtain rfl := sample_touches touched
    simp only [sampleChannels, sampleUsers, List.mem_cons, List.not_mem_nil, or_false] at named asked
    apply sample_shows
    rcases named with rfl
    rcases asked with rfl | rfl <;> decide
  | day named touched =>
    obtain rfl := sample_touchesDay touched
    simp only [sampleChannels, List.mem_cons, List.not_mem_nil, or_false] at named
    apply sample_shows
    rcases named with rfl
    decide

theorem count_exact_sample :
    (∀ allUsers,
      CountsTo gregorian LogParsing.sampleParser .gempirLog sampleQuery sampleChannels sampleUsers
        sampleAnswer allUsers
        (total (fun line => line.message.length) sampleHistory
          (wanted sampleQuery.period sampleChannels sampleUsers allUsers) % sizeLimit)) ∧
    ∃ number, ∀ allUsers,
      CountsTo gregorian LogParsing.sampleParser .gempirLog sampleQuery sampleChannels sampleUsers
        sampleAnswer allUsers number := by
  have exact := count_exact gregorian LogParsing.sampleParser .gempirLog sampleQuery List.length sampleChannels
    sampleUsers sampleHistory sampleAnswer (fun _ _ _ => rfl)
    (fun ym touched => by rw [sample_touches touched]; exact ⟨by decide, by decide⟩) (by decide) (by decide)
  exact ⟨fun allUsers => exact.1 allUsers (sample_answered allUsers), exact.2 (by decide) sample_answered⟩

end LogRequest

end SaivBot
