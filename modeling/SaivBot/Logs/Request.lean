import SaivBot.Ascending
import SaivBot.Logs.Counting

/-! Which logs a query asks for: one per user and calendar month, or one per calendar day.

Both loops run from the month (day) of the period's begin through that of its end.
They are given fuel; `none` would be a loop still running without it.
-/

set_option autoImplicit false

namespace SaivBot
open Civil

inductive LogService where
  | gempirLog
  | overrustleLog
  deriving DecidableEq, Repr

/-- `tuple<period, channel_name, log_target>`. -/
structure Target where
  period : TimeDetail.TimePeriod
  channelName : Bytes
  logTarget : Bytes
  deriving DecidableEq

/-- The fields of `LogRequest` that `fillLogRequestTargetFields` sets. -/
structure LogRequest where
  parser : ParserFunc
  host : Bytes
  port : Bytes
  targets : List Target

namespace LogRequest

def createGempirUserTarget (channel user : Bytes) (ym : YearMonth) : Bytes :=
  ascii "/channel/" ++ channel ++ ascii "/user/" ++ user ++ ascii "/" ++ decimalInt ym.year ++ ascii "/" ++
    decimal ym.month

def createGempirChannelTarget (channel : Bytes) (date : Date) : Bytes :=
  ascii "/channel/" ++ channel ++ ascii "/" ++ decimalInt date.year ++ ascii "/" ++ decimal date.month ++
    ascii "/" ++ decimal date.day

def createOverrustleUserTarget (channel user : Bytes) (ym : YearMonth) : Bytes :=
  ascii "/" ++ channel ++ ascii " chatlog/" ++ TimeDetail.monthToString ym.month ++ ascii " " ++
    decimalInt ym.year ++ ascii "/userlogs/" ++ user ++ ascii ".txt"

def createOverrustleChannelTarget (channel : Bytes) (date : Date) : Bytes :=
  ascii "/" ++ channel ++ ascii " chatlog/" ++ TimeDetail.monthToString date.month ++ ascii " " ++
    decimalInt date.year ++ ascii "/" ++ TimeDetail.formatDate date ++ ascii ".txt"

variable (calendar : Calendar)

/-- `while (begin_ym < end_ym)`. -/
def yearMonthsLoop : Nat → YearMonth → YearMonth → Option (List YearMonth) :=
  Ascending.loop YearMonth.before YearMonth.next

def periodToYearMonths (period : TimeDetail.TimePeriod) : Option (List YearMonth) :=
  let beginYm := (calendar.fromDays (TimeDetail.floorDays period.beginTime)).yearMonth
  -- The loop stops in front of its end, so the end is the month behind the last.
  let endYm := (calendar.fromDays (TimeDetail.floorDays period.endTime)).yearMonth.next
  yearMonthsLoop ((endYm.index - beginYm.index).toNat + 1) beginYm endYm

/-- The day after, through the serial number and back. -/
def nextDate (date : Date) : Date := calendar.fromDays (calendar.sysDays date + 1)

/-- `while (begin < end)`. -/
def datesLoop : Nat → Date → Date → Option (List Date) := Ascending.loop Date.before (nextDate calendar)

def periodToDates (period : TimeDetail.TimePeriod) : Option (List Date) :=
  let beginDate := calendar.fromDays (TimeDetail.floorDays period.beginTime)
  let endDate := nextDate calendar (calendar.fromDays (TimeDetail.floorDays period.endTime))
  datesLoop calendar ((calendar.sysDays endDate - calendar.sysDays beginDate).toNat + 1) beginDate endDate

def generateYearMonthUserList (period : TimeDetail.TimePeriod) (channels users : List Bytes)
    (func : Bytes → Bytes → YearMonth → Bytes) : Option (List Target) := do
  let yearMonths ← periodToYearMonths calendar period
  return channels.flatMap fun channel => users.flatMap fun user => yearMonths.map fun ym =>
    ⟨TimeDetail.createYearMonthPeriod calendar ym, channel, func channel user ym⟩

def generateDateList (period : TimeDetail.TimePeriod) (channels : List Bytes)
    (func : Bytes → Date → Bytes) : Option (List Target) := do
  let dates ← periodToDates calendar period
  return channels.flatMap fun channel => dates.map fun date =>
    ⟨TimeDetail.createYearMonthDayPeriod calendar date, channel, func channel date⟩

def fillLogRequestTargetFields (date : DateParser) (service : LogService) (allUsers : Bool)
    (period : TimeDetail.TimePeriod) (channels users : List Bytes) : Option LogRequest :=
  match service with
  | .gempirLog => do
    let targets ←
      if !allUsers then generateYearMonthUserList calendar period channels users createGempirUserTarget
      else generateDateList calendar period channels createGempirChannelTarget
    return {
      parser := LogParsing.gempirLogParser date
      host := ascii "api.gempir.com"
      port := ascii "443"
      targets }
  | .overrustleLog => do
    let targets ←
      if !allUsers then generateYearMonthUserList calendar period channels users createOverrustleUserTarget
      else generateDateList calendar period channels createOverrustleChannelTarget
    return {
      parser := LogParsing.overrustleLogParser date
      host := ascii "overrustlelogs.net"
      port := ascii "443"
      targets }

/-! The loops list exactly the months (days) from the first to the last, in order. -/

theorem numbered_yearMonths : Ascending.Numbered YearMonth.before YearMonth.next YearMonth.Valid YearMonth.index where
  before_iff _ _ validA validB := YearMonth.before_iff validA validB
  valid_next _ valid := valid.next
  index_next := YearMonth.index_next
  eq_of_index _ _ validA validB same := YearMonth.eq_of_index validA validB same

theorem validDate_nextDate (date : Date) : calendar.ValidDate (nextDate calendar date) :=
  calendar.validDate_fromDays _

theorem sysDays_nextDate (date : Date) :
    calendar.sysDays (nextDate calendar date) = calendar.sysDays date + 1 :=
  calendar.sysDays_fromDays _

theorem numbered_dates :
    Ascending.Numbered Date.before (nextDate calendar) calendar.ValidDate calendar.sysDays where
  before_iff _ _ validA validB := Calendar.before_iff validA validB
  valid_next date _ := validDate_nextDate calendar date
  index_next := sysDays_nextDate calendar
  eq_of_index _ _ validA validB same := Calendar.eq_of_sysDays validA validB same

/-! Neither loop runs forever, also where the period ends before it begins. -/

theorem periodToYearMonths_some (period : TimeDetail.TimePeriod) :
    ∃ months, periodToYearMonths calendar period = some months := by
  obtain ⟨months, listed, -⟩ := numbered_yearMonths.loop_spec
    (calendar.valid_monthOf (TimeDetail.floorDays period.beginTime))
    (calendar.valid_monthOf (TimeDetail.floorDays period.endTime)).next
    (Nat.lt_succ_self _)
  exact ⟨months, listed⟩

theorem periodToDates_some (period : TimeDetail.TimePeriod) :
    ∃ dates, periodToDates calendar period = some dates := by
  obtain ⟨dates, listed, -⟩ := (numbered_dates calendar).loop_spec
    (calendar.validDate_fromDays (TimeDetail.floorDays period.beginTime))
    (validDate_nextDate calendar (calendar.fromDays (TimeDetail.floorDays period.endTime)))
    (Nat.lt_succ_self _)
  exact ⟨dates, listed⟩

theorem fillLogRequestTargetFields_some (date : DateParser) (service : LogService) (allUsers : Bool)
    (period : TimeDetail.TimePeriod) (channels users : List Bytes) :
    ∃ request, fillLogRequestTargetFields calendar date service allUsers period channels users = some request := by
  obtain ⟨months, months_eq⟩ := periodToYearMonths_some calendar period
  obtain ⟨dates, dates_eq⟩ := periodToDates_some calendar period
  cases service <;> cases allUsers <;>
    simp [fillLogRequestTargetFields, generateYearMonthUserList, generateDateList, months_eq, dates_eq]

/-- Every target belongs to a channel that was asked for. -/
theorem channelName_mem {date : DateParser} {service : LogService} {allUsers : Bool}
    {period : TimeDetail.TimePeriod} {channels users : List Bytes} {request : LogRequest}
    (filled : fillLogRequestTargetFields calendar date service allUsers period channels users = some request)
    {target : Target} (member : target ∈ request.targets) : target.channelName ∈ channels := by
  obtain ⟨months, months_eq⟩ := periodToYearMonths_some calendar period
  obtain ⟨dates, dates_eq⟩ := periodToDates_some calendar period
  cases service <;> cases allUsers <;>
    simp only [fillLogRequestTargetFields, generateYearMonthUserList, generateDateList, months_eq, dates_eq,
      Bool.not_true, Bool.not_false, Bool.false_eq_true, ↓reduceIte, bind, Option.bind, pure,
      Option.some.injEq] at filled <;>
    subst filled <;>
    simp only [List.mem_flatMap, List.mem_map] at member
  · obtain ⟨channel, inside, user, -, month, -, rfl⟩ := member
    exact inside
  · obtain ⟨channel, inside, day, -, rfl⟩ := member
    exact inside
  · obtain ⟨channel, inside, user, -, month, -, rfl⟩ := member
    exact inside
  · obtain ⟨channel, inside, day, -, rfl⟩ := member
    exact inside

end LogRequest

end SaivBot
