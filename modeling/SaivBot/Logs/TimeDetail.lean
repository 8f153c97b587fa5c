import SaivBot.Bytes
import SaivBot.Clock
import SaivBot.Calendar.Civil

/-! `TimeDetail`: half-open periods of time, and the text forms of instants.

Reading a text is the date library's business; which formats are tried, and in
which order, is the bot's. A day becomes a time point by a multiplication in the
tick counter's width.
-/

set_option autoImplicit false

namespace SaivBot
open Civil

/-- `date::parse`, a format and a text, for each type it is used at; `none` is a failed stream. -/
structure DateParser where
  timePoint : Bytes → Bytes → Option TimePoint
  yearMonth : Bytes → Bytes → Option YearMonth
  year : Bytes → Bytes → Option Int

namespace TimeDetail

/-- `date::format("%B", month)`. -/
def monthToString (month : Nat) : Bytes :=
  match month with
  | 1 => ascii "January"
  | 2 => ascii "February"
  | 3 => ascii "March"
  | 4 => ascii "April"
  | 5 => ascii "May"
  | 6 => ascii "June"
  | 7 => ascii "July"
  | 8 => ascii "August"
  | 9 => ascii "September"
  | 10 => ascii "October"
  | 11 => ascii "November"
  | 12 => ascii "December"
  | month => decimal month ++ ascii " is not a valid month"

/-- `date::format("%F", date)`. -/
def formatDate (date : Date) : Bytes :=
  (if date.year < 0 then [45] else []) ++ padded 4 date.year.natAbs ++ 45 :: padded 2 date.month ++
    45 :: padded 2 date.day

/-- `date::floor<date::days>`. -/
def floorDays (point : TimePoint) : Int := point / ticksPerDay

/-- The conversion of `date::sys_days` to a time point. -/
def ofDays (days : Int) : TimePoint := wrapTicks (days * ticksPerDay)

/-- `%F %T` of a time point to the second. -/
def formatSeconds (calendar : Calendar) (point : TimePoint) : Bytes :=
  let second := ((point - floorDays point * ticksPerDay) / ticksPerSecond).toNat
  formatDate (calendar.fromDays (floorDays point)) ++ Byte.space ::
    (padded 2 (second / 3600) ++ Byte.colon :: padded 2 (second / 60 % 60) ++
      Byte.colon :: padded 2 (second % 60))

def parseGempirTimeString (date : DateParser) (view : Bytes) : Option TimePoint :=
  date.timePoint (ascii "%F %T") view

def parseOverrustleTimeString (date : DateParser) (view : Bytes) : Option TimePoint :=
  date.timePoint (ascii "%F %T %Z") view

/-- The forms are tried from the longest to the shortest; the first that reads wins. -/
def parseTimePointString (calendar : Calendar) (date : DateParser) (view : Bytes) : Option TimePoint :=
  match date.timePoint (ascii "%Y-%m-%d-%H-%M-%S") view with
  | some point => some point
  | none =>
  match date.timePoint (ascii "%Y-%m-%d-%H-%M") view with
  | some point => some point
  | none =>
  match date.timePoint (ascii "%Y-%m-%d-%H") view with
  | some point => some point
  | none =>
  match date.timePoint (ascii "%Y-%m-%d") view with
  | some point => some point
  | none =>
  match date.yearMonth (ascii "%Y-%m") view with
  | some yearMonth => some (ofDays (calendar.sysDays yearMonth.first))
  | none =>
  match date.year (ascii "%Y") view with
  | some year => some (ofDays (calendar.sysDays ⟨year, 1, 1⟩))
  | none => none

/-- The instants from `beginTime` up to but not including `endTime`. -/
structure TimePeriod where
  beginTime : TimePoint
  endTime : TimePoint
  deriving DecidableEq, Repr

def TimePeriod.isInside (period : TimePeriod) (point : TimePoint) : Bool :=
  if point ≥ period.beginTime ∧ point < period.endTime then true else false

def parseTimePeriod (calendar : Calendar) (date : DateParser) (beginView endView : Bytes) :
    Option TimePeriod :=
  match parseTimePointString calendar date beginView with
  | none => none
  | some beginTime =>
    match parseTimePointString calendar date endView with
    | none => none
    | some endTime => if beginTime > endTime then none else some ⟨beginTime, endTime⟩

def createYearMonthPeriod (calendar : Calendar) (ym : YearMonth) : TimePeriod :=
  let dateBegin := ym.first
  let dateEnd := ym.next.first
  ⟨ofDays (calendar.sysDays dateBegin), ofDays (calendar.sysDays dateEnd)⟩

def createYearMonthDayPeriod (calendar : Calendar) (date : Date) : TimePeriod :=
  let day := calendar.sysDays date
  ⟨ofDays day, ofDays (day + 1)⟩

/-- A printed instant holds digits and the three separators of its format only. -/
theorem mem_formatSeconds {calendar : Calendar} {point : TimePoint} {c : Byte}
    (member : c ∈ formatSeconds calendar point) :
    IsDigit c ∨ c = 45 ∨ c = Byte.space ∨ c = Byte.colon := by
  have digits : ∀ {width n : Nat}, c ∈ padded width n → IsDigit c := isDigit_of_mem_padded
  simp only [formatSeconds, formatDate, List.mem_append, List.mem_cons] at member
  rcases member with (((sign | year) | dash | month) | dash | day) | space | (hour | colon | minute) | colon | second
  · split at sign
    · exact Or.inr (Or.inl (List.mem_singleton.mp sign))
    · exact absurd sign List.not_mem_nil
  · exact Or.inl (digits year)
  · exact Or.inr (Or.inl dash)
  · exact Or.inl (digits month)
  · exact Or.inr (Or.inl dash)
  · exact Or.inl (digits day)
  · exact Or.inr (Or.inr (Or.inl space))
  · exact Or.inl (digits hour)
  · exact Or.inr (Or.inr (Or.inr colon))
  · exact Or.inl (digits minute)
  · exact Or.inr (Or.inr (Or.inr colon))
  · exact Or.inl (digits second)

theorem not_mem_formatSeconds {calendar : Calendar} {point : TimePoint} {c : Byte} (digit : ¬ IsDigit c)
    (dash : c ≠ 45) (space : c ≠ Byte.space) (colon : c ≠ Byte.colon) :
    c ∉ formatSeconds calendar point := by
  intro member
  rcases mem_formatSeconds member with h | h | h | h
  · exact digit h
  · exact dash h
  · exact space h
  · exact colon h

/-! The periods of whole days and months. -/

theorem TimePeriod.isInside_iff (period : TimePeriod) (point : TimePoint) :
    period.isInside point = true ↔ period.beginTime ≤ point ∧ point < period.endTime := by
  simp [TimePeriod.isInside]

theorem floorDays_mono {a b : Int} (le : a ≤ b) : floorDays a ≤ floorDays b := by
  simp only [floorDays, ticksPerDay, ticksPerSecond]
  omega

/-- A time point lies between two days exactly when its own day does. -/
theorem between_days_iff (point : Int) (first last : Int) :
    first * ticksPerDay ≤ point ∧ point < last * ticksPerDay ↔
      first ≤ floorDays point ∧ floorDays point < last := by
  simp only [floorDays, ticksPerDay, ticksPerSecond]
  omega

def DayRepresentable (day : Int) : Prop := Representable (day * ticksPerDay)

instance (day : Int) : Decidable (DayRepresentable day) := inferInstanceAs (Decidable (Representable _))

/-- Neither end of the month overflows the tick counter. -/
def MonthRepresentable (calendar : Calendar) (ym : YearMonth) : Prop :=
  DayRepresentable (calendar.firstDay ym) ∧ DayRepresentable (calendar.firstDay ym.next)

theorem ofDays_of_representable {day : Int} (fits : DayRepresentable day) :
    ofDays day = day * ticksPerDay := wrapTicks_of_representable fits

theorem dayRepresentable_between {first last day : Int} (fitsFirst : DayRepresentable first)
    (fitsLast : DayRepresentable last) (lower : first ≤ day) (upper : day ≤ last) : DayRepresentable day := by
  simp only [DayRepresentable, Representable, ticksPerDay, ticksPerSecond] at *
  omega

variable {calendar : Calendar}

theorem isInside_month {ym : YearMonth} (valid : ym.Valid) (fits : MonthRepresentable calendar ym)
    (point : TimePoint) :
    (createYearMonthPeriod calendar ym).isInside point = true ↔ calendar.monthOf (floorDays point) = ym := by
  have start : ofDays (calendar.sysDays ym.first) = calendar.firstDay ym * ticksPerDay :=
    ofDays_of_representable fits.1
  have stop : ofDays (calendar.sysDays ym.next.first) = calendar.firstDay ym.next * ticksPerDay :=
    ofDays_of_representable fits.2
  -- Where nothing overflows both ends are days, and whole days can be compared instead.
  rw [TimePeriod.isInside_iff, createYearMonthPeriod, start, stop, between_days_iff]
  constructor
  · rintro ⟨lower, upper⟩
    exact Calendar.monthOf_eq valid lower upper
  · rintro rfl
    exact calendar.monthOf_bounds _

theorem isInside_day {date : Date} (valid : calendar.ValidDate date)
    (fits : DayRepresentable (calendar.sysDays date)) (fitsNext : DayRepresentable (calendar.sysDays date + 1))
    (point : TimePoint) :
    (createYearMonthDayPeriod calendar date).isInside point = true ↔
      calendar.fromDays (floorDays point) = date := by
  rw [TimePeriod.isInside_iff, createYearMonthDayPeriod, ofDays_of_representable fits,
    ofDays_of_representable fitsNext, between_days_iff]
  constructor
  · intro bounds
    have day : floorDays point = calendar.sysDays date := by omega
    rw [day, Calendar.fromDays_sysDays valid]
  · rintro rfl
    rw [calendar.sysDays_fromDays]
    omega

end TimeDetail

end SaivBot
