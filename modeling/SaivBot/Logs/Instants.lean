import SaivBot.Calendar.Gregorian
import SaivBot.Fields
import SaivBot.Logs.TimeDetail

/-! The instants that texts name.

`parseTimePointString` tries six formats on one text, from the longest to the shortest.
None of them asks for the end of the text, so a field that is wrong in a long format is
left behind by a shorter one.
-/

set_option autoImplicit false

namespace SaivBot
open Civil

/-- A date and a time of day. -/
structure Stamp where
  date : Date
  hour : Nat
  minute : Nat
  second : Nat
  deriving DecidableEq

namespace Stamp

/-- Fields that are missing have their first value. -/
def ofFields (fields : List Nat) : Stamp where
  date := ⟨fields.getD 0 0, fields.getD 1 1, fields.getD 2 1⟩
  hour := fields.getD 3 0
  minute := fields.getD 4 0
  second := fields.getD 5 0

def Valid (calendar : Calendar) (stamp : Stamp) : Prop :=
  calendar.ValidDate stamp.date ∧ stamp.hour < 24 ∧ stamp.minute < 60 ∧ stamp.second < 60

instance (calendar : Calendar) (stamp : Stamp) : Decidable (stamp.Valid calendar) :=
  inferInstanceAs (Decidable (((_ ∧ _) ∧ _ ∧ _) ∧ _))

def secondOfDay (stamp : Stamp) : Int := 3600 * stamp.hour + 60 * stamp.minute + stamp.second

/-- Ticks since 1970-01-01, as many as there are. -/
def instant (calendar : Calendar) (stamp : Stamp) : Int :=
  calendar.sysDays stamp.date * ticksPerDay + stamp.secondOfDay * ticksPerSecond

end Stamp

namespace TimeDetail

def isDigit (c : Byte) : Bool := decide (IsDigit c)
def digit (c : Byte) : Nat := c.toNat - 48

/-- The fields of a format, up to four digits for the year and up to two for each of the others. -/
def readFields (more : Nat) (view : Bytes) : Option (List Nat × Bytes) :=
  Fields.read isDigit digit 45 4 (List.replicate more 2) view

/-- What a format with so many fields behind the year reads; what follows is not looked at. -/
def readStamp (calendar : Calendar) (more : Nat) (view : Bytes) : Option Stamp :=
  match readFields more view with
  | none => none
  | some (fields, _) =>
    if (Stamp.ofFields fields).Valid calendar then some (Stamp.ofFields fields) else none

end TimeDetail

/-- `date::parse` reads the fields of its format, and fails on another character than the format has there and
on an invalid date or time. A date becomes a time point in the tick counter's width. -/
structure DateParser.ReadsFields (calendar : Calendar) (date : DateParser) : Prop where
  seconds : ∀ view, date.timePoint (ascii "%Y-%m-%d-%H-%M-%S") view =
    (TimeDetail.readStamp calendar 5 view).map fun stamp => wrapTicks (stamp.instant calendar)
  minutes : ∀ view, date.timePoint (ascii "%Y-%m-%d-%H-%M") view =
    (TimeDetail.readStamp calendar 4 view).map fun stamp => wrapTicks (stamp.instant calendar)
  hours : ∀ view, date.timePoint (ascii "%Y-%m-%d-%H") view =
    (TimeDetail.readStamp calendar 3 view).map fun stamp => wrapTicks (stamp.instant calendar)
  days : ∀ view, date.timePoint (ascii "%Y-%m-%d") view =
    (TimeDetail.readStamp calendar 2 view).map fun stamp => wrapTicks (stamp.instant calendar)
  months : ∀ view, date.yearMonth (ascii "%Y-%m") view =
    (TimeDetail.readStamp calendar 1 view).map fun stamp => stamp.date.yearMonth
  years : ∀ view, date.year (ascii "%Y") view =
    (TimeDetail.readStamp calendar 0 view).map fun stamp => stamp.date.year

namespace TimeDetail

/-- What the longest format that reads the text has read, among those with at most so many fields. -/
def longestStamp (calendar : Calendar) (view : Bytes) : Nat → Option Stamp
  | 0 => readStamp calendar 0 view
  | more + 1 => (readStamp calendar (more + 1) view).or (longestStamp calendar view more)

def stampOf (calendar : Calendar) (view : Bytes) : Option Stamp := longestStamp calendar view 5

/-- The whole text is a year, or a year with up to five fields, and they are a date and a time of day. -/
def Names (calendar : Calendar) (view : Bytes) (stamp : Stamp) : Prop :=
  ∃ more ≤ 5, ∃ fields, Fields.Spells isDigit digit 45 4 (List.replicate more 2) fields view ∧
    stamp = Stamp.ofFields fields ∧ stamp.Valid calendar

variable {calendar : Calendar} {date : DateParser} {view : Bytes} {stamp : Stamp} {more : Nat}

theorem readStamp_eq_some : readStamp calendar more view = some stamp ↔
    ∃ fields rest, readFields more view = some (fields, rest) ∧ stamp = Stamp.ofFields fields ∧
      stamp.Valid calendar := by
  unfold readStamp
  constructor
  · intro read
    split at read
    · cases read
    · next fields rest found =>
      obtain ⟨valid, ⟨⟩⟩ := Option.ite_none_right_eq_some.mp read
      exact ⟨fields, rest, found, rfl, valid⟩
  · rintro ⟨fields, rest, found, rfl, valid⟩
    rw [found]
    exact if_pos valid

/-- A year alone, or a year and a month, has its first day and no time of day. -/
theorem date_of_readStamp_year (read : readStamp calendar 0 view = some stamp) :
    stamp.date = ⟨stamp.date.year, 1, 1⟩ ∧ stamp.secondOfDay = 0 := by
  obtain ⟨fields, rest, found, rfl, -⟩ := readStamp_eq_some.mp read
  obtain ⟨year, rfl⟩ := List.length_eq_one_iff.mp (Fields.length_of_read found)
  exact ⟨rfl, rfl⟩

theorem date_of_readStamp_month (read : readStamp calendar 1 view = some stamp) :
    stamp.date = stamp.date.yearMonth.first ∧ stamp.secondOfDay = 0 := by
  obtain ⟨fields, rest, found, rfl, -⟩ := readStamp_eq_some.mp read
  obtain ⟨year, month, rfl⟩ := List.length_eq_two.mp (Fields.length_of_read found)
  exact ⟨rfl, rfl⟩

theorem instant_of_midnight (midnight : stamp.secondOfDay = 0) :
    stamp.instant calendar = calendar.sysDays stamp.date * ticksPerDay := by
  rw [Stamp.instant, midnight, Int.zero_mul, Int.add_zero]

/-- The six attempts read what the longest format that reads the text reads. -/
theorem parseTimePointString_eq (reads : date.ReadsFields calendar) (view : Bytes) :
    parseTimePointString calendar date view =
      (stampOf calendar view).map fun stamp => wrapTicks (stamp.instant calendar) := by
  unfold parseTimePointString stampOf
  rw [reads.seconds, reads.minutes, reads.hours, reads.days, reads.months, reads.years]
  simp only [longestStamp]
  cases readStamp calendar 5 view with
  | some stamp => rfl
  | none =>
  cases readStamp calendar 4 view with
  | some stamp => rfl
  | none =>
  cases readStamp calendar 3 view with
  | some stamp => rfl
  | none =>
  cases readStamp calendar 2 view with
  | some stamp => rfl
  | none =>
  cases month : readStamp calendar 1 view with
  | some stamp =>
    obtain ⟨first, midnight⟩ := date_of_readStamp_month month
    simp only [Option.map_none, Option.map_some, Option.none_or, Option.some_or, instant_of_midnight midnight,
      ← first, ofDays]
  | none =>
  cases year : readStamp calendar 0 view with
  | some stamp =>
    obtain ⟨first, midnight⟩ := date_of_readStamp_year year
    simp only [Option.map_none, Option.map_some, Option.none_or, instant_of_midnight midnight, ← first, ofDays]
  | none => rfl

/-! A text that names an instant. -/

theorem isDigit_separator : isDigit 45 = false := by decide

/-- The formats that are tried before its own do not read it. -/
theorem Names.readStamp (names : Names calendar view stamp) :
    ∃ more ≤ 5, TimeDetail.readStamp calendar more view = some stamp ∧
      ∀ longer, more < longer → TimeDetail.readStamp calendar longer view = none := by
  obtain ⟨more, few, fields, spells, same, valid⟩ := names
  refine ⟨more, few, readStamp_eq_some.mpr ⟨fields, [], spells.read isDigit_separator, same, valid⟩, ?_⟩
  intro longer less
  obtain ⟨gap, rfl⟩ := Nat.exists_eq_add_of_lt less
  have widths : List.replicate (more + gap + 1) 2 = List.replicate more 2 ++ 2 :: List.replicate gap 2 := by
    rw [← List.replicate_succ, List.replicate_append_replicate, Nat.add_assoc]
  have nothing : readFields (more + gap + 1) view = .none := by
    rw [readFields, widths]
    exact spells.read_more isDigit_separator 2 _
  rw [TimeDetail.readStamp, nothing]

theorem longestStamp_eq {top : Nat} (few : more ≤ top) (read : readStamp calendar more view = some stamp)
    (longer : ∀ longer, more < longer → readStamp calendar longer view = none) :
    longestStamp calendar view top = some stamp := by
  induction top with
  | zero =>
    obtain rfl := Nat.le_zero.mp few
    exact read
  | succ top ih =>
    unfold longestStamp
    rcases Nat.lt_or_eq_of_le few with less | rfl
    · rw [longer _ less, ih (Nat.le_of_lt_succ less), Option.none_or]
    · rw [read, Option.some_or]

theorem stampOf_of_names (names : Names calendar view stamp) : stampOf calendar view = some stamp := by
  obtain ⟨more, few, read, longer⟩ := names.readStamp
  exact longestStamp_eq few read longer

/-- Without a digit in front nothing is read. -/
theorem stampOf_none (noDigit : ∀ c ∈ view.head?, isDigit c = false) : stampOf calendar view = none := by
  have nothing (more : Nat) : readStamp calendar more view = .none := by
    rw [readStamp, readFields, Fields.read_none noDigit]
  simp [stampOf, longestStamp, nothing]

/-- A digit in front is a year, whatever follows. -/
theorem stampOf_some {c : Byte} {rest : Bytes} (first : isDigit c = true) :
    ∃ stamp, stampOf calendar (c :: rest) = some stamp := by
  obtain ⟨year, behind, found⟩ : ∃ year behind, Fields.number isDigit digit 4 (c :: rest) = some (year, behind) :=
    Fields.number_some first (by decide) rest
  have read : readFields 0 (c :: rest) = some ([year], behind) := by
    rw [readFields, List.replicate_zero, Fields.read, found]
    rfl
  have month : (Stamp.ofFields [year]).date.yearMonth.Valid := by simp [Stamp.ofFields, Date.yearMonth, YearMonth.Valid]
  have valid : (Stamp.ofFields [year]).Valid calendar := by
    refine ⟨⟨month, Nat.le_refl 1, calendar.lastDay_pos _ month⟩, ?_⟩
    simp [Stamp.ofFields]
  have some (top : Nat) : ∃ stamp, longestStamp calendar (c :: rest) top = .some stamp := by
    induction top with
    | zero => exact ⟨_, readStamp_eq_some.mpr ⟨_, _, read, rfl, valid⟩⟩
    | succ top ih =>
      unfold longestStamp
      cases readStamp calendar (top + 1) (c :: rest) with
      | none => simpa using ih
      | some stamp => exact ⟨stamp, rfl⟩
  exact some 5

theorem representable_wrapTicks (ticks : Int) : Representable (wrapTicks ticks) := by
  unfold Representable wrapTicks
  omega

/-- What is accepted is a name, and the instant returned is the one it names. -/
def AcceptsOnlyNames (calendar : Calendar) (date : DateParser) (view : Bytes) : Prop :=
  ∀ point, parseTimePointString calendar date view = some point →
    ∃ stamp, Names calendar view stamp ∧ point = stamp.instant calendar

/-- The six formats that are tried, and no others. -/
def fieldParser (calendar : Calendar) : DateParser where
  timePoint format view :=
    if format = ascii "%Y-%m-%d-%H-%M-%S" then
      (readStamp calendar 5 view).map fun stamp => wrapTicks (stamp.instant calendar)
    else if format = ascii "%Y-%m-%d-%H-%M" then
      (readStamp calendar 4 view).map fun stamp => wrapTicks (stamp.instant calendar)
    else if format = ascii "%Y-%m-%d-%H" then
      (readStamp calendar 3 view).map fun stamp => wrapTicks (stamp.instant calendar)
    else if format = ascii "%Y-%m-%d" then
      (readStamp calendar 2 view).map fun stamp => wrapTicks (stamp.instant calendar)
    else none
  yearMonth format view :=
    if format = ascii "%Y-%m" then (readStamp calendar 1 view).map fun stamp => stamp.date.yearMonth else none
  year format view :=
    if format = ascii "%Y" then (readStamp calendar 0 view).map fun stamp => stamp.date.year else none

theorem readsFields_fieldParser (calendar : Calendar) : (fieldParser calendar).ReadsFields calendar where
  seconds _ := rfl
  minutes _ := rfl
  hours _ := rfl
  days _ := rfl
  months _ := rfl
  years _ := rfl

/-- A text is accepted for what it names, or not accepted, exactly when it has no digit in front or names
an instant that can be represented. -/
theorem accepts_only_names_iff (calendar : Calendar) (date : DateParser) (reads : date.ReadsFields calendar)
    (view : Bytes) : AcceptsOnlyNames calendar date view ↔
      (∀ c ∈ view.head?, isDigit c = false) ∨
        ∃ stamp, Names calendar view stamp ∧ Representable (stamp.instant calendar) := by
  unfold AcceptsOnlyNames
  rw [parseTimePointString_eq reads]
  constructor
  · intro accepts
    by_cases noDigit : ∀ c ∈ view.head?, isDigit c = false
    · exact .inl noDigit
    · obtain ⟨c, rest, rfl, first⟩ : ∃ c rest, view = c :: rest ∧ isDigit c = true := by
        cases view with
        | nil => exact absurd nofun noDigit
        | cons c rest => simpa using noDigit
      obtain ⟨read, found⟩ : ∃ read, stampOf calendar (c :: rest) = some read := stampOf_some first
      obtain ⟨stamp, names, same⟩ := accepts (wrapTicks (read.instant calendar)) (by rw [found]; rfl)
      -- What is returned is in the counter's range, so the instant named is.
      exact .inr ⟨stamp, names, same ▸ representable_wrapTicks _⟩
  · rintro (noDigit | ⟨stamp, names, fits⟩) point accepted
    · rw [stampOf_none noDigit] at accepted
      cases accepted
    · rw [stampOf_of_names names] at accepted
      cases accepted
      exact ⟨stamp, names, wrapTicks_of_representable fits⟩

/-- A day. -/
theorem accepts_only_names_day : AcceptsOnlyNames gregorian (fieldParser gregorian) (ascii "2019-02-08") := by
  have names : Names gregorian (ascii "2019-02-08") ⟨⟨2019, 2, 8⟩, 0, 0, 0⟩ :=
    ⟨2, by decide, [2019, 2, 8], Fields.spells_of_read rfl, rfl, by decide⟩
  exact (accepts_only_names_iff gregorian (fieldParser gregorian) (readsFields_fieldParser gregorian)
    (ascii "2019-02-08")).mpr (.inr ⟨_, names, by decide⟩)

/-- A month that does not exist, taken for its year. -/
theorem thirteenth_month_accepted : ¬ ∀ (calendar : Calendar) (date : DateParser), date.ReadsFields calendar →
    ∀ view, AcceptsOnlyNames calendar date view := by
  intro accepts
  have january : parseTimePointString gregorian (fieldParser gregorian) (ascii "2019-13") =
      some (wrapTicks (gregorian.sysDays ⟨2019, 1, 1⟩ * ticksPerDay)) := by decide
  obtain ⟨stamp, names, -⟩ := accepts gregorian _ (readsFields_fieldParser gregorian) _ _ january
  obtain ⟨more, few, fields, spells, rfl, valid⟩ := names
  have whole : readFields more (ascii "2019-13") = some (fields, []) := spells.read isDigit_separator
  have formats : more = 0 ∨ more = 1 ∨ more = 2 ∨ more = 3 ∨ more = 4 ∨ more = 5 := by omega
  rcases formats with rfl | rfl | rfl | rfl | rfl | rfl
  case inr.inl =>
    cases whole
    revert valid
    decide
  all_goals cases whole

end TimeDetail

end SaivBot
