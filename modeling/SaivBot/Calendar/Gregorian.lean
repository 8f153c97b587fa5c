import SaivBot.Calendar.Civil

/-! The proleptic Gregorian calendar.

Years are counted from March, so that the leap day is the last day of its year;
400 such years have 146097 days, and day 0 of the count lies 719468 days before
1970-01-01.
-/

set_option autoImplicit false

namespace Civil.Gregorian

def isLeap (year : Int) : Bool :=
  decide (year % 4 = 0 ∧ (year % 100 ≠ 0 ∨ year % 400 = 0))

def lastDay (ym : YearMonth) : Nat :=
  match ym.month with
  | 2 => if isLeap ym.year then 29 else 28
  | 4 => 30
  | 6 => 30
  | 9 => 30
  | 11 => 30
  | _ => 31

/-- Days in front of the March-based month, counted from 0. -/
def monthStart (month : Int) : Int := (153 * month + 2) / 5

/-- Days in front of the March-based year. -/
def yearStart (year : Int) : Int := 365 * year + year / 4 - year / 100 + year / 400

def marchYear (ym : YearMonth) : Int := if ym.month ≤ 2 then ym.year - 1 else ym.year
def marchMonth (ym : YearMonth) : Int := if ym.month ≤ 2 then ym.month + 9 else ym.month - 3

def sysDays (date : Date) : Int :=
  yearStart (marchYear date.yearMonth) + monthStart (marchMonth date.yearMonth) + date.day - 1 - 719468

/-- A March-based year and the day in it. -/
def yearAndDay (day : Int) : Int × Int :=
  let era := day / 146097
  let ofEra := day % 146097
  let century := min (ofEra / 36524) 3
  let ofCentury := ofEra - 36524 * century
  let quad := ofCentury / 1461
  let ofQuad := ofCentury - 1461 * quad
  let single := min (ofQuad / 365) 3
  (400 * era + 100 * century + 4 * quad + single, ofQuad - 365 * single)

def fromDays (n : Int) : Date :=
  let (year, ofYear) := yearAndDay (n + 719468)
  let month := (5 * ofYear + 2) / 153
  let day := ofYear - monthStart month + 1
  if month < 10 then ⟨year, (month + 3).toNat, day.toNat⟩
  else ⟨year + 1, (month - 9).toNat, day.toNat⟩

/-- The decomposition into eras, centuries, four-year groups and single years. A year has a day 365
only when it ends its group, and the group of a century's end only when it ends the era. -/
theorem yearAndDay_parts (n : Int) :
    ∃ era century quad single ofYear : Int,
      yearAndDay n = (400 * era + 100 * century + 4 * quad + single, ofYear) ∧
      n = 146097 * era + 36524 * century + 1461 * quad + 365 * single + ofYear ∧
      (0 ≤ century ∧ century ≤ 3) ∧ (0 ≤ quad ∧ quad ≤ 24) ∧ (0 ≤ single ∧ single ≤ 3) ∧
      0 ≤ ofYear ∧ ofYear ≤ 365 ∧ (ofYear = 365 → single = 3 ∧ (quad = 24 → century = 3)) := by
  refine ⟨n / 146097, min (n % 146097 / 36524) 3, _, _, _, rfl, ?_⟩
  have century : 0 ≤ min (n % 146097 / 36524) 3 ∧ min (n % 146097 / 36524) 3 ≤ 3 ∧
      0 ≤ n % 146097 - 36524 * min (n % 146097 / 36524) 3 ∧
      n % 146097 - 36524 * min (n % 146097 / 36524) 3 ≤ 36524 ∧
      (min (n % 146097 / 36524) 3 < 3 →
        n % 146097 - 36524 * min (n % 146097 / 36524) 3 < 36524) := by omega
  have whole : n = 146097 * (n / 146097) + 36524 * min (n % 146097 / 36524) 3 +
      (n % 146097 - 36524 * min (n % 146097 / 36524) 3) := by omega
  -- The divisions stay linear when each is followed by a fresh variable for what it leaves.
  generalize n % 146097 - 36524 * min (n % 146097 / 36524) 3 = ofCentury at *
  generalize min (n % 146097 / 36524) 3 = c at *
  generalize n / 146097 = era at *
  obtain ⟨lower, upper, start, bound, early⟩ := century
  -- The last four-year group of a century lacks its leap day, except in the last century of the era.
  have quad : 0 ≤ ofCentury / 1461 ∧ ofCentury / 1461 ≤ 24 ∧ 0 ≤ ofCentury - 1461 * (ofCentury / 1461) ∧
      ofCentury - 1461 * (ofCentury / 1461) ≤ 1460 ∧
      (ofCentury / 1461 = 24 → c < 3 → ofCentury - 1461 * (ofCentury / 1461) < 1460) := by omega
  have rest : ofCentury = 1461 * (ofCentury / 1461) + (ofCentury - 1461 * (ofCentury / 1461)) := by omega
  generalize ofCentury - 1461 * (ofCentury / 1461) = ofQuad at *
  generalize ofCentury / 1461 = q at *
  omega

theorem yearStart_parts {era century quad single : Int} (hc : 0 ≤ century ∧ century ≤ 3)
    (hq : 0 ≤ quad ∧ quad ≤ 24) (hs : 0 ≤ single ∧ single ≤ 3) :
    yearStart (400 * era + 100 * century + 4 * quad + single) =
      146097 * era + 36524 * century + 1461 * quad + 365 * single := by
  have fours : (400 * era + 100 * century + 4 * quad + single) / 4 = 100 * era + 25 * century + quad := by
    omega
  have hundreds : (400 * era + 100 * century + 4 * quad + single) / 100 = 4 * era + century := by omega
  have eras : (400 * era + 100 * century + 4 * quad + single) / 400 = era := by omega
  simp only [yearStart, fours, hundreds, eras]
  omega

/-- A March-based year has 365 days, and one more when the February that ends it is leap. -/
theorem yearAndDay_spec (n : Int) :
    yearStart (yearAndDay n).1 + (yearAndDay n).2 = n ∧ 0 ≤ (yearAndDay n).2 ∧
      (yearAndDay n).2 ≤ 365 ∧ ((yearAndDay n).2 = 365 → isLeap ((yearAndDay n).1 + 1) = true) := by
  obtain ⟨era, century, quad, single, ofYear, parts, sum, hc, hq, hs, lower, upper, full⟩ :=
    yearAndDay_parts n
  rw [parts]
  refine ⟨?_, lower, upper, ?_⟩
  · simp only [yearStart_parts hc hq hs]
    omega
  · intro long
    obtain ⟨last, ends⟩ := full long
    simp only [isLeap, decide_eq_true_eq]
    omega

theorem yearStart_next (year : Int) :
    yearStart (year + 1) = yearStart year + if isLeap (year + 1) then 366 else 365 := by
  simp only [yearStart, isLeap, decide_eq_true_eq]
  split <;> omega

/-- The month a day of the March-based year lies in, and the day in the month. -/
theorem month_of_day {day : Int} (lower : 0 ≤ day) (upper : day ≤ 365) :
    0 ≤ (5 * day + 2) / 153 ∧ (5 * day + 2) / 153 ≤ 11 ∧
      monthStart ((5 * day + 2) / 153) ≤ day ∧ day < monthStart ((5 * day + 2) / 153 + 1) := by
  simp only [monthStart]
  omega

theorem sysDays_fromDays (n : Int) : sysDays (fromDays n) = n := by
  obtain ⟨sum, lower, upper, -⟩ := yearAndDay_spec (n + 719468)
  obtain ⟨first, last, start, stop⟩ := month_of_day lower upper
  simp only [fromDays]
  generalize yearAndDay (n + 719468) = split at *
  obtain ⟨year, ofYear⟩ := split
  simp only at *
  generalize (5 * ofYear + 2) / 153 = month at *
  split
  · next early =>
    have notSmall : ¬ (month + 3).toNat ≤ 2 := by omega
    have index : (((month + 3).toNat : Nat) : Int) - 3 = month := by omega
    simp only [sysDays, Date.yearMonth, marchYear, marchMonth, notSmall, ↓reduceIte, index]
    omega
  · next late =>
    have small : (month - 9).toNat ≤ 2 := by omega
    have index : (((month - 9).toNat : Nat) : Int) + 9 = month := by omega
    simp only [sysDays, Date.yearMonth, marchYear, marchMonth, small, ↓reduceIte, index, Int.add_sub_cancel]
    omega

theorem fromDays_valid (n : Int) :
    (fromDays n).yearMonth.Valid ∧ 1 ≤ (fromDays n).day ∧
      (fromDays n).day ≤ lastDay (fromDays n).yearMonth := by
  obtain ⟨-, lower, upper, leap⟩ := yearAndDay_spec (n + 719468)
  obtain ⟨first, last, start, stop⟩ := month_of_day lower upper
  simp only [fromDays]
  generalize yearAndDay (n + 719468) = split at *
  obtain ⟨year, ofYear⟩ := split
  simp only [monthStart] at *
  generalize (5 * ofYear + 2) / 153 = month at *
  -- The table of month lengths is irregular, so the months are checked one by one.
  have months : month = 0 ∨ month = 1 ∨ month = 2 ∨ month = 3 ∨ month = 4 ∨ month = 5 ∨ month = 6 ∨
      month = 7 ∨ month = 8 ∨ month = 9 ∨ month = 10 ∨ month = 11 := by omega
  rcases months with rfl | rfl | rfl | rfl | rfl | rfl | rfl | rfl | rfl | rfl | rfl | rfl
  case inr.inr.inr.inr.inr.inr.inr.inr.inr.inr.inr =>
    -- February: the day 365 is its 29th and needs a leap year
    by_cases long : ofYear = 365
    · simp only [Date.yearMonth, YearMonth.Valid, lastDay]
      simp [leap long, long]
    · simp only [Date.yearMonth, YearMonth.Valid, lastDay]
      simp
      split <;> omega
  all_goals
    simp only [Date.yearMonth, YearMonth.Valid, lastDay]
    simp
    omega

theorem sysDays_next {ym : YearMonth} (valid : ym.Valid) :
    sysDays ym.next.first = sysDays ym.first + lastDay ym := by
  obtain ⟨year, month⟩ := ym
  obtain ⟨lower, upper⟩ := valid
  have step := yearStart_next (year - 1)
  rw [Int.sub_add_cancel] at step
  simp only at lower upper
  have months : month = 1 ∨ month = 2 ∨ month = 3 ∨ month = 4 ∨ month = 5 ∨ month = 6 ∨
      month = 7 ∨ month = 8 ∨ month = 9 ∨ month = 10 ∨ month = 11 ∨ month = 12 := by omega
  rcases months with rfl | rfl | rfl | rfl | rfl | rfl | rfl | rfl | rfl | rfl | rfl | rfl
  case inr.inl =>
    -- February ends the March-based year
    simp only [YearMonth.next, YearMonth.first, Date.yearMonth, sysDays, marchYear, marchMonth, monthStart,
      lastDay]
    simp
    split at step <;> simp_all <;> omega
  all_goals
    simp only [YearMonth.next, YearMonth.first, Date.yearMonth, sysDays, marchYear, marchMonth, monthStart,
      lastDay]
    simp
    try omega

theorem sysDays_day (date : Date) : sysDays date = sysDays date.yearMonth.first + date.day - 1 := by
  simp only [sysDays, YearMonth.first, Date.yearMonth]
  omega

theorem lastDay_pos (ym : YearMonth) : 0 < lastDay ym := by
  unfold lastDay
  split
  · split <;> exact Nat.succ_pos _
  all_goals exact Nat.succ_pos _

end Civil.Gregorian

namespace Civil

def gregorian : Calendar where
  lastDay := Gregorian.lastDay
  sysDays := Gregorian.sysDays
  fromDays := Gregorian.fromDays
  lastDay_pos ym _ := Gregorian.lastDay_pos ym
  fromDays_month n := (Gregorian.fromDays_valid n).1
  fromDays_day n := (Gregorian.fromDays_valid n).2
  sysDays_fromDays := Gregorian.sysDays_fromDays
  sysDays_day date _ := Gregorian.sysDays_day date
  sysDays_next _ valid := Gregorian.sysDays_next valid
  epoch := by decide

end Civil
