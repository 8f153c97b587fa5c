import SaivBot.Logs.TickRange

/-! The six forms of the text of an instant.

A form leaves out fields from the right. Each is accepted for the instant that the
full form names with the missing fields at their first values, however many zeros the
numbers are filled with.
-/

set_option autoImplicit false

namespace SaivBot
open Civil

namespace Stamp

/-- In the order of the formats. -/
def fields (stamp : Stamp) : List Nat :=
  [stamp.date.year.toNat, stamp.date.month, stamp.date.day, stamp.hour, stamp.minute, stamp.second]

/-- So many fields behind the year are kept; the first month and day and zeros stand in for the others. -/
def keep (stamp : Stamp) (more : Nat) : Stamp where
  date := ⟨stamp.date.year, if 1 ≤ more then stamp.date.month else 1, if 2 ≤ more then stamp.date.day else 1⟩
  hour := if 3 ≤ more then stamp.hour else 0
  minute := if 4 ≤ more then stamp.minute else 0
  second := if 5 ≤ more then stamp.second else 0

/-- The year in up to four digits and so many of the fields behind it in up to two, with dashes between. -/
def Writes (stamp : Stamp) (more : Nat) (view : Bytes) : Prop :=
  Fields.Spells TimeDetail.isDigit TimeDetail.digit 45 4 (List.replicate more 2) (stamp.fields.take (more + 1)) view

/-- The text with as many fields as there are widths, each number filled to its width. -/
def text (stamp : Stamp) (widths : List Nat) : Bytes :=
  List.intercalate [45] ((widths.zip stamp.fields).map fun (width, n) => padded width n)

variable {stamp : Stamp} {more : Nat} {calendar : Calendar}

/-! The texts of a number. -/

theorem value_decimal (n : Nat) : Fields.value TimeDetail.digit (decimal n) = n := by
  have digits {chars : List Char} (drawn : ∀ c ∈ chars, c ∈ Nat.toDigits 10 n) (seen : Nat) :
      (chars.map fun c => UInt8.ofNat c.toNat).foldl (fun n c => 10 * n + TimeDetail.digit c) seen =
        Nat.ofDigitChars 10 chars seen := by
    induction chars generalizing seen with
    | nil => simp
    | cons c chars ih =>
      have same : TimeDetail.digit (UInt8.ofNat c.toNat) = c.toNat - '0'.toNat := by
        rw [TimeDetail.digit, toNat_of_mem_toDigits (drawn c (by simp))]
        rfl
      rw [List.map_cons, List.foldl_cons, same, ih fun other member => drawn other (by simp [member]),
        Nat.ofDigitChars_cons]
  rw [Fields.value, decimal, digits (fun _ member => member), Nat.ofDigitChars_ten_toDigits]

/-- Zeros in front do not count. -/
theorem value_padded (width n : Nat) : Fields.value TimeDetail.digit (padded width n) = n := by
  have zeros (count : Nat) : (List.replicate count (48 : Byte)).foldl (fun n c => 10 * n + TimeDetail.digit c) 0 = 0 := by
    induction count with
    | zero => rfl
    | succ count ih => rw [List.replicate_succ, List.foldl_cons]; exact ih
  rw [Fields.value, padded, List.foldl_append, zeros]
  exact value_decimal n

/-- A number may be filled to any width that its format reads. -/
theorem number_padded {limit width n : Nat} (fits : n < 10 ^ limit) (nonzero : 0 < limit) (narrow : width ≤ limit) :
    Fields.Number TimeDetail.isDigit limit (padded width n) := by
  have digits : (decimal n).length ≤ limit := by
    rw [decimal, List.length_map]
    exact (Nat.length_toDigits_le_iff (by decide) nonzero).mpr fits
  have nonempty : decimal n ≠ [] := by simp [decimal]
  refine ⟨?_, ?_, fun c member => decide_eq_true (isDigit_of_mem_padded member)⟩
  · simp [padded, nonempty]
  · rw [padded, List.length_append, List.length_replicate]
    omega

theorem spells_padded {limit width n : Nat} {others : List (Nat × Nat)} (fits : n < 10 ^ limit) (nonzero : 0 < limit)
    (narrow : width ≤ limit) (each : ∀ other ∈ others, other.1 ≤ 2 ∧ other.2 < 10 ^ 2) :
    Fields.Spells TimeDetail.isDigit TimeDetail.digit 45 limit (List.replicate others.length 2)
      (n :: others.map Prod.snd)
      (List.intercalate [45] (padded width n :: others.map fun (width, n) => padded width n)) := by
  have number := number_padded fits nonzero narrow
  induction others generalizing limit width n with
  | nil =>
    have spells : Fields.Spells TimeDetail.isDigit TimeDetail.digit 45 limit [] _ _ := .last number
    rw [value_padded] at spells
    simpa using spells
  | cons other others ih =>
    obtain ⟨filled, short⟩ := each other (by simp)
    have rest := ih short (by decide) filled (fun another member => each another (by simp [member]))
      (number_padded short (by decide) filled)
    have spells := Fields.Spells.cons number rest
    rw [value_padded] at spells
    simpa [List.replicate_succ] using spells

/-! The forms of a stamp. -/

theorem date_bounds (valid : stamp.Valid gregorian) : stamp.date.month < 10 ^ 2 ∧ stamp.date.day < 10 ^ 2 := by
  obtain ⟨⟨⟨-, month⟩, -, day⟩, -⟩ := valid
  have last : gregorian.lastDay stamp.date.yearMonth ≤ 31 := by
    change Gregorian.lastDay stamp.date.yearMonth ≤ 31
    unfold Gregorian.lastDay
    split
    · split <;> decide
    all_goals decide
  change stamp.date.month ≤ 12 at month
  omega

/-- With and without zeros in front, these are the texts of a stamp. -/
theorem writes_text (valid : stamp.Valid gregorian) (year : stamp.date.year < 10000) {width : Nat} {widths : List Nat}
    (narrow : width ≤ 4) (others : ∀ other ∈ widths, other ≤ 2) (few : widths.length ≤ 5) :
    stamp.Writes widths.length (stamp.text (width :: widths)) := by
  obtain ⟨month, day⟩ := date_bounds valid
  obtain ⟨-, hour, minute, second⟩ := valid
  let rest := [stamp.date.month, stamp.date.day, stamp.hour, stamp.minute, stamp.second]
  have bounded : ∀ n ∈ rest, n < 10 ^ 2 := by
    simp only [rest, List.mem_cons, List.not_mem_nil, or_false]
    rintro n (rfl | rfl | rfl | rfl | rfl) <;> omega
  have spells := @spells_padded 4 width stamp.date.year.toNat (widths.zip rest) (by omega) (by decide) narrow
    fun other member => ⟨others _ (List.of_mem_zip member).1, bounded _ (List.of_mem_zip member).2⟩
  have least : min widths.length rest.length = widths.length := Nat.min_eq_left few
  have taken : (widths.zip rest).map Prod.snd = rest.take widths.length := by
    rw [List.zip_eq_zip_take_min, List.map_snd_zip, least]
    rw [least, List.take_length, List.length_take]
    exact Nat.min_le_left _ _
  rw [List.length_zip, least, taken] at spells
  exact spells

theorem ofFields_take (year : 0 ≤ stamp.date.year) (few : more ≤ 5) :
    Stamp.ofFields (stamp.fields.take (more + 1)) = stamp.keep more := by
  have same : (stamp.date.year.toNat : Int) = stamp.date.year := Int.toNat_of_nonneg year
  have forms : more = 0 ∨ more = 1 ∨ more = 2 ∨ more = 3 ∨ more = 4 ∨ more = 5 := by omega
  rcases forms with rfl | rfl | rfl | rfl | rfl | rfl <;> simp [ofFields, fields, keep, same]

theorem valid_keep (valid : stamp.Valid calendar) (more : Nat) : (stamp.keep more).Valid calendar := by
  obtain ⟨⟨month, dayLower, dayUpper⟩, hour, minute, second⟩ := valid
  have kept {c : Prop} [Decidable c] {n bound : Nat} (less : n < bound) : (if c then n else 0) < bound := by
    split <;> omega
  refine ⟨?_, kept hour, kept minute, kept second⟩
  have first {m : Nat} (valid : YearMonth.Valid ⟨stamp.date.year, m⟩) :
      calendar.ValidDate ⟨stamp.date.year, m, 1⟩ := ⟨valid, Nat.le_refl 1, calendar.lastDay_pos _ valid⟩
  -- A day is kept with its month only.
  by_cases day : 2 ≤ more
  · have whole : (stamp.keep more).date = stamp.date := by simp [keep, day, Nat.le_of_succ_le day]
    rw [whole]
    exact ⟨month, dayLower, dayUpper⟩
  by_cases alone : 1 ≤ more
  · simp only [keep, day, alone, ↓reduceIte]
    exact first month
  · simp only [keep, day, alone, ↓reduceIte]
    exact first ⟨Nat.le_refl 1, Nat.le_of_ble_eq_true rfl⟩

theorem names_of_writes (valid : stamp.Valid calendar) (year : 0 ≤ stamp.date.year) (few : more ≤ 5) {view : Bytes}
    (writes : stamp.Writes more view) : TimeDetail.Names calendar view (stamp.keep more) :=
  ⟨more, few, _, writes, (ofFields_take year few).symm, valid_keep valid more⟩

/-- An instant that can be represented lies in a year of our era. -/
theorem year_nonneg (valid : stamp.Valid gregorian) (fits : Representable (stamp.instant gregorian)) :
    0 ≤ stamp.date.year := by
  by_contra negative
  have january : YearMonth.Valid ⟨0, 1⟩ := ⟨Nat.le_refl 1, by decide⟩
  have early := gregorian.firstDay_mono valid.1.1.next january (by
    rw [YearMonth.index_next]
    have upper := valid.1.1.2
    simp only [YearMonth.index, Date.yearMonth] at upper ⊢
    omega)
  have year : gregorian.firstDay ⟨0, 1⟩ = -719528 := by decide
  have day := (Calendar.sysDays_bounds valid.1).2
  have own := LogRequest.floorDays_instant valid
  simp only [TimeDetail.floorDays, ticksPerDay, ticksPerSecond] at own
  have lower := fits.1
  omega

end Stamp

namespace TimeDetail

theorem parseTimePointString_of_names {calendar : Calendar} {date : DateParser} (reads : date.ReadsFields calendar)
    {view : Bytes} {stamp : Stamp} (names : Names calendar view stamp) :
    parseTimePointString calendar date view = some (wrapTicks (stamp.instant calendar)) := by
  rw [parseTimePointString_eq reads, stampOf_of_names names]
  rfl

/-- Every form is accepted for the instant of the full text with the missing fields at their first values. -/
theorem parses_form (date : DateParser) (reads : date.ReadsFields gregorian) (stamp : Stamp)
    (valid : stamp.Valid gregorian) (fits : Representable (stamp.instant gregorian)) (more : Nat) (few : more ≤ 5)
    (view full : Bytes) (short : stamp.Writes more view) (long : (stamp.keep more).Writes 5 full) :
    ∃ point, parseTimePointString gregorian date view = some point ∧
      parseTimePointString gregorian date full = some point ∧
      (Representable ((stamp.keep more).instant gregorian) → point = (stamp.keep more).instant gregorian) := by
  have year := Stamp.year_nonneg valid fits
  have named := Stamp.names_of_writes valid year few short
  have namedFull := Stamp.names_of_writes (Stamp.valid_keep valid more) year (Nat.le_refl 5) long
  exact ⟨_, parseTimePointString_of_names reads named, parseTimePointString_of_names reads namedFull,
    wrapTicks_of_representable⟩

/-- A month without a zero. -/
theorem parses_form_month : ∃ point,
    parseTimePointString gregorian (fieldParser gregorian) (ascii "2019-2") = some point ∧
      parseTimePointString gregorian (fieldParser gregorian) (ascii "2019-02-01-00-00-00") = some point ∧
      (Representable (Stamp.instant gregorian ⟨⟨2019, 2, 1⟩, 0, 0, 0⟩) →
        point = Stamp.instant gregorian ⟨⟨2019, 2, 1⟩, 0, 0, 0⟩) :=
  parses_form (fieldParser gregorian) (readsFields_fieldParser gregorian) ⟨⟨2019, 2, 8⟩, 12, 34, 56⟩ (by decide)
    (by decide) 1 (by decide) (ascii "2019-2") (ascii "2019-02-01-00-00-00") (Fields.spells_of_read rfl)
    (Fields.spells_of_read rfl)

end TimeDetail

end SaivBot
