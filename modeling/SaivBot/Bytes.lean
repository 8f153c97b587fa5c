import Mathlib.Data.List.Basic

/-! Byte strings as the bot handles them: `char` data without an encoding, compared and
lower-cased in the C locale.
-/

set_option autoImplicit false

namespace SaivBot

abbrev Byte := UInt8
abbrev Bytes := List Byte

instance : LawfulBEq Bytes := List.instLawfulBEq

/-- The bytes of a literal of the source. -/
def ascii (literal : String) : Bytes := literal.toUTF8.data.toList

namespace Byte

def newline : Byte := 10
def carriageReturn : Byte := 13
def space : Byte := 32
def exclamation : Byte := 33
def hash : Byte := 35
def colon : Byte := 58
def commercialAt : Byte := 64

end Byte

def IsDigit (c : Byte) : Prop := 48 ≤ c ∧ c ≤ 57

instance (c : Byte) : Decidable (IsDigit c) := inferInstanceAs (Decidable (_ ∧ _))

def crlf : Bytes := [Byte.carriageReturn, Byte.newline]

/-- `::tolower` in the C locale: bytes outside `A`..`Z` are left alone. -/
def tolower (c : Byte) : Byte := if 65 ≤ c ∧ c ≤ 90 then c + 32 else c

def toLowerCaseString (source : Bytes) : Bytes := source.map tolower

def caselessCompare (str1 str2 : Bytes) : Bool :=
  if str1.length ≠ str2.length then false
  else (str1.zip str2).all fun (a, b) => tolower a == tolower b

theorem caselessCompare_iff (str1 str2 : Bytes) :
    caselessCompare str1 str2 = true ↔ toLowerCaseString str1 = toLowerCaseString str2 := by
  induction str1 generalizing str2 with
  | nil => cases str2 <;> simp [caselessCompare, toLowerCaseString]
  | cons a str1 ih =>
    cases str2 with
    | nil => simp [caselessCompare, toLowerCaseString]
    | cons b str2 =>
      have rest := ih str2
      simp only [caselessCompare, toLowerCaseString] at rest
      simp only [caselessCompare, toLowerCaseString, List.length_cons, ne_eq, Nat.add_right_cancel_iff,
        List.zip_cons_cons, List.all_cons, List.map_cons, List.cons.injEq, ← rest]
      by_cases same : str1.length = str2.length <;> simp [same]

theorem tolower_tolower (c : Byte) : tolower (tolower c) = tolower c := by
  unfold tolower
  split
  · next upper =>
    have lower : ¬ (65 ≤ c + 32 ∧ c + 32 ≤ 90) := by grind
    rw [if_neg lower]
  · rfl

@[simp] theorem toLowerCaseString_idem (source : Bytes) :
    toLowerCaseString (toLowerCaseString source) = toLowerCaseString source := by
  simp [toLowerCaseString, tolower_tolower]

/-- `std::to_string` of an unsigned number. -/
def decimal (n : Nat) : Bytes := (Nat.toDigits 10 n).map fun c => UInt8.ofNat c.toNat

/-- `std::to_string` of an `int`. -/
def decimalInt (n : Int) : Bytes := if n < 0 then 45 :: decimal n.natAbs else decimal n.natAbs

/-- A number filled with zeros to at least `width` digits. -/
def padded (width n : Nat) : Bytes := List.replicate (width - (decimal n).length) 48 ++ decimal n

theorem range_of_mem_toDigits {n : Nat} {digit : Char} (drawn : digit ∈ Nat.toDigits 10 n) :
    48 ≤ digit.toNat ∧ digit.toNat ≤ 57 := by
  have range := Nat.isDigit_of_mem_toDigits (by decide : 0 < 10) (by decide) drawn
  simp only [Char.isDigit, ge_iff_le, Bool.and_eq_true, decide_eq_true_eq, UInt32.le_iff_toNat_le] at range
  exact range

theorem toNat_of_mem_toDigits {n : Nat} {digit : Char} (drawn : digit ∈ Nat.toDigits 10 n) :
    (UInt8.ofNat digit.toNat).toNat = digit.toNat := by
  have range := range_of_mem_toDigits drawn
  rw [UInt8.toNat_ofNat']
  exact Nat.mod_eq_of_lt (by omega)

theorem isDigit_of_mem_decimal {n : Nat} {c : Byte} (member : c ∈ decimal n) : IsDigit c := by
  obtain ⟨digit, drawn, rfl⟩ := List.mem_map.mp member
  obtain ⟨lower, upper⟩ := range_of_mem_toDigits drawn
  refine ⟨?_, ?_⟩ <;> rw [UInt8.le_iff_toNat_le, toNat_of_mem_toDigits drawn]
  · exact lower
  · exact upper

theorem isDigit_of_mem_padded {width n : Nat} {c : Byte} (member : c ∈ padded width n) : IsDigit c := by
  rcases List.mem_append.mp member with zero | digit
  · rw [List.eq_of_mem_replicate zero]
    exact ⟨by decide, by decide⟩
  · exact isDigit_of_mem_decimal digit

/-- The form of a channel name that Twitch uses: lower case behind one `#`. -/
def formatIRCChannelName (source : Bytes) : Bytes :=
  match source with
  | [] => [Byte.hash]
  | c :: _ =>
    if c = Byte.hash then toLowerCaseString source else Byte.hash :: toLowerCaseString source

end SaivBot
