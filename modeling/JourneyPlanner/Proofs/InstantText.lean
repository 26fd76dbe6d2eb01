import JourneyPlanner.Proofs.Calendar
import JourneyPlanner.Proofs.Digits
import JourneyPlanner.Time.Reader
import JourneyPlanner.Time.Text

/-!
# Instants and their texts

Every instant is read back from its text: years with and without a sign, the three lengths of
a fraction and the second that may be inserted behind a minute.
-/

namespace JourneyPlanner

open Decimal

namespace Instant

variable {digits rest : List Char}

/-! ### Numbers and marks -/

/-- A run of digits is read up to where something else begins. -/
theorem readDigits?_digits {most : Nat} (hdigits : ∀ c ∈ digits, c.isDigit = true)
    (hne : digits ≠ []) (hlength : digits.length ≤ most) (hrest : NoDigitFirst rest) :
    readDigits? most (digits ++ rest) = some (digitsValue 0 digits, rest) := by
  unfold readDigits?
  dsimp only
  rw [dropBlanks_digits hdigits hne, takeWhile_digits hdigits hrest,
    List.take_of_length_le hlength]
  simp [hne]

/-- A number that is written in a width is read back. -/
theorem readDigits?_padded {most width n : Nat} (hwidth : 0 < width) (hfits : n < Nat.pow 10 width)
    (hmost : width ≤ most) (hrest : NoDigitFirst rest) :
    readDigits? most ((padded width n).toList ++ rest) = some (n, rest) := by
  rw [readDigits?_digits isDigit_padded (padded_ne_nil width n)
    (by rwa [length_padded hwidth hfits]) hrest, digitsValue_padded]

/-- A number of two digits is read back. -/
theorem readDigits?_two {n : Nat} (hfits : n < 100) (hrest : NoDigitFirst rest) :
    readDigits? 2 ((padded 2 n).toList ++ rest) = some (n, rest) :=
  readDigits?_padded (by decide) hfits (by decide) hrest

/-- A mark is read. -/
theorem readMark?_mark {mark : Char} (hmark : Text.isBlank mark = false) (rest : List Char) :
    readMark? mark (mark :: rest) = some rest := by
  unfold readMark?
  rw [dropBlanks_cons hmark]
  exact if_pos rfl

/-! ### Years -/

/-- A year as dates are written with it. -/
def yearText (year : Int) : String :=
  if 0 ≤ year ∧ year ≤ 9999 then padded 4 year.natAbs
  else (if year < 0 then "-" else "+") ++ padded 4 year.natAbs

/-- A year behind its sign is read. -/
theorem readYear?_signed (negative : Bool) (n : Nat) (hrest : NoDigitFirst rest) :
    readYear?.signed negative ((padded 4 n).toList ++ rest) =
      some (if negative then -Int.ofNat n else Int.ofNat n, rest) := by
  have hdigits := @isDigit_padded 4 n
  have hvalue := digitsValue_padded 4 n
  have hne := padded_ne_nil 4 n
  generalize (padded 4 n).toList = digits at *
  cases digits with
  | nil => exact absurd rfl hne
  | cons c digits =>
    unfold readYear?.signed
    rw [readDigits?_digits hdigits hne (by simp) hrest, hvalue]
    simp [hdigits c (by simp)]

/-- A year without a sign is read. -/
theorem readYear?_unsigned {n : Nat} (hfits : n < 10000) (hrest : NoDigitFirst rest) :
    readYear? ((padded 4 n).toList ++ rest) = some (Int.ofNat n, rest) := by
  have hread := @readDigits?_padded rest 4 4 n (by decide) hfits (by decide) hrest
  have hdigits := @isDigit_padded 4 n
  have hne := padded_ne_nil 4 n
  generalize (padded 4 n).toList = digits at *
  cases digits with
  | nil => exact absurd rfl hne
  | cons c digits =>
    have hc := hdigits c (by simp)
    unfold readYear?
    rw [dropBlanks_digits hdigits hne]
    -- The first character is a digit, so it is neither sign.
    split
    · rename_i heq
      cases heq
      exact absurd hc (by decide)
    · rename_i heq
      cases heq
      exact absurd hc (by decide)
    · rw [hread]
      rfl

/-- A minus sign makes a year negative. -/
theorem readYear?_minus (text : List Char) :
    readYear? ('-' :: text) = readYear?.signed true text := by
  unfold readYear?
  rw [dropBlanks_cons (by decide)]
  rfl

/-- A plus sign makes it longer than four digits. -/
theorem readYear?_plus (text : List Char) :
    readYear? ('+' :: text) = readYear?.signed false text := by
  unfold readYear?
  rw [dropBlanks_cons (by decide)]
  rfl

/-- A year is read back. -/
theorem readYear?_yearText (year : Int) (hrest : NoDigitFirst rest) :
    readYear? ((yearText year).toList ++ rest) = some (year, rest) := by
  unfold yearText
  split
  · rename_i hfour
    have hyear : Int.ofNat year.natAbs = year := Int.natAbs_of_nonneg hfour.1
    rw [readYear?_unsigned (by omega) hrest, hyear]
  · split
    · rename_i hnegative
      have hyear : -Int.ofNat year.natAbs = year := by
        have := Int.ofNat_natAbs_of_nonpos (Int.le_of_lt hnegative)
        rw [Int.ofNat_eq_natCast]
        omega
      rw [String.toList_append, show "-".toList = ['-'] from rfl, List.append_assoc,
        List.singleton_append, readYear?_minus, readYear?_signed true year.natAbs hrest,
        if_pos rfl, hyear]
    · rename_i hpositive
      have hyear : Int.ofNat year.natAbs = year := Int.natAbs_of_nonneg (Int.not_lt.1 hpositive)
      rw [String.toList_append, show "+".toList = ['+'] from rfl, List.append_assoc,
        List.singleton_append, readYear?_plus, readYear?_signed false year.natAbs hrest,
        if_neg Bool.false_ne_true, hyear]

/-! ### Fractions -/

/-- A fraction is read as far as nine digits go. -/
theorem readFraction?_point (hdigits : ∀ c ∈ digits, c.isDigit = true) (hne : digits ≠ [])
    (hlength : digits.length ≤ 9) :
    readFraction? ('.' :: digits) =
      some (digitsValue 0 digits * Nat.pow 10 (9 - digits.length), []) := by
  have htaken := @takeWhile_digits digits [] hdigits (by simp [NoDigitFirst])
  rw [List.append_nil] at htaken
  rw [readFraction?, htaken, List.take_of_length_le hlength]
  simp [hne]

/-- A fraction with places for a number is read as the nanoseconds it stands for. -/
theorem readFraction?_padded {width n : Nat} (hwidth : 0 < width) (hnine : width ≤ 9)
    (hfits : n < Nat.pow 10 width) :
    readFraction? ('.' :: (padded width n).toList) = some (n * Nat.pow 10 (9 - width), []) := by
  rw [readFraction?_point isDigit_padded (padded_ne_nil width n)
    (by rwa [length_padded hwidth hfits]), digitsValue_padded, length_padded hwidth hfits]

/-- The nanoseconds of a second are read back from the fraction they are written as. -/
theorem readFraction?_fractionText {nanoseconds : Nat} (h : nanoseconds < 1000000000) :
    readFraction? (fractionText nanoseconds).toList = some (nanoseconds, []) := by
  unfold fractionText
  split
  · rename_i hzero
    rw [hzero]
    rfl
  · split
    · rw [String.toList_append]
      refine (readFraction?_padded (by decide) (by decide) ?_).trans ?_
      · show nanoseconds / 1000000 < 1000
        omega
      · congr 2
        show nanoseconds / 1000000 * 1000000 = nanoseconds
        omega
    · split
      · rw [String.toList_append]
        refine (readFraction?_padded (by decide) (by decide) ?_).trans ?_
        · show nanoseconds / 1000 < 1000000
          omega
        · congr 2
          show nanoseconds / 1000 * 1000 = nanoseconds
          omega
      · rw [String.toList_append]
        exact (readFraction?_padded (by decide) (by decide) h).trans (by simp)

/-- A fraction begins with its point, if there is one. -/
theorem noDigitFirst_fractionText (nanoseconds : Nat) :
    NoDigitFirst (fractionText nanoseconds).toList := by
  have hpoint (text : String) : NoDigitFirst ("." ++ text).toList := by
    rw [String.toList_append]
    exact noDigitFirst_cons (by decide) text.toList
  unfold fractionText
  split
  · simp [NoDigitFirst]
  · split
    · exact hpoint _
    · split
      · exact hpoint _
      · exact hpoint _

/-! ### Dates and times of day -/

/-- The parts of a text, with the marks between them. -/
theorem toList_text (a : Instant) :
    a.text.toList = (yearText a.date.year).toList ++ '-' :: ((padded 2 a.date.month).toList ++
      '-' :: ((padded 2 a.date.day).toList ++ 'T' :: ((padded 2 a.hour).toList ++
        ':' :: ((padded 2 a.minute).toList ++ ':' :: ((padded 2 a.second).toList ++
          (fractionText a.nanosecond).toList))))) := by
  have hdate : a.date.text =
      yearText a.date.year ++ "-" ++ padded 2 a.date.month ++ "-" ++ padded 2 a.date.day := rfl
  rw [text, textWith, hdate, clockText]
  simp

/-- Month and day of a date have two digits. -/
theorem date_fits (a : Instant) : a.date.month < 100 ∧ a.date.day < 100 := by
  have hvalid := Date.isValid_ofDayNumber (a.minuteNumber / 1440)
  have hlength : daysInMonth a.date.year a.date.month ≤ 31 := by
    unfold daysInMonth
    split
    · split <;> decide
    · split <;> decide
  simp only [Date.isValid, Bool.and_eq_true, decide_eq_true_eq] at hvalid
  exact ⟨by rw [date]; omega, by rw [date] at hlength ⊢; omega⟩

/-- An instant is what its date and its time of day come to. -/
theorem ofParts?_parts (a : Instant) :
    ofParts? a.date a.hour a.minute a.second a.nanosecond = some a := by
  have hminutes : a.date.dayNumber * 1440 + a.hour * 60 + a.minute = a.minuteNumber := by
    rw [date, Date.dayNumber_ofDayNumber, hour, minute, minuteOfDay]
    omega
  have hinto : a.second * 1000000000 + a.nanosecond = a.intoMinute := by
    rw [second, nanosecond]
    omega
  have hhour : a.hour < 24 := by
    rw [hour, minuteOfDay]
    omega
  have hminute : a.minute < 60 := Nat.mod_lt _ (by decide)
  have hvalid : a.date.isValid = true := Date.isValid_ofDayNumber _
  unfold ofParts?
  dsimp only
  rw [if_pos (by simp [hvalid, hhour, hminute]),
    dif_pos ⟨hminutes ▸ a.bounded, hinto ▸ a.within⟩]
  exact congrArg some (ext hminutes hinto)

/-- Every instant is read back from its text. -/
theorem ofText?_text (a : Instant) : ofText? a.text = some a := by
  obtain ⟨hmonth, hday⟩ := a.date_fits
  have hhour : a.hour < 100 := by
    rw [hour, minuteOfDay]
    omega
  have hminute : a.minute < 100 := by
    rw [minute]
    omega
  have hsecond : a.second < 100 := by
    have := a.within
    rw [second]
    omega
  have hnanosecond : a.nanosecond < 1000000000 := Nat.mod_lt _ (by decide)
  have hdash (text) : NoDigitFirst ('-' :: text) := noDigitFirst_cons (by decide) text
  have hmark (text) : NoDigitFirst ('T' :: text) := noDigitFirst_cons (by decide) text
  have hcolon (text) : NoDigitFirst (':' :: text) := noDigitFirst_cons (by decide) text
  unfold ofText?
  rw [toList_text, readYear?_yearText _ (hdash _)]
  simp only [Option.bind_eq_bind, Option.bind_some]
  rw [readMark?_mark (by decide), Option.bind_some, readDigits?_two hmonth (hdash _)]
  simp only [Option.bind_some]
  rw [readMark?_mark (by decide), Option.bind_some, readDigits?_two hday (hmark _)]
  simp only [Option.bind_some]
  rw [readMark?_mark (by decide), Option.bind_some, readDigits?_two hhour (hcolon _)]
  simp only [Option.bind_some]
  rw [readMark?_mark (by decide), Option.bind_some, readDigits?_two hminute (hcolon _)]
  simp only [Option.bind_some]
  rw [readMark?_mark (by decide), Option.bind_some,
    readDigits?_two hsecond (noDigitFirst_fractionText _)]
  simp only [Option.bind_some]
  rw [readFraction?_fractionText hnanosecond]
  exact a.ofParts?_parts

end Instant

end JourneyPlanner
