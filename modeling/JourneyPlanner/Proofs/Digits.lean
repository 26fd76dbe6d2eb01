import JourneyPlanner.Decimal.Layout
import JourneyPlanner.Decimal.Literal
import JourneyPlanner.Text.Blank

/-!
# Digits of texts

A number that is written with zeros in front up to a width consists of digits, spells itself,
and is as long as the width where it fits. A run of digits ends where something else begins.
-/

namespace JourneyPlanner.Decimal

variable {width n : Nat}

/-- The digits of a number, with zeros in front. -/
theorem toList_padded (width n : Nat) : (padded width n).toList =
    List.replicate (width - (Nat.toDigits 10 n).length) '0' ++ Nat.toDigits 10 n := by
  simp [padded, zeros, Nat.repr_eq_ofList_toDigits]

/-- A number that is written with zeros in front consists of digits. -/
theorem isDigit_padded : ∀ c ∈ (padded width n).toList, c.isDigit = true := by
  intro c hc
  rw [toList_padded, List.mem_append, List.mem_replicate] at hc
  rcases hc with ⟨-, rfl⟩ | hc
  · decide
  · exact Nat.isDigit_of_mem_toDigits (by decide) (by decide) hc

/-- Zeros in front do not count. -/
theorem digitsValue_zeros (count : Nat) (digits : List Char) :
    digitsValue 0 (List.replicate count '0' ++ digits) = digitsValue 0 digits := by
  induction count with
  | zero => rfl
  | succ count ih => exact ih

/-- A number is spelled by its digits. -/
theorem digitsValue_toDigits (n : Nat) : digitsValue 0 (Nat.toDigits 10 n) = n :=
  Nat.ofDigitChars_toDigits (by decide) (by decide)

/-- A number that is written with zeros in front spells itself. -/
theorem digitsValue_padded (width n : Nat) : digitsValue 0 (padded width n).toList = n := by
  rw [toList_padded, digitsValue_zeros, digitsValue_toDigits]

/-- There is a digit. -/
theorem padded_ne_nil (width n : Nat) : (padded width n).toList ≠ [] := by
  rw [toList_padded]
  exact List.append_ne_nil_of_right_ne_nil _ Nat.toDigits_ne_nil

/-- A number that fits a width is written in this width. -/
theorem length_padded (hwidth : 0 < width) (hfits : n < Nat.pow 10 width) :
    (padded width n).toList.length = width := by
  have hlength : (Nat.toDigits 10 n).length ≤ width :=
    (Nat.length_toDigits_le_iff (by decide) hwidth).2 hfits
  rw [toList_padded, List.length_append, List.length_replicate]
  omega

/-! ### Where digits end -/

/-- A text does not begin with a digit. -/
def NoDigitFirst (text : List Char) : Prop :=
  ∀ c ∈ text.head?, c.isDigit = false

/-- A text that begins with a mark does not. -/
theorem noDigitFirst_cons {c : Char} (h : c.isDigit = false) (text : List Char) :
    NoDigitFirst (c :: text) := by
  intro first hfirst
  cases hfirst
  exact h

variable {digits rest : List Char}

/-- All digits are taken from a text, up to where something else begins. -/
theorem takeWhile_digits (hdigits : ∀ c ∈ digits, c.isDigit = true) (hrest : NoDigitFirst rest) :
    (digits ++ rest).takeWhile Char.isDigit = digits := by
  rw [List.takeWhile_append_of_pos hdigits]
  cases rest with
  | nil => simp
  | cons c rest => simp [hrest c rfl]

/-- A digit is no blank. -/
theorem isBlank_of_isDigit {c : Char} (h : c.isDigit = true) : Text.isBlank c = false := by
  simp only [Char.isDigit, Bool.and_eq_true, decide_eq_true_eq, UInt32.le_iff_toNat_le] at h
  have hlow : 48 ≤ c.toNat := h.1
  have hhigh : c.toNat ≤ 57 := h.2
  unfold Text.isBlank
  simp
  omega

/-- No blank is dropped in front of a character that is none. -/
theorem dropBlanks_cons {c : Char} (h : Text.isBlank c = false) (rest : List Char) :
    Text.dropBlanks (c :: rest) = c :: rest := by
  simp [Text.dropBlanks, h]

/-- Nor in front of digits. -/
theorem dropBlanks_digits (hdigits : ∀ c ∈ digits, c.isDigit = true) (hne : digits ≠ [])
    (rest : List Char) : Text.dropBlanks (digits ++ rest) = digits ++ rest := by
  cases digits with
  | nil => exact absurd rfl hne
  | cons c digits => exact dropBlanks_cons (isBlank_of_isDigit (hdigits c (by simp))) _

end JourneyPlanner.Decimal
