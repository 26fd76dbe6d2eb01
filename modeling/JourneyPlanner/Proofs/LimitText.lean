import JourneyPlanner.CostLimit
import JourneyPlanner.Proofs.Digits
import Mathlib.Data.List.Basic

/-!
# Cost limits and their texts

The plain text of a finite float consists of digits, points and minus signs, so no blank and no
plus sign occurs in it. A limit is read back from its text if its two parameters are.
-/

namespace JourneyPlanner

namespace Text

variable {front core back : List Char}

/-- Blanks in front are dropped. -/
theorem dropBlanks_append (hfront : ∀ c ∈ front, isBlank c = true) (rest : List Char) :
    dropBlanks (front ++ rest) = dropBlanks rest :=
  List.dropWhile_append_of_pos hfront

/-- A text that begins with no blank is kept. -/
theorem dropBlanks_of_head? (h : ∀ c ∈ core.head?, isBlank c = false) : dropBlanks core = core := by
  cases core with
  | nil => rfl
  | cons c core => exact Decimal.dropBlanks_cons (h c rfl) core

/-- A text that neither begins nor ends with a blank is what remains of it between blanks. -/
theorem trim_between (hne : core ≠ []) (hfront : ∀ c ∈ front, isBlank c = true)
    (hback : ∀ c ∈ back, isBlank c = true) (hfirst : ∀ c ∈ core.head?, isBlank c = false)
    (hlast : ∀ c ∈ core.getLast?, isBlank c = false) : trim (front ++ (core ++ back)) = core := by
  have hkept : dropBlanks (core ++ back) = core ++ back := by
    refine dropBlanks_of_head? fun c hc => hfirst c ?_
    rwa [List.head?_append_of_ne_nil core hne] at hc
  have hreversed : dropBlanks core.reverse = core.reverse := by
    refine dropBlanks_of_head? fun c hc => hlast c ?_
    rwa [List.head?_reverse] at hc
  have hblanks : ∀ c ∈ back.reverse, isBlank c = true := fun c hc =>
    hback c (List.mem_reverse.1 hc)
  rw [trim, dropBlanks_append hfront, hkept, List.reverse_append, dropBlanks_append hblanks,
    hreversed, List.reverse_reverse]

end Text

namespace Decimal

/-- Digits, points and minus signs only. -/
def IsPlain (text : String) : Prop :=
  ∀ c ∈ text.toList, c.isDigit = true ∨ c = '.' ∨ c = '-'

instance (text : String) : Decidable (IsPlain text) :=
  List.decidableBAll _ text.toList

variable {first second text : String}

/-- Plain texts one after the other are plain. -/
theorem IsPlain.append (hfirst : IsPlain first) (hsecond : IsPlain second) :
    IsPlain (first ++ second) := by
  intro c hc
  rw [String.toList_append, List.mem_append] at hc
  rcases hc with hc | hc
  · exact hfirst c hc
  · exact hsecond c hc

/-- Digits are plain. -/
theorem isPlain_ofList {digits : List Char} (h : ∀ c ∈ digits, c.isDigit = true) :
    IsPlain (String.ofList digits) := by
  intro c hc
  rw [String.toList_ofList] at hc
  exact Or.inl (h c hc)

/-- Zeros are digits. -/
theorem isPlain_zeros (count : Nat) : IsPlain (zeros count) := by
  refine isPlain_ofList fun c hc => ?_
  obtain rfl := List.eq_of_mem_replicate hc
  decide

/-- A point among digits, with zeros where there are too few of them, is plain. -/
theorem isPlain_withPoint {digits : String} (hdigits : ∀ c ∈ digits.toList, c.isDigit = true)
    (whole : Int) : IsPlain (withPoint .plain digits whole) := by
  have hall : IsPlain digits := fun c hc => Or.inl (hdigits c hc)
  unfold withPoint
  split
  · refine (IsPlain.append ?_ (isPlain_zeros _)).append hall
    decide
  · split
    · refine (hall.append (isPlain_zeros _)).append ?_
      decide
    · refine (IsPlain.append ?_ ?_).append ?_
      · exact isPlain_ofList fun c hc => hdigits c (List.mem_of_mem_take hc)
      · decide
      · exact isPlain_ofList fun c hc => hdigits c (List.mem_of_mem_drop hc)

/-- A decimal that is spelled plainly never has a power of ten. -/
theorem isPlain_text (s : Scaled) : IsPlain (s.text .plain) := by
  unfold Scaled.text
  split
  · decide
  · refine isPlain_withPoint (fun c hc => ?_) _
    rw [Nat.toString_eq_repr, Nat.repr_eq_ofList_toDigits, String.toList_ofList] at hc
    exact Nat.isDigit_of_mem_toDigits (by decide) (by decide) hc

/-- The plain text of a finite float is plain. -/
theorem isPlain_plainText {x : Float} (h : isFinite x = true) : IsPlain (plainText x) := by
  obtain ⟨b, hb⟩ := Option.isSome_iff_exists.1 h
  rw [plainText, floatText, hb]
  refine IsPlain.append ?_ (isPlain_text _)
  cases b.negative <;> decide

/-- No blank occurs in a plain text. -/
theorem IsPlain.isBlank (h : IsPlain text) : ∀ c ∈ text.toList, Text.isBlank c = false := by
  intro c hc
  rcases h c hc with hdigit | rfl | rfl
  · exact isBlank_of_isDigit hdigit
  · decide
  · decide

/-- Nor does a plus sign. -/
theorem IsPlain.ne_plus (h : IsPlain text) : ∀ c ∈ text.toList, c ≠ '+' := by
  rintro c hc rfl
  rcases h '+' hc with hplus | hplus | hplus <;> exact absurd hplus (by decide)

/-- A float is read back from its plain text. -/
def ReadsBack (x : Float) : Prop :=
  readFloat? (plainText x).toList = some x

instance (x : Float) : Decidable (ReadsBack x) :=
  inferInstanceAs (Decidable (_ = _))

/-- Nothing is read from no text. -/
theorem ReadsBack.ne_nil {x : Float} (h : ReadsBack x) : (plainText x).toList ≠ [] := by
  intro hnil
  rw [ReadsBack, hnil] at h
  exact absurd h (by simp [show readFloat? [] = none by decide +kernel])

end Decimal

namespace CostLimit

open Decimal Text

variable {first second : List Char}

/-- A text is split where its first plus sign stands. -/
theorem splitAtPlus?_append (h : ∀ c ∈ first, c ≠ '+') (after : List Char) :
    splitAtPlus? (first ++ '+' :: after) = some (first, after) := by
  have hkept : ∀ c ∈ first, decide (c ≠ '+') = true := fun c hc => decide_eq_true (h c hc)
  rw [splitAtPlus?, List.dropWhile_append_of_pos hkept, List.takeWhile_append_of_pos hkept]
  simp

/-- The letter behind a number is taken off it. -/
theorem dropVariable?_number (hne : second ≠ []) (hblank : ∀ c ∈ second, isBlank c = false) :
    dropVariable? (' ' :: (second ++ [' ', 'x'])) = some second := by
  have hspace : ∀ c ∈ [' '], isBlank c = true := List.forall_mem_singleton.2 (by decide)
  have hfirst : ∀ c ∈ second.head?, isBlank c = false := fun c hc =>
    hblank c (List.mem_of_mem_head? hc)
  have hlast : ∀ c ∈ second.getLast?, isBlank c = false := fun c hc =>
    hblank c (List.mem_of_mem_getLast? hc)
  have houter : trim (' ' :: (second ++ [' ', 'x'])) = second ++ [' ', 'x'] := by
    have htrim := @trim_between [' '] (second ++ [' ', 'x']) [] (by simp) hspace (by simp)
      (by rwa [List.head?_append_of_ne_nil second hne]) (by simp; decide)
    rwa [List.append_nil] at htrim
  have hinner : trim (second ++ [' ']) = second :=
    @trim_between [] second [' '] hne (by simp) hspace hfirst hlast
  rw [dropVariable?, houter, List.reverse_append]
  simp [hinner]

/-- Both parameters are finite. -/
structure IsFinite (f : CostLimit) : Prop where
  /-- The constant is. -/
  constant : Decimal.isFinite f.constant = true
  /-- The coefficient is. -/
  coefficient : Decimal.isFinite f.coefficient = true

/-- Both parameters are read back from their texts. -/
structure ReadsBack (f : CostLimit) : Prop where
  /-- The constant is. -/
  constant : Decimal.ReadsBack f.constant
  /-- The coefficient is. -/
  coefficient : Decimal.ReadsBack f.coefficient

variable {f : CostLimit}

/-- The parameters are found in the text of a limit, on either side of the plus sign. -/
theorem readParameters?_text (hfinite : f.IsFinite) (hreads : f.ReadsBack) :
    readParameters? f.text.toList = some (f.constant, f.coefficient) := by
  have hplain := isPlain_plainText hfinite.constant
  have hblank := (isPlain_plainText hfinite.coefficient).isBlank
  have htext : f.text.toList = ((plainText f.constant).toList ++ [' ']) ++
      '+' :: (' ' :: ((plainText f.coefficient).toList ++ [' ', 'x'])) := by
    simp [text, show " + ".toList = [' ', '+', ' '] from rfl, show " x".toList = [' ', 'x'] from rfl]
  have hplus : ∀ c ∈ (plainText f.constant).toList ++ [' '], c ≠ '+' := by
    intro c hc
    rcases List.mem_append.1 hc with hc | hc
    · exact hplain.ne_plus c hc
    · obtain rfl := List.mem_singleton.1 hc
      decide
  have htrim : trim ((plainText f.constant).toList ++ [' ']) = (plainText f.constant).toList :=
    @trim_between [] _ [' '] hreads.constant.ne_nil (by simp)
      (List.forall_mem_singleton.2 (by decide))
      (fun c hc => hplain.isBlank c (List.mem_of_mem_head? hc))
      (fun c hc => hplain.isBlank c (List.mem_of_mem_getLast? hc))
  rw [readParameters?, htext, splitAtPlus?_append hplus]
  simp only [Option.bind_eq_bind, Option.bind_some]
  rw [dropVariable?_number hreads.coefficient.ne_nil hblank, htrim, hreads.constant,
    Option.bind_some, Option.bind_some, hreads.coefficient, Option.bind_some]

/-- A limit with finite parameters is read back from its text if they are from theirs. -/
theorem ofText_text (hfinite : f.IsFinite) (hreads : f.ReadsBack) : ofText f.text = .ok f := by
  rw [ofText, readParameters?_text hfinite hreads]
  exact if_pos (by rw [hfinite.constant, hfinite.coefficient]; rfl)

/-- A limit that is made of two numbers has finite parameters. -/
theorem isFinite_of_of {constant coefficient : Float} (h : of constant coefficient = .ok f) :
    f.IsFinite := by
  unfold of at h
  split at h
  · rename_i hfinite
    cases h
    obtain ⟨hconstant, hcoefficient⟩ := Bool.and_eq_true_iff.1 hfinite
    exact ⟨hconstant, hcoefficient⟩
  · cases h

/-- So has one that is read. -/
theorem isFinite_of_ofText {written : String} (h : ofText written = .ok f) : f.IsFinite := by
  unfold ofText at h
  split at h
  · cases h
  · exact isFinite_of_of h

end CostLimit

end JourneyPlanner
