import JourneyPlanner.Place
import Mathlib.Tactic.SplitIfs

/-!
# Floats that are numbers

A float whose exponent is not all ones is zero or a finite number: its difference from itself
is zero. A float that lies between two numbers is such a number, so the latitude and the
longitude of a position are, and each position is the same location as itself. Two numbers can
be compared, so one that is not less than another is at least the other.
-/

namespace JourneyPlanner

namespace Decimal

open Float.Model (Format UnpackedFloat)
open Float.Model.UnpackedFloat

/-- A float is finite exactly if its exponent is not all ones. -/
theorem isFinite_iff {x : Float} : isFinite x = true ↔
    @unpackExponent Format.binary64 x.toModel.toBits.toBitVec ≠ -1 := by
  have hexponent : (@unpackExponent Format.binary64 x.toModel.toBits.toBitVec).toNat =
      x.toBits.toNat / Nat.pow 2 52 % Nat.pow 2 11 := by
    simp [unpackExponent, Nat.shiftRight_eq_div_pow]
    rfl
  rw [Ne, ← BitVec.toNat_inj, hexponent]
  unfold isFinite BinaryValue.ofFloat?
  dsimp only
  split_ifs with hfull hzero
  · simpa using hfull
  · simpa using hfull
  · simpa using hfull

/-- Neither zero nor a finite number. -/
def Unbounded : UnpackedFloat → Prop
  | .notANumber => True
  | .infinity _ => True
  | _ => False

/-- A float is finite exactly if it is read as zero or a finite number. -/
theorem isFinite_iff_unpack {x : Float} : isFinite x = true ↔ ¬Unbounded x.toModel.unpack := by
  rw [isFinite_iff]
  unfold Float.Model.unpack UnpackedFloat.unpack
  generalize x.toModel.toBits.toBitVec = bits
  dsimp only
  by_cases hfull : @unpackExponent Format.binary64 bits = -.ofNat _ 1
  · rw [if_pos hfull]
    by_cases hzero : @unpackMantissa Format.binary64 bits = .ofNat _ 0
    · rw [if_pos hzero]
      exact iff_of_false (absurd hfull) (absurd trivial)
    · rw [if_neg hzero]
      exact iff_of_false (absurd hfull) (absurd trivial)
  · rw [if_neg hfull]
    by_cases hsmall : @unpackExponent Format.binary64 bits = .ofNat _ 0
    · rw [if_pos hsmall]
      by_cases hzero : @unpackMantissa Format.binary64 bits = .ofNat _ 0
      · rw [dif_pos hzero]
        exact iff_of_true hfull id
      · rw [dif_neg hzero]
        exact iff_of_true hfull id
    · rw [if_neg hsmall]
      exact iff_of_true hfull id

/-- What lies between two finite floats is finite. -/
theorem isFinite_of_between {lower x upper : Float} (hlower : isFinite lower = true)
    (hupper : isFinite upper = true) (hle : lower ≤ x) (hge : x ≤ upper) : isFinite x = true := by
  rw [isFinite_iff_unpack] at hlower hupper ⊢
  have hle : lower.toModel.unpack.le x.toModel.unpack = true := of_decide_eq_true hle
  have hge : x.toModel.unpack.le upper.toModel.unpack = true := of_decide_eq_true hge
  generalize lower.toModel.unpack = l at *
  generalize x.toModel.unpack = v at *
  generalize upper.toModel.unpack = u at *
  cases v with
  | notANumber =>
    cases l <;> cases hle
  | infinity sign =>
    -- Nothing finite lies below the one infinity, nothing above the other.
    cases sign with
    | negative => cases l <;> first | cases hle | exact absurd trivial hlower
    | positive => cases u <;> first | cases hge | exact absurd trivial hupper
  | zero sign => exact id
  | finite sign digits exponent hpos => exact id

/-- A finite number has no distance from itself. -/
theorem sub_self_of_isFinite {x : Float} (h : isFinite x = true) : x - x = 0.0 := by
  rw [isFinite_iff_unpack] at h
  have hzero : UnpackedFloat.sub Format.binary64 x.toModel.unpack x.toModel.unpack =
      .zero .positive := by
    cases hx : x.toModel.unpack with
    | zero sign => cases sign <;> rfl
    | finite sign digits exponent hpos =>
      unfold UnpackedFloat.sub
      dsimp only
      rw [Int.sub_self]
      rfl
    | _ =>
      rw [hx] at h
      exact absurd trivial h
  have hmodel : x.toModel - x.toModel = (0.0 : Float).toModel := congrArg Float.Model.pack hzero
  exact congrArg Float.ofModel hmodel

/-- Compared the other way around, floats come out the other way around. -/
theorem compare_swap (x y : UnpackedFloat) :
    y.compare x = (x.compare y).map Ordering.swap := by
  have hsize : ∀ (e e' : Int) (m m' : Nat), (compare e' e).then (compare m' m) =
      ((compare e e').then (compare m m')).swap := by
    intro e e' m m'
    rw [Ordering.swap_then, ← Std.OrientedCmp.eq_swap, ← Std.OrientedCmp.eq_swap]
  -- Only two numbers of the same sign are compared by their sizes.
  rcases x with (_ | _) | _ | _ | ⟨_ | _, m, e, hpos⟩ <;>
    rcases y with (_ | _) | _ | _ | ⟨_ | _, m', e', hpos'⟩ <;>
    first
    | rfl
    | exact congrArg some (hsize e e' m m')
    | exact congrArg (fun order => some (Ordering.swap order)) (hsize e e' m m')

/-- Finite floats can be compared. -/
theorem compare_ne_none {x y : UnpackedFloat} (hx : ¬Unbounded x) (hy : ¬Unbounded y) :
    x.compare y ≠ none := by
  rcases x with _ | _ | _ | ⟨_ | _, m, e, hpos⟩ <;>
    rcases y with _ | _ | _ | ⟨_ | _, m', e', hpos'⟩ <;>
    first
    | exact absurd trivial hx
    | exact absurd trivial hy
    | exact Option.some_ne_none _

/-- Of two finite floats, the one that is not less is at least the other. -/
theorem le_of_not_lt {a b : Float} (ha : isFinite a = true) (hb : isFinite b = true)
    (hnot : ¬a < b) : b ≤ a := by
  rw [isFinite_iff_unpack] at ha hb
  have hnot : ¬((a.toModel.unpack.compare b.toModel.unpack == some .lt) = true) :=
    fun hlt => hnot (decide_eq_true hlt)
  suffices hle : (b.toModel.unpack.compare a.toModel.unpack).any (·.isLE) = true from
    decide_eq_true hle
  rw [compare_swap]
  cases hcompare : a.toModel.unpack.compare b.toModel.unpack with
  | none => exact absurd hcompare (compare_ne_none ha hb)
  | some order =>
    rw [hcompare] at hnot
    cases order with
    | lt => exact absurd rfl hnot
    | eq => rfl
    | gt => rfl

end Decimal

namespace Coordinate

/-- The latitude and the longitude of a position are finite. -/
theorem isFinite (a : Coordinate) :
    Decimal.isFinite a.lat = true ∧ Decimal.isFinite a.lon = true := by
  obtain ⟨lat, lon, hrange⟩ := a
  simp only [coordinateInRange, Bool.and_eq_true, decide_eq_true_eq] at hrange
  obtain ⟨⟨⟨hsouth, hnorth⟩, hwest⟩, heast⟩ := hrange
  exact ⟨Decimal.isFinite_of_between (by decide +kernel) (by decide +kernel) hsouth hnorth,
    Decimal.isFinite_of_between (by decide +kernel) (by decide +kernel) hwest heast⟩

/-- A position is the same as itself. -/
theorem sameLocation_self (a : Coordinate) : a.sameLocation a = true := by
  obtain ⟨hlat, hlon⟩ := a.isFinite
  rw [sameLocation, Decimal.sub_self_of_isFinite hlat, Decimal.sub_self_of_isFinite hlon]
  decide +kernel

end Coordinate

/-- A place with a stop or a position is the same location as itself. -/
theorem Place.sameLocation_self {a : Place} (h : a.stop ≠ none ∨ a.coordinate ≠ none) :
    a.sameLocation a = true := by
  obtain ⟨name, stop, coordinate⟩ := a
  cases coordinate with
  | some position =>
    exact Bool.or_eq_true_iff.2 (Or.inl position.sameLocation_self)
  | none =>
    cases stop with
    | some stop => exact Bool.or_eq_true_iff.2 (Or.inr (decide_eq_true rfl))
    | none => simp at h

end JourneyPlanner
