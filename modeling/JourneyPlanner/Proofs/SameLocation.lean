import JourneyPlanner.Place
import Mathlib.Tactic.SplitIfs

/-!
# Places at one location

Whether two places are the same location does not depend on which of them is named first.
Stops are compared for equality. Positions are compared by the size of a rounded difference:
turning a difference around only turns its sign, since rounding looks at the digits alone.
-/

namespace JourneyPlanner

namespace Decimal

open Float.Model (Format UnpackedFloat)
open Float.Model.UnpackedFloat

/-- Digits and an exponent give the same size with either sign. -/
theorem abs_finite_congr {sign sign' : Sign} {digits digits' : Nat} {exponent exponent' : Int}
    {hpos : 0 < digits} {hpos' : 0 < digits'} (hdigits : digits = digits')
    (hexponent : exponent = exponent') :
    (UnpackedFloat.finite sign digits exponent hpos).abs =
      (UnpackedFloat.finite sign' digits' exponent' hpos').abs := by
  subst hdigits hexponent
  rfl

/-- Digits that may be zero give the same size with either sign. -/
theorem abs_ofDigits (sign sign' : Sign) (digits : Nat) (exponent : Int) :
    (if h : digits = 0 then .zero sign
        else .finite sign digits exponent (Nat.pos_of_ne_zero h) : UnpackedFloat).abs =
      (if h : digits = 0 then .zero sign'
        else .finite sign' digits exponent (Nat.pos_of_ne_zero h) : UnpackedFloat).abs := by
  by_cases hzero : digits = 0
  · rw [dif_pos hzero, dif_pos hzero]
    rfl
  · rw [dif_neg hzero, dif_neg hzero]
    rfl

/-- Rounding digits gives the same size with either sign. -/
theorem abs_round (spec : Format) (sign sign' : Sign) (mantissa : Nat) (exponent : Int) :
    (UnpackedFloat.round spec sign mantissa exponent).abs =
      (UnpackedFloat.round spec sign' mantissa exponent).abs := by
  unfold UnpackedFloat.round roundWithAccuracy
  exact abs_ofDigits sign sign' _ _

/-- A rounded number has the size of its opposite. -/
theorem abs_normalize_neg (spec : Format) (mantissa exponent : Int) (sign sign' : Sign) :
    (UnpackedFloat.normalize spec (-mantissa) exponent sign).abs =
      (UnpackedFloat.normalize spec mantissa exponent sign').abs := by
  unfold UnpackedFloat.normalize
  rcases Int.lt_trichotomy mantissa 0 with hneg | rfl | hpos
  · rw [Int.compare_eq_lt.2 hneg, Int.compare_eq_gt.2 (by omega : 0 < -mantissa)]
    exact abs_round spec _ _ _ exponent
  · rfl
  · rw [Int.compare_eq_gt.2 hpos, Int.compare_eq_lt.2 (by omega : -mantissa < 0)]
    dsimp only
    rw [Int.neg_neg]
    exact abs_round spec _ _ _ exponent

/-- A difference has the size of the difference the other way round. -/
theorem abs_sub_comm (spec : Format) (x y : UnpackedFloat) :
    (UnpackedFloat.sub spec x y).abs = (UnpackedFloat.sub spec y x).abs := by
  cases x with
  | notANumber => cases y <;> rfl
  | infinity s =>
    cases y with
    | infinity t => cases s <;> cases t <;> rfl
    | _ => rfl
  | zero s =>
    cases y with
    | zero t => cases s <;> cases t <;> rfl
    | _ => rfl
  | finite s m e hm =>
    cases y with
    | finite t n f hn =>
      unfold UnpackedFloat.sub
      dsimp only
      rw [Int.min_comm f e, ← Int.neg_sub]
      exact abs_normalize_neg spec _ _ _ _
    | _ => rfl

/-- What is read from a format has a size that depends on the digits and the exponent alone. -/
theorem abs_unpack_congr {spec : Format} {bits bits' : BitVec spec.numBits}
    (hdigits : unpackMantissa bits = unpackMantissa bits')
    (hexponent : unpackExponent bits = unpackExponent bits') :
    (unpack spec bits).abs = (unpack spec bits').abs := by
  have hdigits' (v) : unpackMantissa bits = v ↔ unpackMantissa bits' = v := by rw [hdigits]
  have hexponent' (v) : unpackExponent bits = v ↔ unpackExponent bits' = v := by rw [hexponent]
  unfold unpack
  dsimp only
  by_cases hfull : unpackExponent bits = -.ofNat _ 1
  · rw [if_pos hfull, if_pos ((hexponent' _).1 hfull)]
    by_cases hzero : unpackMantissa bits = .ofNat _ 0
    · rw [if_pos hzero, if_pos ((hdigits' _).1 hzero)]
      rfl
    · rw [if_neg hzero, if_neg (mt (hdigits' _).2 hzero)]
  · rw [if_neg hfull, if_neg (mt (hexponent' _).2 hfull)]
    by_cases hsmall : unpackExponent bits = .ofNat _ 0
    · rw [if_pos hsmall, if_pos ((hexponent' _).1 hsmall)]
      by_cases hzero : unpackMantissa bits = .ofNat _ 0
      · rw [dif_pos hzero, dif_pos ((hdigits' _).1 hzero)]
        rfl
      · rw [dif_neg hzero, dif_neg (mt (hdigits' _).2 hzero)]
        exact abs_finite_congr (by rw [hdigits]) (by rw [hexponent])
    · rw [if_neg hsmall, if_neg (mt (hexponent' _).2 hsmall)]
      exact abs_finite_congr (by rw [hdigits]) (by rw [hexponent])

/-- What is read from a format has a size that does not depend on the sign that was written. -/
theorem abs_unpack_packComponents (spec : Format) (sign sign' : Sign)
    (exponent : BitVec spec.exponentBits) (mantissa : BitVec spec.mantissaBitsWithoutImplicit) :
    (unpack spec (packComponents spec sign exponent mantissa)).abs =
      (unpack spec (packComponents spec sign' exponent mantissa)).abs :=
  abs_unpack_congr (by rw [unpackMantissa_packComponents, unpackMantissa_packComponents])
    (by rw [unpackExponent_packComponents, unpackExponent_packComponents])

/-- Numbers of one size have one size when they are read back from a format. -/
theorem abs_unpack_pack (spec : Format) {x y : UnpackedFloat} (h : x.abs = y.abs) :
    (unpack spec (pack spec x)).abs = (unpack spec (pack spec y)).abs := by
  cases x <;> cases y <;> cases h
  · exact abs_unpack_packComponents spec _ _ _ _
  · rfl
  · exact abs_unpack_packComponents spec _ _ _ _
  · unfold pack
    dsimp only
    split_ifs
    · exact abs_unpack_packComponents spec _ _ _ _
    · exact abs_unpack_packComponents spec _ _ _ _
    · exact abs_unpack_packComponents spec _ _ _ _

/-- The distance of two numbers does not depend on which of them is named first. -/
theorem distance_comm (a b : Float) : (a - b).abs = (b - a).abs := by
  have hsize := abs_unpack_pack Format.binary64
    (abs_sub_comm Format.binary64 a.toModel.unpack b.toModel.unpack)
  have hmodel : (a.toModel - b.toModel).abs = (b.toModel - a.toModel).abs :=
    congrArg Float.Model.pack hsize
  exact congrArg Float.ofModel hmodel

end Decimal

/-- Two positions are the same in either order. -/
theorem Coordinate.sameLocation_comm (a b : Coordinate) : a.sameLocation b = b.sameLocation a := by
  unfold sameLocation
  rw [Decimal.distance_comm a.lat, Decimal.distance_comm a.lon]

/-- Two places are the same location in either order. -/
theorem Place.sameLocation_comm (a b : Place) : a.sameLocation b = b.sameLocation a := by
  have hposition : sameCoordinate a.coordinate b.coordinate =
      sameCoordinate b.coordinate a.coordinate := by
    cases a.coordinate <;> cases b.coordinate
    case some.some position position' => exact position.sameLocation_comm position'
    all_goals rfl
  have hstop : sameStop a.stop b.stop = sameStop b.stop a.stop := by
    cases a.stop <;> cases b.stop
    case some.some stop stop' => exact decide_eq_decide.2 eq_comm
    all_goals rfl
  unfold sameLocation
  rw [hposition, hstop]

end JourneyPlanner
