import JourneyPlanner.Journey.Waypoint
import JourneyPlanner.Leg.Json
import JourneyPlanner.Proofs.FiniteFloats
import JourneyPlanner.Proofs.InstantText
import JourneyPlanner.Proofs.LinearTime
import JourneyPlanner.Proofs.Records

/-!
# Parts of journeys, written and read

Modes, places, locations and instants are read back from what they are written as, whatever
they are. Waypoints and legs are if their numbers fit the words they are read into, the length
of a leg is finite and no leg ends before it starts; what is read is always of this kind.
-/

namespace JourneyPlanner

open Json

/-! ### Modes -/

/-- A mode is read back. -/
theorem Mode.ofJson_toJson (mode : Mode) : ofJson mode.toJson = .ok mode := by
  show (ofText? mode.text).elim _ _ = _
  rw [ofText?_text]
  rfl

/-- A choice of modes is read back; without a direct mode it is written with null for it, and
not left to the default. -/
theorem ModeChoice.ofJson_toJson (modes : ModeChoice) : ofJson modes.toJson = .ok modes := by
  have hdirect : nullable Mode.ofJson (ofOption Mode.toJson modes.direct) = .ok modes.direct :=
    nullable_ofOption (fun _ _ => Json.noConfusion) fun mode _ => mode.ofJson_toJson
  have htransit := list_arr_map fun mode (_ : mode ∈ modes.transit) => mode.ofJson_toJson
  refine record_obj (a := mk modes.access modes.egress modes.direct modes.transit) ?_
  refine .seq ?_ (takes_member (by simp) htransit)
  refine .seq ?_ (takes_member (by simp) hdirect)
  refine .seq ?_ (takes_member (by simp) modes.egress.ofJson_toJson)
  exact .map (takes_member (by simp) modes.access.ofJson_toJson) mk

/-! ### Places -/

/-- A stop is read back. -/
theorem StopId.ofJson_toJson (stop : StopId) : ofJson stop.toJson = .ok stop := by
  refine checked_eq_ok (string_str stop.text) ?_
  rw [StopId.of, dif_neg stop.nonempty]
  rfl

/-- A coordinate is read back, since its numbers are finite and lie in their ranges. -/
theorem Coordinate.ofJson_toJson (coordinate : Coordinate) :
    ofJson coordinate.toJson = .ok coordinate := by
  obtain ⟨hlat, hlon⟩ := coordinate.isFinite
  refine checked_eq_ok (record_obj (a := (coordinate.lat, coordinate.lon)) ?_) ?_
  · refine .seq ?_ (takes_member (by simp) (number_ofFloat hlon))
    exact .map (takes_member (by simp) (number_ofFloat hlat)) Prod.mk
  · dsimp only
    rw [Coordinate.of, dif_pos coordinate.inRange]
    rfl

section Located

variable {members : Members} {stop : Option StopId} {coordinate : Option Coordinate}

/-- The stop of a place or a location is taken. -/
theorem takes_stop (h : valuesOf "stop_id" members = (stop.map StopId.toJson).toList) :
    (optional "stop_id" StopId.ofJson).Takes members stop :=
  takes_optional h (fun _ _ => Json.noConfusion) fun stop _ => stop.ofJson_toJson

/-- Its position is taken. -/
theorem takes_coordinate
    (h : valuesOf "coordinate" members = (coordinate.map Coordinate.toJson).toList) :
    (optional "coordinate" Coordinate.ofJson).Takes members coordinate :=
  takes_optional h (fun _ _ => Json.noConfusion) fun coordinate _ => coordinate.ofJson_toJson

end Located

/-- A place is read back, with a stop or a position or without. -/
theorem Place.ofJson_toJson (place : Place) : ofJson place.toJson = .ok place := by
  refine record_obj (a := mk place.name place.stop place.coordinate) ?_
  refine .seq ?_ (takes_coordinate (by simp))
  refine .seq ?_ (takes_stop (by simp))
  exact .map (takes_member (by simp) (string_str place.name)) mk

/-- A location is read back, even one that says nothing. -/
theorem Location.ofJson_toJson (location : Location) : ofJson location.toJson = .ok location := by
  refine record_obj (a := mk location.label location.stop location.coordinate) ?_
  refine .seq ?_ (takes_coordinate (by simp))
  refine .seq ?_ (takes_stop (by simp))
  exact .map (takes_optional_string (by simp)) mk

/-! ### Instants -/

/-- An instant is read back. -/
theorem Instant.ofJson_toJson (instant : Instant) : ofJson instant.toJson = .ok instant := by
  refine checked_eq_ok (string_str instant.text) ?_
  rw [ofText?_text]
  rfl

/-! ### Waypoints -/

namespace Journey.Waypoint

/-- The waits of a waypoint are numbers of 64 bits. -/
structure Fits (waypoint : Waypoint) : Prop where
  /-- The shortest wait is. -/
  minWait : ∀ minutes ∈ waypoint.minWait, fitsWord minutes = true
  /-- The longest wait is. -/
  maxWait : ∀ minutes ∈ waypoint.maxWait, fitsWord minutes = true

/-- A waypoint is read back. -/
theorem ofJson_toJson {waypoint : Waypoint} (h : waypoint.Fits) :
    ofJson waypoint.toJson = .ok waypoint := by
  refine record_obj (a := mk waypoint.location waypoint.minWait waypoint.maxWait) ?_
  refine .seq ?_ (takes_optional (by simp) (fun _ _ => Json.noConfusion) fun minutes hminutes =>
    int64_int (h.maxWait minutes hminutes))
  refine .seq ?_ (takes_optional (by simp) (fun _ _ => Json.noConfusion) fun minutes hminutes =>
    int64_int (h.minWait minutes hminutes))
  exact .map (takes_member (by simp) waypoint.location.ofJson_toJson) mk

/-- The waits of a waypoint that is read fit. -/
theorem gives_ofJson : Gives ofJson Fits := by
  refine gives_record (.seq ?_ (gives_optional gives_int64))
  refine .seq ?_ (gives_optional gives_int64)
  exact .map_any fun location minWait hmin maxWait hmax => ⟨hmin, hmax⟩

end Journey.Waypoint

/-! ### Legs -/

namespace Leg

/-- What constructing or reading a leg sees to. -/
structure Sound (leg : Leg) : Prop where
  /-- It does not end before it starts. -/
  ordered : leg.start ≤ leg.finish
  /-- Its cost is a number of 64 bits. -/
  cost : fitsWord leg.cost = true

/-- A leg is made of the members it is written as. -/
theorem ofMembers_eq_ok {leg : Leg} (h : leg.start ≤ leg.finish) :
    ofMembers leg.mode leg.origin leg.destination leg.start leg.finish leg.distance leg.cost
      leg.trip leg.flexible leg.walkingBike = .ok leg := by
  rw [ofMembers, Leg.of, if_pos h]
  rfl

/-- A leg is read back if its length is finite. -/
theorem Sound.ofJson_toJson {leg : Leg} (h : leg.Sound)
    (hdistance : Decimal.isFinite leg.distance = true) : ofJson leg.toJson = .ok leg := by
  refine checked_id_eq_ok (record_obj ?_) (ofMembers_eq_ok h.ordered)
  -- The reader nests to the left, so the last field is the first to be taken off.
  refine .seq ?_ (takes_member (by simp) (boolean_bool leg.walkingBike))
  refine .seq ?_ (takes_member (by simp) (boolean_bool leg.flexible))
  refine .seq ?_ (takes_optional_string (by simp))
  refine .seq ?_ (takes_member (by simp) (int64_int h.cost))
  refine .seq ?_ (takes_member (by simp) (number_ofFloat hdistance))
  refine .seq ?_ (takes_member (by simp) leg.finish.ofJson_toJson)
  refine .seq ?_ (takes_member (by simp) leg.start.ofJson_toJson)
  refine .seq ?_ (takes_member (by simp) leg.destination.ofJson_toJson)
  refine .seq ?_ (takes_member (by simp) leg.origin.ofJson_toJson)
  exact .map (takes_member (by simp) leg.mode.ofJson_toJson) ofMembers

/-- A leg that is made of members has its cost, and its times are in order. -/
theorem sound_of_ofMembers {mode : Mode} {origin destination : Place} {start finish : Instant}
    {distance : Float} {cost : Int} {trip : Option String} {flexible walkingBike : Bool} {leg : Leg}
    (hcost : fitsWord cost = true)
    (h : ofMembers mode origin destination start finish distance cost trip flexible walkingBike =
      .ok leg) : leg.Sound := by
  obtain ⟨plain, hplain, rfl⟩ := map_eq_ok_iff.1 h
  have hordered : plain.start ≤ plain.finish := start_le_finish_of_of (ok_of_mapError hplain)
  exact ⟨hordered, hcost⟩

/-- A leg that is read is sound. -/
theorem gives_ofJson : Gives ofJson Sound := by
  refine gives_checked_id (gives_record ?_)
  refine .seq_any fun walkingBike => .seq_any fun flexible => .seq_any fun trip => ?_
  refine .seq ?_ (gives_withDefault gives_int64 (by decide))
  refine .seq_any fun distance => .seq_any fun finish => .seq_any fun start => ?_
  refine .seq_any fun destination => .seq_any fun origin => .map_any fun mode cost hcost leg h => ?_
  exact sound_of_ofMembers hcost h

end Leg

end JourneyPlanner
