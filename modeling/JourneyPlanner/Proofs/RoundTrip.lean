import JourneyPlanner.Itinerary.Json
import JourneyPlanner.Journey.Request
import JourneyPlanner.Proofs.LimitText
import JourneyPlanner.Proofs.WrittenParts
import JourneyPlanner.Selection.Options

/-!
# Writing and reading

Itineraries, legs, requests and options are read back from what they are written as. What has to
hold of them for this is what their construction and their reading see to: times in order, a sum
of costs and whole numbers that fit their words; the lengths, heights and shares have to be
finite. To the order of times nothing sees when a leg is moved, so one that is moved out of an
inserted second may be refused when it is read. Of a cost limit in a text, the two floats have to
be read back from their own texts.
-/

namespace JourneyPlanner

open Json

/-- Costs that fit have a sum that does. -/
theorem fitsWord_of_sumCostsFrom {start total : Int} {costs : List Int}
    (hstart : fitsWord start = true) (hok : sumCostsFrom start costs = .ok total) :
    fitsWord total = true := by
  induction costs generalizing start with
  | nil =>
    cases hok
    exact hstart
  | cons cost rest ih =>
    rw [sumCostsFrom] at hok
    split at hok
    · rename_i hfits
      exact ih hfits hok
    · cases hok

/-! ### Itineraries -/

namespace Itinerary

/-- What constructing or reading an itinerary sees to. -/
structure Sound (it : Itinerary) : Prop where
  /-- No leg ends before it starts, and the cost of each is a number of 64 bits. -/
  legs : ∀ leg ∈ it.legs, leg.Sound
  /-- The costs of the legs have a sum. -/
  summed : ∃ total, sumCosts (it.legs.map Leg.cost) = .ok total
  /-- The cost is a number of 64 bits. -/
  cost : fitsWord it.cost = true

/-- All lengths and heights are finite. -/
structure IsFinite (it : Itinerary) : Prop where
  /-- The length of each leg is. -/
  legs : ∀ leg ∈ it.legs, Decimal.isFinite leg.distance = true
  /-- The metres climbed are. -/
  climb : Decimal.isFinite it.climb = true
  /-- The metres descended are. -/
  descent : Decimal.isFinite it.descent = true

variable {it : Itinerary} {legs : List Leg}

/-- Legs come to an itinerary again after its further fields have been set. -/
theorem Sound.exists_ofLegs (h : it.Sound) : ∃ plain, ofLegs it.legs = .ok plain ∧
    it =
      { plain with
        cost := it.cost, climb := it.climb, descent := it.descent,
        limitExceeded := it.limitExceeded, tooSloped := it.tooSloped } := by
  obtain ⟨total, hsum⟩ := h.summed
  exact ⟨_, ofLegs_eq_ok_iff.2 ⟨total, it.legs_ne_nil, it.chained, hsum, rfl⟩, rfl⟩

/-- An itinerary is made of the members it is written as. -/
theorem ofMembers_eq_ok (h : it.Sound) :
    ofMembers it.legs (some it.cost) it.climb it.descent it.limitExceeded it.tooSloped =
      .ok it := by
  obtain ⟨plain, hplain, hit⟩ := h.exists_ofLegs
  rw [ofMembers, hplain]
  exact congrArg Except.ok hit.symm

/-- An itinerary is read back, whatever members of other names stand behind its own. -/
theorem Sound.ofJson_members (h : it.Sound) (hfinite : it.IsFinite) {behind : Members}
    (hbehind : ∀ name ∈ memberNames, valuesOf name behind = []) :
    ofJson (.obj (it.members ++ behind)) = .ok it := by
  have hlegs := list_arr_map fun leg hleg => (h.legs leg hleg).ofJson_toJson (hfinite.legs leg hleg)
  have hcost : nullable int64 (.int it.cost) = .ok (some it.cost) :=
    nullable_eq_ok Json.noConfusion (int64_int h.cost)
  -- No name of a member comes again behind them, so each is still found once.
  have hvalue {name : String} {value : Json} (hname : name ∈ memberNames)
      (hown : valuesOf name it.members = [value]) :
      valuesOf name (it.members ++ behind) = [value] := by
    rw [valuesOf_append, hown, hbehind name hname, List.append_nil]
  refine checked_id_eq_ok (record_obj ?_) (ofMembers_eq_ok h)
  refine .seq ?_ (takes_member (hvalue ?_ ?_) (boolean_bool it.tooSloped))
  refine .seq ?_ (takes_member (hvalue ?_ ?_) (boolean_bool it.limitExceeded))
  refine .seq ?_ (takes_member (hvalue ?_ ?_) (number_ofFloat hfinite.descent))
  refine .seq ?_ (takes_member (hvalue ?_ ?_) (number_ofFloat hfinite.climb))
  refine .seq ?_ (takes_member (hvalue ?_ ?_) hcost)
  refine .map (takes_member (hvalue ?_ ?_) hlegs) ofMembers
  all_goals simp [memberNames, members]

/-- An itinerary of sound legs is sound. -/
theorem sound_of_ofLegs (hlegs : ∀ leg ∈ legs, leg.Sound) (h : ofLegs legs = .ok it) :
    it.Sound := by
  obtain ⟨total, hne, hchained, hsum, rfl⟩ := ofLegs_eq_ok_iff.1 h
  exact ⟨hlegs, ⟨total, hsum⟩, fitsWord_of_sumCostsFrom (by decide) hsum⟩

/-- A sound itinerary stays so whatever its further fields are set to, if its cost fits. -/
theorem Sound.set (h : it.Sound) {cost : Int} (hcost : fitsWord cost = true)
    (climb descent : Float) (limitExceeded tooSloped : Bool) :
    Sound
      { it with
        cost := cost, climb := climb, descent := descent, limitExceeded := limitExceeded,
        tooSloped := tooSloped } :=
  ⟨h.legs, h.summed, hcost⟩

/-- An itinerary that is read is sound. -/
theorem gives_ofJson : Gives ofJson Sound := by
  refine gives_checked_id (gives_record ?_)
  refine .seq_any fun tooSloped => .seq_any fun limitExceeded => .seq_any fun descent => ?_
  refine .seq_any fun climb => .seq ?_ (gives_optional gives_int64)
  refine .map (gives_required (gives_list Leg.gives_ofJson)) fun legs hlegs cost hcost it h => ?_
  obtain ⟨plain, hplain, rfl⟩ := map_eq_ok_iff.1 h
  have hsound := sound_of_ofLegs hlegs (ok_of_mapError hplain)
  refine hsound.set ?_ climb descent limitExceeded tooSloped
  cases cost with
  | none => exact hsound.cost
  | some own => exact hcost own rfl

end Itinerary

/-- The itinerary of a candidate is read back; neither its identity nor its notices are. -/
theorem Candidate.ofJson_toJson {c : Candidate} (h : c.toItinerary.Sound)
    (hfinite : c.toItinerary.IsFinite) : Itinerary.ofJson c.toJson = .ok c.toItinerary := by
  refine h.ofJson_members hfinite fun name hname => ?_
  have hother : "system_notices" ≠ name := by
    rintro rfl
    exact absurd hname (by decide)
  split
  · rfl
  · simp [hother]

/-! ### Requests -/

namespace Journey.Request

variable {request : Request}

/-- The numbers of a request fit the words they are read into. -/
structure Fits (request : Request) : Prop where
  /-- The waits at every waypoint do. -/
  waypoints : ∀ waypoint ∈ request.waypoints, waypoint.Fits
  /-- The search window does. -/
  window : ∀ minutes ∈ request.window, fitsWord minutes = true
  /-- The number of itineraries does. -/
  wanted : FitsHalf request.wanted

/-- A request is read back. -/
theorem Fits.ofJson_toJson (h : request.Fits) : ofJson request.toJson = .ok request := by
  have hwaypoints := list_arr_map fun waypoint hwaypoint =>
    Waypoint.ofJson_toJson (h.waypoints waypoint hwaypoint)
  refine record_obj (a := Request.mk request.origin request.destination request.waypoints
    request.time request.arriveBy request.window request.wanted request.modes) ?_
  refine .seq ?_ (takes_member (by simp) request.modes.ofJson_toJson)
  refine .seq ?_ (takes_member (by simp) (int32_int h.wanted))
  refine .seq ?_ (takes_optional (by simp) (fun _ _ => Json.noConfusion) fun minutes hminutes =>
    int64_int (h.window minutes hminutes))
  refine .seq ?_ (takes_member (by simp) (boolean_bool request.arriveBy))
  refine .seq ?_ (takes_member (by simp) request.time.ofJson_toJson)
  refine .seq ?_ (takes_member (by simp) hwaypoints)
  refine .seq ?_ (takes_member (by simp) request.destination.ofJson_toJson)
  exact .map (takes_member (by simp) request.origin.ofJson_toJson) Request.mk

/-- The numbers of a request that is read fit. -/
theorem gives_ofJson : Gives ofJson Fits := by
  refine gives_record (.seq_any fun modes => .seq ?_ (gives_withDefault gives_int32 (by decide)))
  refine .seq ?_ (gives_optional gives_int64)
  refine .seq_any fun arriveBy => .seq_any fun time => ?_
  refine .seq ?_ (gives_withDefault (gives_list Waypoint.gives_ofJson) (by simp))
  refine .seq_any fun destination => .map_any fun origin => ?_
  intro waypoints hwaypoints window hwindow wanted hwanted
  exact ⟨hwaypoints, hwindow, hwanted⟩

end Journey.Request

/-! ### Options -/

namespace Selection.Options

variable {options : Options}

/-- What constructing or reading options sees to. -/
structure Sound (options : Options) : Prop where
  /-- The parameters of the limit on transit are finite. -/
  transitLimit : options.transitLimit.IsFinite
  /-- Those of the limit on the street are. -/
  streetOnlyLimit : options.streetOnlyLimit.IsFinite
  /-- The most itineraries are a number of 32 bits. -/
  maxItineraries : FitsHalf options.maxItineraries
  /-- The most street-only itineraries are. -/
  maxStreetOnly : FitsHalf options.maxStreetOnly

/-- The shares and the distance are finite. -/
structure IsFinite (options : Options) : Prop where
  /-- The share from which one itinerary is kept is. -/
  keepOneShare : Decimal.isFinite options.keepOneShare = true
  /-- The share from which a few are kept is. -/
  keepFewShare : Decimal.isFinite options.keepFewShare = true
  /-- The distance to cycle is. -/
  minCycling : ∀ distance ∈ options.minCycling, Decimal.isFinite distance = true

/-- The floats of both limits are read back from their texts. -/
structure LimitsReadBack (options : Options) : Prop where
  /-- Those of the limit on transit are. -/
  transitLimit : options.transitLimit.ReadsBack
  /-- Those of the limit on the street are. -/
  streetOnlyLimit : options.streetOnlyLimit.ReadsBack

/-- A limit is read back from its text. -/
theorem limitOfJson_limitToJson {limit : CostLimit} (hfinite : limit.IsFinite)
    (hreads : limit.ReadsBack) : limitOfJson (limitToJson limit) = .ok limit := by
  refine checked_eq_ok (string_str limit.text) ?_
  rw [CostLimit.ofText_text hfinite hreads]
  rfl

/-- Options are read back, also those that differ from their defaults. -/
theorem Sound.ofJson_toJson (h : options.Sound) (hfinite : options.IsFinite)
    (hreads : options.LimitsReadBack) : ofJson options.toJson = .ok options := by
  have htransit := limitOfJson_limitToJson h.transitLimit hreads.transitLimit
  have hstreet := limitOfJson_limitToJson h.streetOnlyLimit hreads.streetOnlyLimit
  refine record_obj (a := Options.mk options.keepOneShare options.keepFewShare
    options.transitLimit options.streetOnlyLimit options.maxItineraries options.maxStreetOnly
    options.boundByStreetOnly options.debug options.minCycling options.parkAndRide
    options.onDemand) ?_
  refine .seq ?_ (takes_member (by simp) (boolean_bool options.onDemand))
  refine .seq ?_ (takes_member (by simp) (boolean_bool options.parkAndRide))
  refine .seq ?_ (takes_optional (by simp)
    (fun distance hdistance => ofFloat_ne_null (hfinite.minCycling distance hdistance))
    fun distance hdistance => number_ofFloat (hfinite.minCycling distance hdistance))
  refine .seq ?_ (takes_member (by simp) (boolean_bool options.debug))
  refine .seq ?_ (takes_member (by simp) (boolean_bool options.boundByStreetOnly))
  refine .seq ?_ (takes_member (by simp) (int32_int h.maxStreetOnly))
  refine .seq ?_ (takes_member (by simp) (int32_int h.maxItineraries))
  refine .seq ?_ (takes_member (by simp) hstreet)
  refine .seq ?_ (takes_member (by simp) htransit)
  refine .seq ?_ (takes_member (by simp) (number_ofFloat hfinite.keepFewShare))
  exact .map (takes_member (by simp) (number_ofFloat hfinite.keepOneShare)) Options.mk

/-- A limit that is read has finite parameters. -/
theorem gives_limitOfJson : Gives limitOfJson CostLimit.IsFinite := by
  refine gives_checked (p := fun _ => True) (fun _ _ _ => trivial) fun text limit _ h => ?_
  exact CostLimit.isFinite_of_ofText (ok_of_mapError h)

/-- The limit that is used when none is set has, too. -/
theorem isFinite_defaultLimit : defaultLimit.IsFinite :=
  ⟨by decide +kernel, by decide +kernel⟩

/-- Options that are read are sound. -/
theorem gives_ofJson : Gives ofJson Sound := by
  refine gives_record (.seq_any fun onDemand => .seq_any fun parkAndRide => ?_)
  refine .seq_any fun minCycling => .seq_any fun debug => .seq_any fun boundByStreetOnly => ?_
  refine .seq ?_ (gives_withDefault gives_int32 (by decide))
  refine .seq ?_ (gives_withDefault gives_int32 (by decide))
  refine .seq ?_ (gives_withDefault gives_limitOfJson isFinite_defaultLimit)
  refine .seq ?_ (gives_withDefault gives_limitOfJson isFinite_defaultLimit)
  refine .seq_any fun keepFewShare => .map_any fun keepOneShare => ?_
  intro transitLimit htransit streetOnlyLimit hstreet maxItineraries hmax maxStreetOnly hstreetOnly
  exact ⟨htransit, hstreet, hmax, hstreetOnly⟩

end Selection.Options

/-! ### What constructors and readers make -/

/-- A leg that is constructed or read, whatever its further fields are set to and wherever it is
moved in time after that. Only some legs may be moved. -/
inductive Leg.Made (mayMove : Leg → Prop) : Leg → Prop
  /-- Constructed. -/
  | of {mode : Mode} {origin destination : Place} {start finish : Instant} {leg : Leg}
      (h : Leg.of mode origin destination start finish = .ok leg) : Made mayMove leg
  /-- Read. -/
  | read {json : Json} {leg : Leg} (h : Leg.ofJson json = .ok leg) : Made mayMove leg
  /-- With its further fields set. -/
  | set {leg : Leg} (h : Made mayMove leg) (distance : Float) {cost : Int}
      (hcost : fitsWord cost = true) (trip : Option String) (flexible walkingBike : Bool) :
      Made mayMove
        { leg with
          distance := distance, cost := cost, trip := trip, flexible := flexible,
          walkingBike := walkingBike }
  /-- Moved in time. -/
  | shift {leg moved : Leg} {span : Int} (h : Made mayMove leg) (hmay : mayMove leg)
      (hok : leg.shift span = .ok moved) : Made mayMove moved

namespace Leg.Made

variable {mayMove : Leg → Prop} {leg : Leg}

/-- The cost of a leg that is made is a number of 64 bits. -/
theorem cost (h : leg.Made mayMove) : fitsWord leg.cost = true := by
  induction h with
  | of h =>
    unfold Leg.of at h
    split at h
    · cases h
      exact (by decide : fitsWord 0 = true)
    · cases h
  | read h => exact (gives_ofJson _ _ h).cost
  | set _ _ hcost => exact hcost
  | shift _ _ hok ih =>
    obtain ⟨start, finish, -, -, rfl⟩ := shift_eq_ok_iff.1 hok
    exact ih

/-- No leg that is made ends before it starts, if none is moved that starts or ends in an inserted
second. -/
theorem start_le_finish (h : leg.Made mayMove) (hlinear : ∀ leg, mayMove leg → leg.Linear) :
    leg.start ≤ leg.finish := by
  induction h with
  | of h => exact start_le_finish_of_of h
  | read h => exact (gives_ofJson _ _ h).ordered
  | set _ _ _ _ _ _ ih => exact ih
  | shift _ hmay hok ih => exact (hlinear _ hmay).start_le_finish_of_shift ih hok

/-- A leg that is made is read back exactly if it does not end before it starts. -/
theorem ofJson_toJson_iff (h : leg.Made mayMove) (hdistance : Decimal.isFinite leg.distance = true) :
    ofJson leg.toJson = .ok leg ↔ leg.start ≤ leg.finish := by
  constructor
  · exact fun hread => (gives_ofJson _ _ hread).ordered
  · intro hordered
    have hsound : leg.Sound := ⟨hordered, h.cost⟩
    exact hsound.ofJson_toJson hdistance

end Leg.Made

/-- An itinerary of legs that are made or one that is read, whatever its further fields are set
to after that, a cost of its own included. -/
inductive Itinerary.Made (mayMove : Leg → Prop) : Itinerary → Prop
  /-- Constructed. -/
  | ofLegs {legs : List Leg} {it : Itinerary} (hlegs : ∀ leg ∈ legs, leg.Made mayMove)
      (h : Itinerary.ofLegs legs = .ok it) : Made mayMove it
  /-- Read. -/
  | read {json : Json} {it : Itinerary} (h : Itinerary.ofJson json = .ok it) : Made mayMove it
  /-- With its further fields set. -/
  | set {it : Itinerary} (h : Made mayMove it) {cost : Int} (hcost : fitsWord cost = true)
      (climb descent : Float) (limitExceeded tooSloped : Bool) :
      Made mayMove
        { it with
          cost := cost, climb := climb, descent := descent, limitExceeded := limitExceeded,
          tooSloped := tooSloped }

namespace Itinerary.Made

variable {mayMove : Leg → Prop} {it : Itinerary}

/-- An itinerary that is made is sound if none of its legs ends before it starts. -/
theorem sound (h : it.Made mayMove) (hforward : it.Forward) : it.Sound := by
  induction h with
  | ofLegs hlegs h =>
    rw [Forward, legs_of_ofLegs h] at hforward
    exact sound_of_ofLegs (fun leg hleg => ⟨hforward leg hleg, (hlegs leg hleg).cost⟩) h
  | read h => exact gives_ofJson _ _ h
  | set _ hcost climb descent limitExceeded tooSloped ih =>
    exact (ih hforward).set hcost climb descent limitExceeded tooSloped

/-- No leg of an itinerary that is made ends before it starts, if none is moved that starts or
ends in an inserted second. -/
theorem forward (h : it.Made mayMove) (hlinear : ∀ leg, mayMove leg → leg.Linear) :
    it.Forward := by
  induction h with
  | ofLegs hlegs h =>
    rw [Forward, legs_of_ofLegs h]
    exact fun leg hleg => (hlegs leg hleg).start_le_finish hlinear
  | read h => exact fun leg hleg => ((gives_ofJson _ _ h).legs leg hleg).ordered
  | set _ _ _ _ _ _ ih => exact ih

/-- An itinerary that is made is read back exactly if none of its legs ends before it starts. -/
theorem ofJson_toJson_iff {c : Candidate} (h : c.toItinerary.Made mayMove)
    (hfinite : c.toItinerary.IsFinite) :
    ofJson c.toJson = .ok c.toItinerary ↔ c.Forward := by
  constructor
  · exact fun hread leg hleg => ((gives_ofJson _ _ hread).legs leg hleg).ordered
  · exact fun hforward => Candidate.ofJson_toJson (h.sound hforward) hfinite

end Itinerary.Made

/-- A request whose numbers fit, or one that is read. -/
inductive Journey.Request.Made : Request → Prop
  /-- Constructed. -/
  | of {request : Request} (h : request.Fits) : Made request
  /-- Read. -/
  | read {json : Json} {request : Request} (h : Request.ofJson json = .ok request) : Made request

/-- The numbers of a request that is made fit. -/
theorem Journey.Request.Made.fits {request : Request} (h : request.Made) : request.Fits := by
  cases h with
  | of h => exact h
  | read h => exact gives_ofJson _ request h

/-- A cost limit that is made of two numbers or read from a text. -/
inductive CostLimit.Made : CostLimit → Prop
  /-- Constructed. -/
  | of {constant coefficient : Float} {limit : CostLimit}
      (h : CostLimit.of constant coefficient = .ok limit) : Made limit
  /-- Read. -/
  | ofText {text : String} {limit : CostLimit} (h : CostLimit.ofText text = .ok limit) : Made limit

/-- A limit that is made has finite parameters. -/
theorem CostLimit.Made.isFinite {limit : CostLimit} (h : limit.Made) : limit.IsFinite := by
  cases h with
  | of h => exact isFinite_of_of h
  | ofText h => exact isFinite_of_ofText h

/-- Options whose limits are made and whose counts fit, or options that are read. -/
inductive Selection.Options.Made : Options → Prop
  /-- Constructed. -/
  | of {options : Options} (htransit : options.transitLimit.Made)
      (hstreet : options.streetOnlyLimit.Made) (hitineraries : FitsHalf options.maxItineraries)
      (hstreetOnly : FitsHalf options.maxStreetOnly) : Made options
  /-- Read. -/
  | read {json : Json} {options : Options} (h : Options.ofJson json = .ok options) : Made options

/-- Options that are made are sound. -/
theorem Selection.Options.Made.sound {options : Options} (h : options.Made) : options.Sound := by
  cases h with
  | of htransit hstreet hitineraries hstreetOnly =>
    exact ⟨htransit.isFinite, hstreet.isFinite, hitineraries, hstreetOnly⟩
  | read h => exact gives_ofJson _ options h

/-! ### The whole format -/

/-- Whatever constructors and readers make is read back from what it is written as, if its
numbers are finite: legs with all their fields and itineraries but for identity and notices,
exactly if no leg ends before it starts, as none does unless it was moved out of an inserted
second; requests; and options of which the floats in the two limits are read back from their
texts. -/
theorem reading_inverts_writing (mayMove : Leg → Prop) :
    (∀ leg : Leg, leg.Made mayMove → Decimal.isFinite leg.distance = true →
      (Leg.ofJson leg.toJson = .ok leg ↔ leg.start ≤ leg.finish)) ∧
    (∀ c : Candidate, c.toItinerary.Made mayMove → c.toItinerary.IsFinite →
      (Itinerary.ofJson c.toJson = .ok c.toItinerary ↔ c.Forward)) ∧
    ((∀ leg, mayMove leg → leg.Linear) →
      (∀ leg : Leg, leg.Made mayMove → leg.start ≤ leg.finish) ∧
      ∀ it : Itinerary, it.Made mayMove → it.Forward) ∧
    (∀ request : Journey.Request, request.Made →
      Journey.Request.ofJson request.toJson = .ok request) ∧
    ∀ options : Selection.Options, options.Made → options.IsFinite → options.LimitsReadBack →
      Selection.Options.ofJson options.toJson = .ok options := by
  refine ⟨?_, ?_, ?_, ?_, ?_⟩
  · intro leg hmade hdistance
    exact hmade.ofJson_toJson_iff hdistance
  · intro c hmade hfinite
    exact hmade.ofJson_toJson_iff hfinite
  · intro hlinear
    exact ⟨fun leg hmade => hmade.start_le_finish hlinear, fun it hmade => hmade.forward hlinear⟩
  · intro request hmade
    exact hmade.fits.ofJson_toJson
  · intro options hmade hfinite hreads
    exact hmade.sound.ofJson_toJson hfinite hreads

/-- A ride on demand on a trip of its own, with a bicycle at hand. -/
private def rideAsPlanned : Leg :=
  { Leg.onDay .bus (.inRow 1) (.inRow 2) 480 510 with
    distance := 8250.5, cost := 1400, trip := some "on demand", flexible := true,
    walkingBike := true }

/-- The ride ten minutes later. -/
private def rideOnTrip : Leg :=
  { rideAsPlanned with start := .ofMinute 490, finish := .ofMinute 520 }

/-- A walk to that ride, dearer than its legs, with a notice on it. -/
private def walkToTrip : Candidate :=
  ({ Candidate.ofLegs 0 [.onDay .walk (.inRow 0) (.inRow 1) 480 490, rideOnTrip] (by decide)
        (by decide) with
      cost := 2600, climb := 12.25, descent := 3.5, limitExceeded := true }).mark
    ⟨"limit", "not shown"⟩

/-- A request for no journey on the street alone, with a wait of five minutes on the way. -/
private def overSecondStop : Journey.Request where
  origin := .ofPlace (.inRow 0)
  destination := .ofPlace (.inRow 2)
  waypoints := [⟨.ofPlace (.inRow 1), some 5, none⟩]
  time := .ofMinute 480
  arriveBy := true
  window := none
  wanted := 3
  modes := { ModeChoice.default with direct := none }

/-- Options with a limit of their own. -/
private def ownLimits : Selection.Options :=
  { Selection.Options.default with
    transitLimit := ⟨0.1, 2.5⟩, minCycling := some 250.0, maxItineraries := 12 }

/-- A ride that is moved by ten minutes, an itinerary with it, a request and options are made, and
all are read back. -/
theorem rideOnTrip_read_back :
    (rideOnTrip.Made Leg.Linear ∧ Leg.ofJson rideOnTrip.toJson = .ok rideOnTrip) ∧
    (walkToTrip.toItinerary.Made Leg.Linear ∧
      Itinerary.ofJson walkToTrip.toJson = .ok walkToTrip.toItinerary) ∧
    (overSecondStop.Made ∧ Journey.Request.ofJson overSecondStop.toJson = .ok overSecondStop) ∧
    ownLimits.Made ∧ ownLimits.LimitsReadBack ∧
      Selection.Options.ofJson ownLimits.toJson = .ok ownLimits := by
  have hplain (mode : Mode) (origin destination : Place) (start finish : Fin 1440)
      (h : Instant.ofMinute start ≤ Instant.ofMinute finish) :
      (Leg.onDay mode origin destination start finish).Made Leg.Linear := .of (if_pos h)
  have hride : rideOnTrip.Made Leg.Linear := by
    have hplanned : rideAsPlanned.Made Leg.Linear :=
      (hplain .bus (.inRow 1) (.inRow 2) 480 510 (by decide)).set 8250.5
        (by decide : fitsWord 1400 = true) (some "on demand") true true
    have hmoved : rideAsPlanned.shift (Span.minutes 10) = .ok rideOnTrip := rfl
    exact hplanned.shift (by decide) hmoved
  have hwalk : walkToTrip.toItinerary.Made Leg.Linear := by
    have hlegs : ∀ leg ∈ walkToTrip.legs, leg.Made Leg.Linear :=
      List.forall_mem_cons.2 ⟨hplain _ _ _ _ _ (by decide), List.forall_mem_singleton.2 hride⟩
    exact (Itinerary.Made.ofLegs hlegs rfl).set (by decide : fitsWord 2600 = true) 12.25 3.5 true
      false
  have hwaits : ∀ waypoint ∈ overSecondStop.waypoints, waypoint.Fits := fun waypoint hwaypoint =>
    ⟨by revert waypoint; decide, by revert waypoint; decide⟩
  have hrequest : overSecondStop.Made := .of ⟨hwaits, by decide, by decide⟩
  have hoptions : ownLimits.Made :=
    .of (.of (if_pos (by decide +kernel))) (.of (if_pos (by decide +kernel))) (by decide) (by decide)
  have hreads : ownLimits.LimitsReadBack :=
    ⟨⟨by decide +kernel, by decide +kernel⟩, ⟨by decide +kernel, by decide +kernel⟩⟩
  obtain ⟨hleg, hitinerary, hforward, hasked, hset⟩ := reading_inverts_writing Leg.Linear
  obtain ⟨hlegForward, hforward⟩ := hforward fun _ hlinear => hlinear
  refine ⟨⟨hride, (hleg _ hride (by decide +kernel)).2 (hlegForward _ hride)⟩,
    ⟨hwalk, (hitinerary _ hwalk ?_).2 (hforward _ hwalk)⟩,
    ⟨hrequest, hasked _ hrequest⟩, hoptions, hreads, hset _ hoptions ?_ hreads⟩
  · exact ⟨by decide +kernel, by decide +kernel, by decide +kernel⟩
  · exact ⟨by decide +kernel, by decide +kernel, by decide +kernel⟩

/-- A walk that ends in a second inserted at the end of a minute. -/
private def leapWalk : Leg :=
  { Leg.onDay .walk (.inRow 0) (.inRow 1) 480 480 with
    start := { Instant.ofMinute 480 with intoMinute := 59900000000, within := by decide }
    finish := { Instant.ofMinute 480 with intoMinute := 60100000000, within := by decide } }

/-- The walk ten minutes later, where no second is inserted. -/
private def movedWalk : Leg :=
  { Leg.onDay .walk (.inRow 0) (.inRow 1) 480 480 with
    start := { Instant.ofMinute 490 with intoMinute := 59900000000, within := by decide }
    finish := { Instant.ofMinute 490 with intoMinute := 59100000000, within := by decide } }

/-- A walk that is moved out of an inserted second ends before it starts: it is written, but
refused when it is read, on its own and in an itinerary. -/
theorem movedWalk_refused :
    (leapWalk.Made fun _ => True) ∧ leapWalk.shift (Span.minutes 10) = .ok movedWalk ∧
    ((movedWalk.Made fun _ => True) ∧ Decimal.isFinite movedWalk.distance = true ∧
      Leg.ofJson movedWalk.toJson ≠ .ok movedWalk) ∧
    ((Candidate.ofLeg 0 movedWalk).toItinerary.Made fun _ => True) ∧
      (Candidate.ofLeg 0 movedWalk).toItinerary.IsFinite ∧
      Itinerary.ofJson (Candidate.ofLeg 0 movedWalk).toJson ≠
        .ok (Candidate.ofLeg 0 movedWalk).toItinerary := by
  have hleap : leapWalk.Made fun _ => True := .of (if_pos (by decide))
  have hshift : leapWalk.shift (Span.minutes 10) = .ok movedWalk := by decide
  have hmoved : movedWalk.Made fun _ => True := hleap.shift trivial hshift
  have hcandidate : (Candidate.ofLeg 0 movedWalk).toItinerary.Made fun _ => True :=
    .ofLegs (List.forall_mem_singleton.2 hmoved) rfl
  have hfinite : (Candidate.ofLeg 0 movedWalk).toItinerary.IsFinite :=
    ⟨by decide +kernel, by decide +kernel, by decide +kernel⟩
  have hdistance : Decimal.isFinite movedWalk.distance = true := by decide +kernel
  refine ⟨hleap, hshift, ⟨hmoved, hdistance, ?_⟩, hcandidate, hfinite, ?_⟩
  · exact fun hread => absurd ((hmoved.ofJson_toJson_iff hdistance).1 hread) (by decide)
  · exact fun hread => absurd ((hcandidate.ofJson_toJson_iff hfinite).1 hread) (by decide)

end JourneyPlanner
