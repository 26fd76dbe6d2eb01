import JourneyPlanner.Journey.Error

/-!
# Settings

What the operator of the planner sets: the waits at waypoints, the window of
searches and the most itineraries of one search. Settings out of range are
reported before any search; where one is used nevertheless, the nearest value
in range is.
-/

namespace JourneyPlanner.Journey

open Json

/-- What an operator sets. -/
structure Settings where
  /-- The longest wait at a waypoint, in minutes. -/
  maxWait : Int
  /-- The shortest wait at a waypoint that does not set one, in minutes. -/
  transferSlack : Int
  /-- The window of a search whose request sets none, in minutes. -/
  defaultWindow : Option Int
  /-- The most itineraries of one search. -/
  maxItineraries : Nat
  deriving DecidableEq

namespace Settings

/-- The longest wait or window, in minutes: one day. -/
def longestWindow : Int := 1440

/-- The settings of an operator who sets nothing. -/
def default : Settings :=
  ⟨180, 0, none, 200⟩

/-- Refuses a number of minutes below zero or above the highest one allowed. -/
def checkMinutes (name : String) (highest minutes : Int) : Except SearchError Unit :=
  if 0 ≤ minutes ∧ minutes ≤ highest then .ok () else .error (.settings name minutes)

/-- Checks every setting; the first that is refused counts. -/
def check (settings : Settings) : Except SearchError Unit := do
  checkMinutes "max_wait_mins" longestWindow settings.maxWait
  checkMinutes "transfer_slack_mins" settings.maxWait settings.transferSlack
  match settings.defaultWindow with
  | none => .ok ()
  | some minutes => checkMinutes "default_search_window_mins" longestWindow minutes

/-- The span of the nearest number of minutes in range. -/
def clampedMinutes (minutes : Int) : Int :=
  Span.minutes (max 0 (min minutes longestWindow))

/-- The longest wait at a waypoint. -/
def maxWaitSpan (settings : Settings) : Int :=
  clampedMinutes settings.maxWait

/-- The shortest wait at a waypoint that does not set one. -/
def transferSlackSpan (settings : Settings) : Int :=
  clampedMinutes settings.transferSlack

/-- The window of a search whose request sets none. -/
def defaultWindowSpan (settings : Settings) : Option Int :=
  settings.defaultWindow.map clampedMinutes

/-- Reads settings; members that are not there have their default. -/
def ofJson : Decoder Settings :=
  record
    ["max_wait_mins", "transfer_slack_mins", "default_search_window_mins",
      "max_number_of_itineraries"]
    (Settings.mk <$> withDefault "max_wait_mins" int64 default.maxWait <*>
      withDefault "transfer_slack_mins" int64 default.transferSlack <*>
      withDefault "default_search_window_mins" (nullable int64) default.defaultWindow <*>
      withDefault "max_number_of_itineraries" count64 default.maxItineraries)

end Settings

end JourneyPlanner.Journey
