import JourneyPlanner.Composition.Assembly
import JourneyPlanner.Itinerary.Json
import JourneyPlanner.Journey.Router
import JourneyPlanner.Json.Printer
import JourneyPlanner.Json.Reader
import JourneyPlanner.Main
import JourneyPlanner.Proofs.Bridges
import JourneyPlanner.Proofs.Bridging
import JourneyPlanner.Proofs.Choices
import JourneyPlanner.Proofs.Combinations
import JourneyPlanner.Proofs.Feasibility
import JourneyPlanner.Proofs.Flattening
import JourneyPlanner.Proofs.Growth
import JourneyPlanner.Proofs.Linked
import JourneyPlanner.Proofs.Placement
import JourneyPlanner.Proofs.RuleEffects
import JourneyPlanner.Proofs.Stepping
import JourneyPlanner.Proofs.Stretches
import JourneyPlanner.Proofs.Tagging
import JourneyPlanner.Proofs.BothDirections
import JourneyPlanner.Proofs.Waypoints
import JourneyPlanner.Scenario
import JourneyPlanner.Search.Json
import JourneyPlanner.Search.Replay
import JourneyPlanner.Selection.Options
import JourneyPlanner.Proofs.Guarantees
import JourneyPlanner.Proofs.Idempotence
import JourneyPlanner.Proofs.Mirror
import JourneyPlanner.Proofs.MirroredSequences
import JourneyPlanner.Proofs.RequestedTime
import JourneyPlanner.Proofs.Connections
import JourneyPlanner.Proofs.Ensured
import JourneyPlanner.Proofs.CandidateOrder
import JourneyPlanner.Proofs.Checks
import JourneyPlanner.Proofs.SameLocation
import JourneyPlanner.Proofs.Responses
import JourneyPlanner.Proofs.CountLimits
import JourneyPlanner.Proofs.FirstCut
import JourneyPlanner.Proofs.Multiplicity
import JourneyPlanner.Proofs.Repetitions
import JourneyPlanner.Proofs.Contents
import JourneyPlanner.Proofs.FiniteFloats
import JourneyPlanner.Proofs.PlaceOrder
import JourneyPlanner.Proofs.SameJourney
import JourneyPlanner.Proofs.Calendar
import JourneyPlanner.Proofs.Digits
import JourneyPlanner.Proofs.WindowGroups
import JourneyPlanner.Proofs.InstantText
import JourneyPlanner.Proofs.LimitText
import JourneyPlanner.Proofs.Records
import JourneyPlanner.Proofs.WrittenParts
import JourneyPlanner.Proofs.RoundTrip
import JourneyPlanner.Proofs.CheapestOfGroups
import JourneyPlanner.Proofs.ReplayAnswers
import JourneyPlanner.Proofs.Paging
import JourneyPlanner.Proofs.Survivors
import JourneyPlanner.Proofs.MainRides
import JourneyPlanner.Proofs.BestCandidates
