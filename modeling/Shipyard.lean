import Shipyard.Api
import Shipyard.Demo
import Shipyard.Drill.Script
import Shipyard.Gateway.Check
import Shipyard.Notice.Bot
import Shipyard.Part.Wire
import Shipyard.Proofs.Effects
import Shipyard.Proofs.Fulfilment.Course
import Shipyard.Proofs.Yard
import Shipyard.Settings
import Shipyard.Trial
import Shipyard.Proofs.Fulfilment.Accounts
import Shipyard.Proofs.Delivery.Poll
import Shipyard.Proofs.Delivery.AtLeastOnce
import Shipyard.Proofs.Schedule
import Shipyard.Proofs.Fulfilment.Safety
import Shipyard.Proofs.Fulfilment.History
import Shipyard.Proofs.Json.Numbers
import Shipyard.Proofs.Json.Objects
import Shipyard.Proofs.Identifiers
import Shipyard.Proofs.Json.Events
import Shipyard.Proofs.Fulfilment.Announcements
import Shipyard.Proofs.Fulfilment.Causality
import Shipyard.Proofs.Delivery.Pipeline
import Shipyard.Proofs.Gateway.Check
import Shipyard.Proofs.Gateway.Tokens
import Shipyard.Proofs.Delivery.Crew
import Shipyard.Proofs.Delivery.Places
import Shipyard.Proofs.Delivery.Duties
import Shipyard.Proofs.Fulfilment.Books
import Shipyard.Proofs.Fulfilment.Interference
import Shipyard.Proofs.Fulfilment.Rounds
import Shipyard.Proofs.Fulfilment.Shifts
import Shipyard.Proofs.Fulfilment.Drains
import Shipyard.Proofs.Fulfilment.Completeness
import Shipyard.Proofs.Delivery.Running
import Shipyard.Proofs.Bus.History
import Shipyard.Proofs.Fulfilment.Builds
import Shipyard.Proofs.Text.Trimming
import Shipyard.Proofs.Json.Envelopes
import Shipyard.Proofs.Api.Requests
import Shipyard.Proofs.Api.Identity
import Shipyard.Proofs.Api.Access
import Shipyard.Proofs.Fulfilment.Tallies
import Shipyard.Proofs.Delivery.InOrder
import Shipyard.Proofs.Delivery.Deeds
import Shipyard.Proofs.Delivery.Fates
import Shipyard.Proofs.Delivery.Groups
import Shipyard.Proofs.Delivery.Redelivery
import Shipyard.Proofs.Delivery.Treatment
import Shipyard.Proofs.Delivery.Draining
import Shipyard.Proofs.Delivery.Settlement
import Shipyard.Proofs.Delivery.Notices
import Shipyard.Proofs.Order.History
import Shipyard.Proofs.Fulfilment.BuildsInTurn
import Shipyard.Proofs.Fulfilment.Intake
import Shipyard.Proofs.Assembly
import Shipyard.Proofs.Text.Digits
import Shipyard.Proofs.Text.Escapes
import Shipyard.Proofs.Money
import Shipyard.Proofs.Uuid.Spellings
import Shipyard.Proofs.Api.OrderPaths
import Shipyard.Proofs.Settings
