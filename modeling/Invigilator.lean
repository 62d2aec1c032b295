import Invigilator.Access.Claims
import Invigilator.Access.Gate
import Invigilator.Access.Key
import Invigilator.Access.Token
import Invigilator.Digest.Sha256
import Invigilator.Exam.Answer
import Invigilator.Exam.Catalog
import Invigilator.Exam.Countdown
import Invigilator.Exam.Detector
import Invigilator.Exam.Event
import Invigilator.Exam.Fault
import Invigilator.Exam.Language
import Invigilator.Exam.Question
import Invigilator.Exam.Refusal
import Invigilator.Exam.Request
import Invigilator.Exam.Score
import Invigilator.Exam.Selection
import Invigilator.Exam.Session
import Invigilator.Exam.Settings
import Invigilator.Exam.Signal
import Invigilator.Exam.Snapshot
import Invigilator.Exam.Trio
import Invigilator.Exam.Violation
import Invigilator.Journal.Log
import Invigilator.Journal.Note
import Invigilator.Json.Basic
import Invigilator.Json.Complaint
import Invigilator.Json.Fields
import Invigilator.Json.Held
import Invigilator.Json.Literal
import Invigilator.Json.Probe
import Invigilator.Json.Record
import Invigilator.Json.Shape
import Invigilator.Json.Text
import Invigilator.Json.Token
import Invigilator.Json.Walk
import Invigilator.Lives.Attempt
import Invigilator.Lives.Call
import Invigilator.Lives.Ledger
import Invigilator.Lives.Redis
import Invigilator.Lives.Shelf
import Invigilator.Lives.State
import Invigilator.Proofs.Access.Gate
import Invigilator.Proofs.Access.Token
import Invigilator.Proofs.Detector.Brackets
import Invigilator.Proofs.Detector.Course
import Invigilator.Proofs.Detector.Deterrents
import Invigilator.Proofs.Detector.Excursions
import Invigilator.Proofs.Detector.Reaction
import Invigilator.Proofs.Exam.Answer
import Invigilator.Proofs.Exam.Catalog
import Invigilator.Proofs.Exam.Countdown
import Invigilator.Proofs.Exam.Event
import Invigilator.Proofs.Exam.Selection
import Invigilator.Proofs.Exam.Veil
import Invigilator.Proofs.Exam.Wire
import Invigilator.Proofs.Json.Lexing
import Invigilator.Proofs.Json.Parsing
import Invigilator.Proofs.Json.Printed
import Invigilator.Proofs.Json.Records
import Invigilator.Proofs.Lives.Balance
import Invigilator.Proofs.Lives.Cooldown
import Invigilator.Proofs.Lives.Expiry
import Invigilator.Proofs.Lives.Faltering
import Invigilator.Proofs.Lives.Isolation
import Invigilator.Proofs.Lives.Outage
import Invigilator.Proofs.Lives.Report
import Invigilator.Proofs.Lives.Restoring
import Invigilator.Proofs.Lives.Visits
import Invigilator.Proofs.Lives.Window
import Invigilator.Proofs.Records.Agreement
import Invigilator.Proofs.Records.Database
import Invigilator.Proofs.Records.Delivery
import Invigilator.Proofs.Records.Documents
import Invigilator.Proofs.Records.Drawer
import Invigilator.Proofs.Records.Eligibility
import Invigilator.Proofs.Records.Filing
import Invigilator.Proofs.Records.Listing
import Invigilator.Proofs.Records.Losses
import Invigilator.Proofs.Records.Mirror
import Invigilator.Proofs.Records.Repeat
import Invigilator.Proofs.Records.Retry
import Invigilator.Proofs.Records.Roster
import Invigilator.Proofs.Records.Survival
import Invigilator.Proofs.Records.Table
import Invigilator.Proofs.Service.Answers
import Invigilator.Proofs.Service.Archive
import Invigilator.Proofs.Service.Blind
import Invigilator.Proofs.Service.Custody
import Invigilator.Proofs.Service.Handover
import Invigilator.Proofs.Service.Inquiry
import Invigilator.Proofs.Service.Invariant
import Invigilator.Proofs.Service.Notes
import Invigilator.Proofs.Service.Papers
import Invigilator.Proofs.Service.Privacy
import Invigilator.Proofs.Service.Refused
import Invigilator.Proofs.Service.Relay
import Invigilator.Proofs.Service.Retake
import Invigilator.Proofs.Service.Seat
import Invigilator.Proofs.Service.Serial
import Invigilator.Proofs.Service.Stream
import Invigilator.Proofs.Service.Submission
import Invigilator.Proofs.Service.Warrant
import Invigilator.Proofs.Sitting.Answering
import Invigilator.Proofs.Sitting.Brevity
import Invigilator.Proofs.Sitting.Change
import Invigilator.Proofs.Sitting.Chronicle
import Invigilator.Proofs.Sitting.Commands
import Invigilator.Proofs.Sitting.Credit
import Invigilator.Proofs.Sitting.Deterrents
import Invigilator.Proofs.Sitting.Echo
import Invigilator.Proofs.Sitting.Finality
import Invigilator.Proofs.Sitting.History
import Invigilator.Proofs.Sitting.Lives
import Invigilator.Proofs.Sitting.Metrics
import Invigilator.Proofs.Sitting.Outcome
import Invigilator.Proofs.Sitting.Parting
import Invigilator.Proofs.Sitting.Penalties
import Invigilator.Proofs.Sitting.Rest
import Invigilator.Proofs.Sitting.Telling
import Invigilator.Proofs.Text.Base64
import Invigilator.Proofs.Text.Utf8
import Invigilator.Proofs.Time.Calendar
import Invigilator.Proofs.Time.Elapsed
import Invigilator.Proofs.Time.Reading
import Invigilator.Proofs.Time.Shown
import Invigilator.Proofs.Time.Sorting
import Invigilator.Proofs.Web.Authority
import Invigilator.Proofs.Web.Labels
import Invigilator.Proofs.Web.Roster
import Invigilator.Proofs.Web.Secrecy
import Invigilator.Records.Cabinet
import Invigilator.Records.Documents
import Invigilator.Records.Query
import Invigilator.Records.Retry
import Invigilator.Records.Schema
import Invigilator.Records.Scribe
import Invigilator.Records.Write
import Invigilator.Service.Config
import Invigilator.Service.Courier
import Invigilator.Service.Exams
import Invigilator.Service.Hall
import Invigilator.Service.Health
import Invigilator.Service.Practice
import Invigilator.Service.Registry
import Invigilator.Service.Relay
import Invigilator.Service.Setting
import Invigilator.Service.Source
import Invigilator.Service.Startup
import Invigilator.Service.State
import Invigilator.Sitting.Basic
import Invigilator.Sitting.Step
import Invigilator.Text.Base64
import Invigilator.Text.Blank
import Invigilator.Text.Cut
import Invigilator.Text.Decimal
import Invigilator.Text.Extending
import Invigilator.Text.Graphic
import Invigilator.Text.Id
import Invigilator.Text.Quoted
import Invigilator.Text.Shortest
import Invigilator.Text.Utf8
import Invigilator.Time.Calendar
import Invigilator.Time.Shown
import Invigilator.Time.Stamp
import Invigilator.Time.Written
import Invigilator.Web.Address
import Invigilator.Web.Form
import Invigilator.Web.MediaType
import Invigilator.Web.Message
import Invigilator.Web.Race
import Invigilator.Web.Route
import Invigilator.Web.Server
import Invigilator.Web.Target
