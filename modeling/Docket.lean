import Docket.Calendar.DueDate
import Docket.Service
import Docket.Wire.Calendar
import Docket.Wire.Event
import Docket.Wire.Task
import Docket.Proofs.Interleaving
import Docket.Proofs.Linearization
import Docket.Proofs.StreamLog
import Docket.Proofs.DecidedStreams
import Docket.Proofs.ConflictDetection
import Docket.Proofs.LastWord
import Docket.Proofs.ObservableUpdates
import Docket.Proofs.AssignmentChain
import Docket.Proofs.MinimalUpdate
import Docket.Proofs.Redelivery
import Docket.Proofs.LifeStages
import Docket.Proofs.WorkingDayCount
import Docket.Proofs.StepAlgebra
import Docket.Proofs.DueDateObstacle
import Docket.Proofs.RuleSpelling
import Docket.Proofs.DueDateOutcome
import Docket.Proofs.HolidayWindow
import Docket.Proofs.Scanning
import Docket.Proofs.DateSpelling
import Docket.Proofs.InstantSpelling
import Docket.Proofs.HearingDateSpelling
import Docket.Proofs.TaskIdSpelling
import Docket.Proofs.JsonText
import Docket.Proofs.RecordMembers
import Docket.Proofs.EventWire
import Docket.Proofs.HolidayPublication
import Docket.Proofs.NonInterference
import Docket.Proofs.EndOfDayForms
import Docket.Proofs.RecordWire
import Docket.Proofs.LayoutChoice
import Docket.Proofs.EventMembers
import Docket.Proofs.FaithfulJournal
import Docket.Proofs.DivisionNames
