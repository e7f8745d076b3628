import SpeedySweeties.Bnd.MonitorBackoff
import SpeedySweeties.Bnd.NextChange
import SpeedySweeties.Business.EndlessHours
import SpeedySweeties.Business.HoursRefresh
import SpeedySweeties.ChatGPT.ExactlyOnce
import SpeedySweeties.Dispatch.AlertRequests
import SpeedySweeties.Dispatch.CandidateOrder
import SpeedySweeties.Dispatch.Capacity
import SpeedySweeties.Dispatch.IncomingAlarm
import SpeedySweeties.Dispatch.Standards
import SpeedySweeties.Draft.CatalogFound
import SpeedySweeties.Draft.Consolidation
import SpeedySweeties.Library.Binary64
import SpeedySweeties.Loyalty.DeliveryCredit
import SpeedySweeties.Loyalty.Ledger
import SpeedySweeties.Loyalty.MonthRollover
import SpeedySweeties.Order.CustomerEdits
import SpeedySweeties.Order.CustomerIdentity
import SpeedySweeties.Order.DispatchCredit
import SpeedySweeties.Order.DispatchTiming
import SpeedySweeties.Order.DuplicateGuard
import SpeedySweeties.Order.GeocodeCandidates
import SpeedySweeties.Order.Reassignment
import SpeedySweeties.Order.VerifiedAddress
import SpeedySweeties.Privacy.ChallengeForeign
import SpeedySweeties.Privacy.DispatcherCharges
import SpeedySweeties.Privacy.FinancialEvidence
import SpeedySweeties.Privacy.JournalEvidence
import SpeedySweeties.Privacy.LogLinearizable
import SpeedySweeties.Privacy.OutcomeEvidence
import SpeedySweeties.Privacy.Reactivation
import SpeedySweeties.Privacy.RetainedFields
import SpeedySweeties.Privacy.RetiredHistory
import SpeedySweeties.Privacy.SealedText
import SpeedySweeties.Privacy.SubmissionEvidence
import SpeedySweeties.Records.Traces
import SpeedySweeties.Recovery.ReconcileAgain
import SpeedySweeties.Recovery.RestoredLive
import SpeedySweeties.Reports.DayTiling
import SpeedySweeties.Reports.DispatcherTotals
import SpeedySweeties.Reports.GrowthTotals
import SpeedySweeties.Retention.DeliveryStatus
import SpeedySweeties.Routing.Overrides
import SpeedySweeties.Routing.PlannerReach
import SpeedySweeties.Routing.RoutingPreview
import SpeedySweeties.Staff.Presence
