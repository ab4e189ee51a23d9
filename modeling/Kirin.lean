import Kirin.Library.Cascade
import Kirin.Library.Checked
import Kirin.Library.DayClock
import Kirin.Library.FieldGroup
import Kirin.Library.History
import Kirin.Library.Journal
import Kirin.Library.KeyedRuns
import Kirin.Library.KeyedStore
import Kirin.Library.Lease
import Kirin.Library.Lifetime
import Kirin.Library.LocalOrder
import Kirin.Library.Memoization
import Kirin.Library.Registry
import Kirin.Library.RelatedLists
import Kirin.Library.Replication
import Kirin.Library.Runs
import Kirin.Library.Span
import Kirin.Library.Throttle
import Kirin.Library.TwoCallers
import Kirin.Core.Types
import Kirin.Core.Utils
import Kirin.Core.Model
import Kirin.Core.Circulation
import Kirin.Core.MergeUtils
import Kirin.Core.PopulatePb
import Kirin.Core.BuildWrapper
import Kirin.Core.EncodedRows
import Kirin.Core.StopTimeRules
import Kirin.Core.MergeRun
import Kirin.Core.ConsistencyRules
import Kirin.Core.ConsistencyResult
import Kirin.Core.FeedRun
import Kirin.Core.AcceptedChronology
import Kirin.Core.AcceptedStops
import Kirin.Core.CompleteReplacement
import Kirin.Core.CalendarRules
import Kirin.Core.PartialDeletion
import Kirin.Core.InsertedStops
import Kirin.Core.KeptStops
import Kirin.Core.ReferenceTimes
import Kirin.Core.HandleRules
import Kirin.Core.SingleTrip
import Kirin.Core.Rejection
import Kirin.Core.PublishedStream
import Kirin.Core.HandleBatch
import Kirin.Core.TripTurns
import Kirin.Core.LoopOutcome
import Kirin.Core.BatchSequence
import Kirin.Core.Resending
import Kirin.Core.RetryPublication
import Kirin.Core.ContributorIsolation
import Kirin.Core.ConcurrentHandling
import Kirin.Core.FeedOutcome
import Kirin.Core.AuditStatus
import Kirin.Core.FeedLocality
import Kirin.Core.TouchedRows
import Kirin.Core.Encodable
import Kirin.Core.StopStatuses
import Kirin.Core.TripAttributes
import Kirin.Core.Tables
import Kirin.Core.Purge
import Kirin.Core.EventValidity
import Kirin.Core.LoadedRows
import Kirin.Core.MergeRaises
import Kirin.Core.MergeAdditions
import Kirin.Core.AddedTimes
import Kirin.Cots.ModelMaker
import Kirin.Cots.BuilderRules
import Kirin.Cots.AddedTrain
import Kirin.Cots.TripIdentity
import Kirin.Cots.Recognition
import Kirin.Cots.LifeCycle
import Kirin.Cots.PublishedEffect
import Kirin.Cots.DelayRetrieval
import Kirin.Cots.CirculationWindow
import Kirin.Cots.EventReading
import Kirin.Cots.MalformedPoints
import Kirin.Cots.MessageHandler
import Kirin.GtfsRt.ModelMaker
import Kirin.GtfsRt.BuilderRules
import Kirin.GtfsRt.StopMatching
import Kirin.GtfsRt.FeedHistory
import Kirin.GtfsRt.RunningMaximum
import Kirin.GtfsRt.NullTimes
import Kirin.GtfsRt.RunningCirculation
import Kirin.GtfsRt.Tasks
import Kirin.GtfsRt.EtagMemory
import Kirin.GtfsRt.RateLimiter
import Kirin.GtfsRt.ConcurrentPolls
import Kirin.Piv.ModelMaker
import Kirin.Piv.BuilderRules
import Kirin.Piv.RealTimes
import Kirin.Piv.TrainSearch
import Kirin.Piv.Worker
import Kirin.Piv.Supervision
import Kirin.Piv.ConfigurationWatch
import Kirin.Resources.Contributors
import Kirin.Resources.BrokerConfiguration
import Kirin.Resources.Registry
import Kirin.Resources.Status
import Kirin.Publication
import Kirin.LastFeed
import Kirin.RelevantStops
import Kirin.ProjectedTimes
import Kirin.RabbitmqHandler
import Kirin.Reloading
import Kirin.FeedJournal
import Kirin.PublishedTrips
import Kirin.SameTrain
import Kirin.Tasks
import Kirin.EndPoints
import Kirin.Application
import Kirin.Authorization
import Kirin.WorkerConfiguration
import Kirin.Decommission
