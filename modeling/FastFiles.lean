import FastFiles.Engine.DirectoryListing
import FastFiles.Engine.IdleManager
import FastFiles.Engine.SearchCoordinator
import FastFiles.Engine.SearchSession
import FastFiles.Engine.Subscription
import FastFiles.Index.Acceleration
import FastFiles.Index.AllocatedSize
import FastFiles.Index.CandidateStream
import FastFiles.Index.ChildrenMap
import FastFiles.Index.ColdAggregate
import FastFiles.Index.FlatHashMap
import FastFiles.Index.FolderRules
import FastFiles.Index.PooledPipeline
import FastFiles.Index.Pruning
import FastFiles.Index.Rebuild
import FastFiles.Index.Replay
import FastFiles.Manager.RetryIntent
import FastFiles.Manager.Supersession
import FastFiles.Protocol.PipeFraming
import FastFiles.Search.Accumulator
import FastFiles.Search.Parser
import FastFiles.Service.Fixup
import FastFiles.Service.JournalDelivery
import FastFiles.Service.Resumption
import FastFiles.Service.ScanOrder
import FastFiles.Ui.DirectoryRequests
import FastFiles.Ui.Preview
import FastFiles.Ui.SharedWorkspace
import FastFiles.Ui.TransferPlan
import FastFiles.Ui.StorageRanking
import FastFiles.Ui.ReplacementSafety
