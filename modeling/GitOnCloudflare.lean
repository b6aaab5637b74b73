import GitOnCloudflare.Container.IndexAgrees
import GitOnCloudflare.Planner.BoundaryExact
import GitOnCloudflare.Planner.PublicationKept
import GitOnCloudflare.Receive.CompareAndSwap
import GitOnCloudflare.Receive.CrashReplay
import GitOnCloudflare.Gc.Ledger
import GitOnCloudflare.Native.ExecutionFencing
import GitOnCloudflare.Pack.IdxExact
import GitOnCloudflare.Pack.LayoutConvergence
import GitOnCloudflare.Pack.BuildAgrees
import GitOnCloudflare.Store.SharedMemoReads
import GitOnCloudflare.Pack.CacheTransparency
import GitOnCloudflare.Snapshot.Convergence
import GitOnCloudflare.Core.TreeWalkers
import GitOnCloudflare.Pack.RefSidecarCanonical
import GitOnCloudflare.Pack.DeltaLanguage
import GitOnCloudflare.Receive.PktSectionStream
import GitOnCloudflare.Compaction.NeededOids
import GitOnCloudflare.Pack.HeaderCodec
import GitOnCloudflare.Fetch.SidebandConclusive
import GitOnCloudflare.Pack.ScanExact
import GitOnCloudflare.Compaction.WorkerRuns
import GitOnCloudflare.Pack.OutputOrder
import GitOnCloudflare.Read.ChangedFiles
import GitOnCloudflare.Planner.CatalogBundleExact
import GitOnCloudflare.Planner.WholePackBudget
import GitOnCloudflare.Receive.StockAdmissionBounded
import GitOnCloudflare.Receive.PackStagingExact
import GitOnCloudflare.Store.PeeledTagsExact
import GitOnCloudflare.Client.MarkdownInert
import GitOnCloudflare.Receive.StockBundleExact
import GitOnCloudflare.Pack.RefBaseExact
import GitOnCloudflare.Pack.PayloadCacheExact
import GitOnCloudflare.Pack.RangeReaderExact
import GitOnCloudflare.Deletion.Runs
import GitOnCloudflare.Fetch.SubrequestLimiter
