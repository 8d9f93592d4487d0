import GhostDB.Library.SortedTable
import GhostDB.Config
import GhostDB.Library.ByteArray
import GhostDB.Library.Prog
import GhostDB.Bloom
import GhostDB.Util
import GhostDB.Library.Blocks
import GhostDB.Library.MachineInt
import GhostDB.PageNumbers
import GhostDB.Merge
import GhostDB.SSTablePage
import GhostDB.DiskManager
import GhostDB.LogManager
import GhostDB.SSTableManager
import GhostDB.StoreRep
import GhostDB.Compaction
import GhostDB.Client
import GhostDB.Layout
import GhostDB.WriteAheadLog
import GhostDB.Recovery
import GhostDB.CrashRecovery
import GhostDB.Preservation
import GhostDB.LogReads
import GhostDB.Library.Interference
import GhostDB.Db
import GhostDB.Refinement
import GhostDB.Shutdown
import GhostDB.Restart
import GhostDB.Library.Schedule
import GhostDB.LogConcurrency
import GhostDB.CompactionConcurrency
import GhostDB.CompactionOverlap
import GhostDB.FlushInterference
import GhostDB.Completion
import GhostDB.LookupBounds
import GhostDB.RangeReads
import GhostDB.RangeBounds
import GhostDB.Library.Outline
import GhostDB.LogContents
import GhostDB.WriteAheadOrder
import GhostDB.WalPage
import GhostDB.Library.Census
import GhostDB.RWLatch
import GhostDB.Library.Progress
import GhostDB.Process
import GhostDB.ProcessSync
import GhostDB.ProcessAgreement
import GhostDB.ProcessTurns
import GhostDB.ProcessProgress
import GhostDB.ProcessLifetime
import GhostDB.Library.Simulation
import GhostDB.Capacity
import GhostDB.TableMachine
import GhostDB.PageFormat
import GhostDB.RWLatchProgress
import GhostDB.CompactionProgress
import GhostDB.CompactionRequests
import GhostDB.LogProgress
