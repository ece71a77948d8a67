import PteSysbench.LittleEndian
import PteSysbench.MetadataLayout
import PteSysbench.DoubleRounding
import PteSysbench.SbRand
import PteSysbench.SquareFold
import PteSysbench.RandUnique
import PteSysbench.MemoryWalk
import PteSysbench.PageTableRegions
import PteSysbench.BulkInsert
import PteSysbench.BulkRows
import PteSysbench.FileRequests
import PteSysbench.FileValidation
import PteSysbench.ResultSets
import PteSysbench.PreparedParams
import PteSysbench.EventLoop
import PteSysbench.QueueWakeups
import PteSysbench.DequeuedPointer
import PteSysbench.LastWriter
import PteSysbench.SbTimer
import PteSysbench.TimerReport
import PteSysbench.TimerCheckpoints
import PteSysbench.SbHistogram
import PteSysbench.OptionRegistry
import PteSysbench.OptionNames
import PteSysbench.ArgumentParser
import PteSysbench.OptionPrecedence
import PteSysbench.HistogramLock
import PteSysbench.HistogramCounts
import PteSysbench.HistogramTotals
import PteSysbench.MemoryTotal
import PteSysbench.ConcurrencyCount
import PteSysbench.OptionValues
import PteSysbench.ConfigLines
import PteSysbench.ConfigRoundTrip
import PteSysbench.RandDistributions
import PteSysbench.SbBarrier
import PteSysbench.StartupProtocol
import PteSysbench.EventLimit
import PteSysbench.EventQueue
import PteSysbench.SequentialTiles
import PteSysbench.FsyncRounds
import PteSysbench.FileLocking
import PteSysbench.SbCounter
import PteSysbench.AsyncAccounting
import PteSysbench.AsyncBuffers
import PteSysbench.HistogramPercentile
import PteSysbench.IntegerOptions
import PteSysbench.Reconnection
import PteSysbench.QueryCounters
import PteSysbench.QuotedText
import PteSysbench.EmulatedStatements
import PteSysbench.CriticalSections
import PteSysbench.ForcedShutdown
import PteSysbench.OptionSizes
import PteSysbench.OffsetCoverage
import PteSysbench.SetValidators
import PteSysbench.SizeArithmetic
import PteSysbench.ParamWrites
import PteSysbench.CreateFiles
import PteSysbench.HeldItems
import PteSysbench.RandomBlocks
import PteSysbench.BufferBounds
import PteSysbench.Crc32
import PteSysbench.BlockChecksums
import PteSysbench.Placeholders
import PteSysbench.HugeTlb
import PteSysbench.ReadWriteMix
import PteSysbench.TimerMerge
import PteSysbench.SequentialChecker
import PteSysbench.CircularLists
import PteSysbench.MmapWindow
import PteSysbench.OptionCopy
import PteSysbench.LoggerBuffers
import PteSysbench.MysqlConnect
import PteSysbench.CmdlineOptions
import PteSysbench.LogDuplicates
import PteSysbench.ListFamilies
import PteSysbench.SafeIteration
import PteSysbench.SbList
import PteSysbench.CpuPrimes
import PteSysbench.Moments
import PteSysbench.TimingStats
import PteSysbench.PageOracle
import PteSysbench.ReportCheckpoints
import PteSysbench.MutexThreads
import PteSysbench.AtomicObject
import PteSysbench.BinaryPolynomials
import PteSysbench.CkRing
import PteSysbench.RingLinearizable
import PteSysbench.RingObservers
import PteSysbench.SbCkPr
import PteSysbench.Xoroshiro
import PteSysbench.XoroshiroPeriod
import PteSysbench.OltpCommon
import PteSysbench.OltpRuns
import PteSysbench.OltpTables
import PteSysbench.PgSessions
