import Libtimeseries.AsciiPaths
import Libtimeseries.DbatsBulk
import Libtimeseries.DbatsPaths
import Libtimeseries.DbatsRetry
import Libtimeseries.DirtyFlag
import Libtimeseries.KpRepresentation
import Libtimeseries.KpResolution
import Libtimeseries.KpFlush
import Libtimeseries.KafkaPlan
import Libtimeseries.KafkaCalls
import Libtimeseries.KafkaMessages
import Libtimeseries.KafkaBounds
import Libtimeseries.KafkaPartitions
import Libtimeseries.TskPartitions
import Libtimeseries.TskTimes
import Libtimeseries.TskRetry
import Libtimeseries.TskBodies
import Libtimeseries.TskChannel
import Libtimeseries.TskStatsCounts
import Libtimeseries.TskStatsTimes
import Libtimeseries.TskConfigStats
import Libtimeseries.TskReads
import Libtimeseries.InsertBatch
import Libtimeseries.InsertPieces
import Libtimeseries.LifecycleRuns
import Libtimeseries.KpAllocFailures
import Libtimeseries.TskRun
import Libtimeseries.KpRetries
import Libtimeseries.TskRunFlushes
import Libtimeseries.TskRunLoop
import Libtimeseries.TskRunInvariants
import Libtimeseries.TskDbats
import Libtimeseries.TskPipeline
import Libtimeseries.DbatsAtomic
import Libtimeseries.KpMirrors
import Libtimeseries.InsertPipeline
import Libtimeseries.Base.Ledgers
import Libtimeseries.Registry
import Libtimeseries.KafkaConnect
import Libtimeseries.Handles
import Libtimeseries.TskRunStats
import Libtimeseries.Base.Replay
import Libtimeseries.TskRestarts
import Libtimeseries.TskStatsNames
import Libtimeseries.TskMain
import Libtimeseries.TskSameData
import Libtimeseries.TskStops
