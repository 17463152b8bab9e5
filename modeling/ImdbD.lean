import ImdbD.Lists
import ImdbD.ByteMemory
import ImdbD.GuardedRun
import ImdbD.RecordSchema
import ImdbD.BaseTable
import ImdbD.SlotAccounting
import ImdbD.RecordHeap
import ImdbD.SlotAllocation
import ImdbD.TableIterator
import ImdbD.SchemaTable
import ImdbD.KeyEncodings
import ImdbD.TableSession
import ImdbD.IndexContents
import ImdbD.MultimapOrder
import ImdbD.SecondaryIndexSearch
import ImdbD.PrimaryKeyEnforcement
import ImdbD.SelectPaths
import ImdbD.TotalScans
import ImdbD.UpdatedIndexPaths
import ImdbD.FiniteMapTable
import ImdbD.InterleavedIndex
import ImdbD.InterleavedSlots
import ImdbD.AtomicProgram
import ImdbD.KeyedStore
import ImdbD.TpccTables
import ImdbD.RandomGenerator
import ImdbD.TpccProcessor
import ImdbD.TpccPopulator
import ImdbD.TpccDelivery
import ImdbD.TpccNewOrder
import ImdbD.TpccOrderBook
import ImdbD.TpccPopulation
import ImdbD.TpccPopulated
import ImdbD.StoreTotals
import ImdbD.TpccSerialRun
import ImdbD.TpccOrderHistory
import ImdbD.TpccAccounts
import ImdbD.TpccDeliveryMarks
import ImdbD.TpccStock
import ImdbD.TpccDelivered
import ImdbD.EchoLink
import ImdbD.Footprint
import ImdbD.ForkJoin
import ImdbD.JobOrder
import ImdbD.KeyedFootprint
import ImdbD.TpccFootprint
import ImdbD.LockstepRun
import ImdbD.KeyedLockstep
import ImdbD.TpccPartition
import ImdbD.TpccPartitionRun
import ImdbD.TpccPartitionLoad
import ImdbD.TatpPartition
import ImdbD.PartitionTransparency
import ImdbD.RecordBuffer
import ImdbD.RecordStore
import ImdbD.TpccSchema
import ImdbD.TatpTables
import ImdbD.TatpProcessor
import ImdbD.TpccRecordBytes
import ImdbD.RecordFootprint
import ImdbD.TatpProcedures
import ImdbD.TatpPopulator
import ImdbD.RowDeterminism
import ImdbD.TableRecords
import ImdbD.TableStorage
import ImdbD.RecordLoad
import ImdbD.TatpPopulated
import ImdbD.TatpSimulation
import ImdbD.TatpStorage
import ImdbD.TatpMaps
import ImdbD.TatpAbstractMaps
import ImdbD.RangeRegistry
import ImdbD.TableRouting
import ImdbD.VarcharColumns
import ImdbD.RecordLayout
import ImdbD.PartialShuffle
import ImdbD.TatpSubArray
import ImdbD.TableLoad
import ImdbD.RecordGroups
import ImdbD.TatpPopulationShape
import ImdbD.TatpPopulationTypes
import ImdbD.TpccOrdered
import ImdbD.TpccSource
import ImdbD.TpccSourceWell
import ImdbD.SharedInvariant
import ImdbD.FrozenColumns
import ImdbD.TatpSubscribers
import ImdbD.ForkJoinCrews
import ImdbD.SharedVectors
import ImdbD.TatpBatchProcessor
import ImdbD.TatpBatchFootprint
import ImdbD.TatpBatchJobs
import ImdbD.TatpBatchRun
import ImdbD.TatpDeterminism
import ImdbD.TatpUnknown
import ImdbD.ProgramOrder
import ImdbD.TpccBatchProcessor
import ImdbD.TpccBatchJobs
import ImdbD.TpccBatchThreads
import ImdbD.TpccBatchSafety
import ImdbD.TpccBatchQueue
import ImdbD.TpccBatchTuples
import ImdbD.TpccBatchRun
import ImdbD.TpccBatchCrews
import ImdbD.TpccDeterminism
import ImdbD.ThreadPool
import ImdbD.PooledScripts
import ImdbD.ScriptBarriers
import ImdbD.TatpBarriers
import ImdbD.TpccBarriers
import ImdbD.TpccMain
import ImdbD.TpccRecordRun
import ImdbD.TpccShownRows
import ImdbD.TpccStored
import ImdbD.TpccTableCalls
import ImdbD.TpccTableRun
import ImdbD.TpccTableLoad
import ImdbD.TpccTableMain
import ImdbD.TatpMain
import ImdbD.Coordinator
