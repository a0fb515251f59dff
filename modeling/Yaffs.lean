import Yaffs.Collection
import Yaffs.CheckpointCursor
import Yaffs.RamFlash
import Yaffs.Invalidation
import Yaffs.Library.Execution
import Yaffs.Library.Growth
import Yaffs.BalancedRuns
import Yaffs.OrderedRuns
import Yaffs.TreeRuns
import Yaffs.NameValRuns
import Yaffs.ByteOrderExchange
import Yaffs.Listing
import Yaffs.TransferRuns
import Yaffs.FileTreeRuns
import Yaffs.ErasedPages
import Yaffs.HeaderPages
import Yaffs.NameRuns
import Yaffs.DeletionRecords
import Yaffs.FailedCreation
import Yaffs.FailedRenames
import Yaffs.CacheAges
import Yaffs.Pruning
import Yaffs.TnodeRuns
import Yaffs.HangingObjects
import Yaffs.Attributes
import Yaffs.LocalUnlinks
import Yaffs.ShrinkRuns
import Yaffs.ObjectIds
import Yaffs.MountPoints
import Yaffs.ShareModes
import Yaffs.CheckpointRestores
import Yaffs.CheckpointReads
import Yaffs.CheckpointLosses
import Yaffs.CheckpointReserve
import Yaffs.VxLib
import Yaffs.Seek
import Yaffs.Offsets
import Yaffs.ScanOrder
import Yaffs.DataEcc
import Yaffs.TagsEcc
import Yaffs.TagsMarshall
import Yaffs.TagsCompat
import Yaffs.BoardDriver
import Yaffs.VxPaths
import Yaffs.NameValAccess
import Yaffs.DirStreams
import Yaffs.LinkNesting
import Yaffs.Geometry
import Yaffs.TnodeWidths
import Yaffs.SummarySizing
import Yaffs.Slabs
import Yaffs.BlockCounters
import Yaffs.TempFiles
import Yaffs.FileRefinement
