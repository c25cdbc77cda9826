import LarvaOS.Library.Run
import LarvaOS.Library.PageWord
import LarvaOS.Library.PageWalk
import LarvaOS.Library.Extent
import LarvaOS.Machine.Word
import LarvaOS.Memory.Heap
import LarvaOS.Memory.HeapSpec
import LarvaOS.Memory.HeapRuns
import LarvaOS.Kernel.State
import LarvaOS.Memory.Kheap
import LarvaOS.Memory.Paging
import LarvaOS.Memory.Ownership
import LarvaOS.Memory.Requests
import LarvaOS.Memory.HeapCalls
import LarvaOS.Memory.PagingSpec
import LarvaOS.Memory.FreeBlocks
import LarvaOS.Memory.Allocations
import LarvaOS.Memory.PagingRefinement
import LarvaOS.Memory.PagingRange
import LarvaOS.Memory.SpaceRelease
import LarvaOS.Memory.Growth
import LarvaOS.Library.Chain
import LarvaOS.Task.Task
import LarvaOS.Task.TaskSpec
import LarvaOS.Task.TaskList
import LarvaOS.Task.Creation
import LarvaOS.Syscall.Syscall
import LarvaOS.Video.Video
import LarvaOS.Library.Slice
import LarvaOS.Library.Buffer
import LarvaOS.Disk.Stream
import LarvaOS.Fs.Fat16Volume
import LarvaOS.Fs.Fat16Chain
import LarvaOS.Fs.Fat16Read
import LarvaOS.Libc.Strings
import LarvaOS.Library.FirstDifference
import LarvaOS.Libc.Comparisons
import LarvaOS.Libc.CharArray
import LarvaOS.Libc.Numbers
import LarvaOS.Fs.Fat16Directory
import LarvaOS.Fs.PathParser
import LarvaOS.Fs.FileName
import LarvaOS.Fs.RootDirectory
import LarvaOS.Fs.Fat16
import LarvaOS.Library.Scan
import LarvaOS.Fs.Fat16Resolve
import LarvaOS.Fs.FatTable
import LarvaOS.Fs.Layout
import LarvaOS.Fs.Fat16Frame
import LarvaOS.Fs.Delivery
import LarvaOS.Fs.DirectorySearch
import LarvaOS.Fs.File
import LarvaOS.Fs.FileTable
import LarvaOS.Fs.PathSpec
import LarvaOS.Fs.PathList
import LarvaOS.Fs.Fat16Requests
import LarvaOS.Fs.Mounted
import LarvaOS.Fs.DirectoryTree
import LarvaOS.Fs.OpenClose
import LarvaOS.Fs.FileObjects
import LarvaOS.Kernel.Boot
import LarvaOS.Fs.OpenRoot
import LarvaOS.Fs.Seek
import LarvaOS.Fs.ReadFile
import LarvaOS.Fs.LoadDirectory
import LarvaOS.Fs.ResolveFailure
import LarvaOS.Fs.FileCalls
import LarvaOS.Fs.OpenDirectory
import LarvaOS.Fs.OpenTable
import LarvaOS.Fs.ItemTags
import LarvaOS.Fs.ReadEnd
import LarvaOS.Fs.StringCopy
import LarvaOS.Fs.Stat
import LarvaOS.Fs.SafeReads
import LarvaOS.Library.X86
import LarvaOS.Task.Switch
import LarvaOS.Task.Process
import LarvaOS.Task.ProcessSpec
import LarvaOS.Task.LoadFile
import LarvaOS.Task.UserStack
import LarvaOS.Task.LoadBalance
import LarvaOS.Task.BinaryFile
import LarvaOS.Task.CopyFromUser
import LarvaOS.Task.CopyFrame
import LarvaOS.Task.CopyRestores
import LarvaOS.Task.UserString
import LarvaOS.Fs.Balance
import LarvaOS.Fs.OpenFiles
import LarvaOS.Library.SegmentDescriptor
import LarvaOS.Gdt.Gdt
import LarvaOS.Task.ProcessTable
import LarvaOS.Core.FileRead
import LarvaOS.Core.Process
import LarvaOS.Task.Isolation
import LarvaOS.Task.IsolatedRuns
import LarvaOS.Disk.Disk
import LarvaOS.Disk.DriveStream
import LarvaOS.Task.AddressMap
import LarvaOS.Task.ProgramStores
import LarvaOS.Library.X86Stack
import LarvaOS.Syscall.SyscallHandler
import LarvaOS.Syscall.SyscallWrapper
import LarvaOS.Fs.ReadBuffer
import LarvaOS.Fs.Cursors
import LarvaOS.Fs.CursorRuns
import LarvaOS.Library.Protection
import LarvaOS.Interrupt.SystemTables
import LarvaOS.Interrupt.Dispatch
import LarvaOS.Interrupt.Handlers
import LarvaOS.Library.RingBuffer
import LarvaOS.Video.Terminal
import LarvaOS.Library.Leases
import LarvaOS.Core.Strings
import LarvaOS.Core.Files
import LarvaOS.Core.FileRuns
import LarvaOS.Library.Traced
import LarvaOS.Fs.FindItem
