import LfuScan.Foundations.Transition
import LfuScan.Foundations.Kleene
import LfuScan.Foundations.RingBuffer
import LfuScan.Lustre.OnDisk
import LfuScan.Filter.Predicate
import LfuScan.Filter.Decode
import LfuScan.Filter.Eval
import LfuScan.Ring.Wire
import LfuScan.Ring.Device
import LfuScan.Ring.FilterObject
import LfuScan.Ring.Fifo
import LfuScan.Ring.Wakeup
import LfuScan.Ring.EndOfFile
import LfuScan.Ring.Completion
import LfuScan.Ring.Control
import LfuScan.Filter.Verdict
import LfuScan.Ring.Answer
import LfuScan.Filter.Compile
import LfuScan.Filter.Compiled
import LfuScan.Ring.Unreadable
import LfuScan.Core.Object
import LfuScan.Core.Coverage
import LfuScan.Core.Completeness
import LfuScan.Kmdt.Backend
import LfuScan.Ring.Reads
import LfuScan.Kmdt.EndOfScan
import LfuScan.Core.Emission
import LfuScan.Kmdt.Pushdown
import LfuScan.Kmdt.RoundTrip
import LfuScan.Filter.Bounds
import LfuScan.Device.Inode
import LfuScan.Device.Ldiskfs
import LfuScan.Device.Zfs
import LfuScan.Device.Accounting
import LfuScan.Ring.Accounting
import LfuScan.Par.Harness
import LfuScan.Par.Sharding
import LfuScan.Osd.RawInode
import LfuScan.Osd.Iget
import LfuScan.Osd.Tier0
import LfuScan.Changelog.Seen
import LfuScan.Changelog.Scan
import LfuScan.Changelog.Cache
import LfuScan.Changelog.Clear
import LfuScan.Filter.Walkers
import LfuScan.Filter.Layout
import LfuScan.Filter.Units
import LfuScan.Kmdt.PrintedSize
import LfuScan.Changelog.Coalesce
import LfuScan.Foundations.Stdio
import LfuScan.Find.CookieFile
import LfuScan.Find.Since
import LfuScan.Find.Changed
import LfuScan.Foundations.Journal
import LfuScan.Find.Anchors
import LfuScan.Find.Session
import LfuScan.Filter.Quantities
import LfuScan.Filter.Failure
import LfuScan.Device.Geometry
import LfuScan.Core.Limit
import LfuScan.Device.Enumeration
import LfuScan.Filter.LinkName
import LfuScan.Limit
import LfuScan.Foundations.Window
import LfuScan.Osd.RawXattr
import LfuScan.Osd.Readahead
import LfuScan.Osd.PrivateIt
import LfuScan.Osd.HeldBlock
import LfuScan.Front.Lfind
import LfuScan.Filter.IndexList
import LfuScan.Filter.Comparisons
import LfuScan.Find.CookieCalls
import LfuScan.Find.Dirmap
import LfuScan.Find.DirmapPath
import LfuScan.Osd.Walk
import LfuScan.Core.Output
import LfuScan.Device.Output
import LfuScan.ScanDevice.Links
import LfuScan.ScanDevice.DirStripe
import LfuScan.ScanDevice.FileLayout
import LfuScan.ScanDevice.Record
import LfuScan.ScanDevice.Sweep
import LfuScan.ScanDevice.Delivery
import LfuScan.ScanDevice.Accounts
import LfuScan.ScanDevice.Stopping
import LfuScan.ScanDevice.Progress
import LfuScan.Foundations.Chunking
import LfuScan.ScanDevice.Ldiskfs
import LfuScan.ScanDevice.Zfs
import LfuScan.ScanDevice.Prepass
