import ModDup.Lib.Bytes
import ModDup.Lib.Buffer
import ModDup.Lib.OrdMap
import ModDup.Lib.MapDiff
import ModDup.Lib.Utf8
import ModDup.Lib.EditScript
import ModDup.Lib.EditGraph
import ModDup.Lib.Patch
import ModDup.Lib.FirstFree
import ModDup.Lib.Sections
import ModDup.Lib.Frames
import ModDup.Lib.Runs
import ModDup.Lib.Scan
import ModDup.Dtl.Diff
import ModDup.Dtl.Search
import ModDup.Dtl.Script
import ModDup.Dtl.Hunks
import ModDup.RequestInfo
import ModDup.UrlCodec
import ModDup.UrlBuffers
import ModDup.Apache
import ModDup.Dup.Commands
import ModDup.Dup.Filter
import ModDup.Dup.Shared
import ModDup.Dup.Substitute
import ModDup.Dup.Scopes
import ModDup.Dup.Send
import ModDup.Dup.Headers
import ModDup.Dup.Counts
import ModDup.Dup.Handlers
import ModDup.Dup.Validation
import ModDup.Dup.Hops
import ModDup.Dup.Once
import ModDup.Dup.Configured
import ModDup.Dup.HandOver
import ModDup.Pool.Queue
import ModDup.Pool.ThreadPool
import ModDup.Pool.Accounting
import ModDup.Pool.Shutdown
import ModDup.Dup.Directives
import ModDup.Dup.Meaning
import ModDup.Dup.Worker
import ModDup.Dup.Service
import ModDup.Dup.Serving
import ModDup.Compare.Deserialize
import ModDup.Compare.Printer
import ModDup.Compare.Differ
import ModDup.Compare.HeaderDiffs
import ModDup.Compare.Filters
import ModDup.Compare.BodyTags
import ModDup.Dtl.Unified
import ModDup.Compare.Rules
import ModDup.Compare.Stop
import ModDup.Compare.Input
import ModDup.Compare.Exits
import ModDup.Compare.Records
import ModDup.Compare.RequestArgs
import ModDup.Compare.CassandraDiffs
import ModDup.Compare.Format
import ModDup.Compare.Replay
import ModDup.Compare.Refused
import ModDup.Compare.Output
import ModDup.Compare.LogFile
import ModDup.Compare.MutexSetup
import ModDup.Tools.Cmpdiffx
import ModDup.Tools.LogReader
import ModDup.Migrate.Filters
import ModDup.Migrate.Context
import ModDup.Wire
import ModDup.EndToEnd
