import Slogger.Playlist.Calls
import Slogger.Playlist.Page
import Slogger.Lib.Runs
import Slogger.Playlist.PageHead
import Slogger.Playlist.PageRun
import Slogger.Playlist.Removal
import Slogger.Playlist.RoundTrip
import Slogger.Lib.Ring
import Slogger.Logger.Queue
import Slogger.Logger.System
import Slogger.Logger.Delivery
import Slogger.Logger.Cycles
import Slogger.Logger.Overflow
import Slogger.Logger.Wakeup
import Slogger.Spawn.Drain
import Slogger.Lib.Simulation
import Slogger.Logger.Atomicity
import Slogger.Playlist.Selection
import Slogger.Playlist.Travel
import Slogger.Playlist.Mirror
import Slogger.Playlist.Unique
import Slogger.Playlist.UniqueFront
import Slogger.Playlist.Lines
import Slogger.Spawn.Capture
import Slogger.Spawn.Failure
import Slogger.Spawn.Join
import Slogger.Condwait.System
import Slogger.Condwait.Missed
import Slogger.Playlist.Name
import Slogger.Playlist.Buffer
import Slogger.Condwait.Deadline
import Slogger.Playlist.Streams
import Slogger.Condwait.Ownership
import Slogger.Logger.Startup
import Slogger.Common.Log
import Slogger.Threadload.Load
import Slogger.Lib.Buffer
import Slogger.Common.Record
import Slogger.Threadload.Run
import Slogger.Threadload.Close
import Slogger.Lib.Progress
import Slogger.Logger.Shutdown
import Slogger.Lib.Agreement
import Slogger.Playlist.Restart
import Slogger.Lib.Ledger
import Slogger.Playlist.Ownership
import Slogger.Playlist.Program
import Slogger.Logger.Journal
import Slogger.Lib.Descriptors
import Slogger.Spawn.Pipes
import Slogger.Threadload.Benchmark
import Slogger.Threadload.BenchmarkLog
import Slogger.Threadload.Stop
import Slogger.Logger.Blocks
import Slogger.Threadload.Pace
import Slogger.Logger.Unopened
import Slogger.Spawn.Signals
import Slogger.Spawn.Interrupt
import Slogger.Lib.Chain
import Slogger.Lib.Recent
import Slogger.Playlist.Recent
import Slogger.Lib.Files
import Slogger.Threadload.Files
import Slogger.Logger.Catchup
import Slogger.Common.Readback
import Slogger.Lib.Owned
import Slogger.Playlist.StringRun
