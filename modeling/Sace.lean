import Sace.Android
import Sace.Child
import Sace.Decoded
import Sace.Encoding
import Sace.Event.Attributes
import Sace.Event.Blocks
import Sace.Event.Bytewise
import Sace.Event.Deleted
import Sace.Event.Excutor
import Sace.Event.Flight
import Sace.Event.Handover
import Sace.Event.Ini
import Sace.Event.Lines
import Sace.Event.Monitor
import Sace.Event.Pipe
import Sace.Event.Queries
import Sace.Event.Reload
import Sace.Event.Restored
import Sace.Event.Sections
import Sace.Event.Single
import Sace.Event.Steps
import Sace.Event.Stopping
import Sace.Event.Supervision
import Sace.Event.Threads
import Sace.Event.Tokens
import Sace.Event.Triggers
import Sace.Event.Words
import Sace.Library.Bytes
import Sace.Library.Edges
import Sace.Library.Erasure
import Sace.Library.Framing
import Sace.Library.Notices
import Sace.Library.Purge
import Sace.Library.Register
import Sace.Library.Runs
import Sace.Library.Shared
import Sace.Library.Tables
import Sace.Library.Traced
import Sace.Limits
import Sace.Manager.Checks
import Sace.Manager.Commands
import Sace.Manager.Control
import Sace.Manager.Guards
import Sace.Manager.Handles
import Sace.Manager.Objects
import Sace.Manager.Params
import Sace.Message
import Sace.Normal.Destroyed
import Sace.Normal.Excutor
import Sace.Normal.Jobs
import Sace.Normal.Listed
import Sace.Normal.Owners
import Sace.Normal.Popen
import Sace.Normal.Refines
import Sace.Normal.Steps
import Sace.Normal.Tracked
import Sace.Normal.Waits
import Sace.Numerals
import Sace.Params
import Sace.Parcel
import Sace.Reader.Accepts
import Sace.Reader.Binder
import Sace.Reader.Bounds
import Sace.Reader.Coalesced
import Sace.Reader.Complete
import Sace.Reader.Descriptors
import Sace.Reader.Pass
import Sace.Reader.Reads
import Sace.Reader.Replies
import Sace.Reader.Socket
import Sace.Reader.Streams
import Sace.Reader.Thread
import Sace.RoundTrip
import Sace.Saced
import Sace.Saced.Answered
import Sace.Saced.Connected
import Sace.Saced.Dispatcher
import Sace.Saced.Halted
import Sace.Saced.Main
import Sace.Saced.Pipeline
import Sace.Saced.Queue
import Sace.Saced.Reach
import Sace.Saced.Restored
import Sace.Saced.Secured
import Sace.Saced.Starting
import Sace.Saced.Steps
import Sace.Saced.Threads
import Sace.Sender.Calls
import Sace.Sender.Matching
import Sace.Sender.Waiting
import Sace.Server
import Sace.Server.Objects
import Sace.Server.Refusals
import Sace.Server.Steps
import Sace.Service.Calls
import Sace.Service.Excutor
import Sace.Service.Labels
import Sace.Service.Live
import Sace.Service.Monitor
import Sace.Service.Notices
import Sace.Service.Reach
import Sace.Service.Reaped
import Sace.Service.Refines
import Sace.Service.Register
import Sace.Service.Steps
import Sace.Service.Stopped
import Sace.Service.Tables
import Sace.Service.Watched
import Sace.Service.Works
import Sace.Transaction
import Sace.Types
