import TZ.Interaction
import TZ.Basic
import TZ.Guarded
import TZ.Interleaving
import TZ.SQLite
import TZ.SqlText
import TZ.Names
import TZ.Cursor
import TZ.Handles
import TZ.Engine
import TZ.Binding
import TZ.Methods
import TZ.Relation
import TZ.Messages
import TZ.Server
import TZ.Store
import TZ.Refinement
import TZ.Saving
import TZ.Collecting
import TZ.System
import TZ.Statistics
import TZ.Replies
import TZ.Expiry
import TZ.Snapshots
import TZ.Concurrency
import TZ.Exceptions
import TZ.Wire
import TZ.Protobuf
import TZ.Generated
import TZ.Rejected
import TZ.Identity
import TZ.Readable
import TZ.Serializing
import TZ.Client
import TZ.Sending
import TZ.Network
import TZ.Delivery
import TZ.Shown
import TZ.Automata
import TZ.Pacing
import TZ.Lifecycle
import TZ.Process
import TZ.Allowances
import TZ.Shutdown
import TZ.Rounding
import TZ.Nearest
import TZ.Floats
import TZ.Packing
import TZ.Accuracy
