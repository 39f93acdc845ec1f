import ChatServer.Lib.Calls
import ChatServer.Lib.Column
import ChatServer.Lib.Words
import ChatServer.Lib.Tlv
import ChatServer.Lib.Walk
import ChatServer.Lib.Framing
import ChatServer.Lib.EdgeTrigger
import ChatServer.Lib.Istream
import ChatServer.Spec.Chat
import ChatServer.Spec.Provenance
import ChatServer.Model.Shared
import ChatServer.Model.Protocol
import ChatServer.Model.Db
import ChatServer.Model.State
import ChatServer.Model.Services
import ChatServer.Model.EventLoop
import ChatServer.Audit.Codec
import ChatServer.Audit.Requests
import ChatServer.Audit.RequestStream
import ChatServer.Audit.Lockstep
import ChatServer.Audit.Steps
import ChatServer.Audit.Rejection
import ChatServer.Audit.OutputStream
import ChatServer.Audit.Alike
import ChatServer.Audit.Identity
import ChatServer.Model.Transport
import ChatServer.Audit.Delivery
import ChatServer.Audit.Authentication
import ChatServer.Audit.BroadcastOrder
import ChatServer.Audit.Bystanders
import ChatServer.Audit.Notification
import ChatServer.Audit.WakeUp
import ChatServer.Audit.TopOfLoop
import ChatServer.Audit.Agreement
import ChatServer.Audit.Segmentation
import ChatServer.Audit.EndOfStream
import ChatServer.Audit.FreedSlots
import ChatServer.Audit.Descriptors
import ChatServer.Audit.Accounts
import ChatServer.Audit.FrameLocality
import ChatServer.Audit.Usernames
import ChatServer.Audit.Addressing
import ChatServer.Audit.Twins
import ChatServer.Audit.Privacy
import ChatServer.Audit.Grammar
import ChatServer.Audit.Acceptance
import ChatServer.Audit.FieldOrder
import ChatServer.Model.ClientProtocol
import ChatServer.Audit.RoundTrip
import ChatServer.Model.Client
import ChatServer.Model.Shell
import ChatServer.Model.Messaging
import ChatServer.Audit.ClientResponses
import ChatServer.Audit.Shell
import ChatServer.Audit.Replies
import ChatServer.Audit.Refinement
import ChatServer.Audit.Network
import ChatServer.Audit.Conversation
import ChatServer.Audit.Shutdown
import ChatServer.Model.Commands
import ChatServer.Audit.Commands
import ChatServer.Model.Startup
import ChatServer.Audit.Startup
import ChatServer.Audit.Overloads
import ChatServer.Audit.UserIds
import ChatServer.Audit.Pending
import ChatServer.Audit.Lives
import ChatServer.Audit.Backlog
import ChatServer.Audit.Settling
import ChatServer.Model.Checked
import ChatServer.Audit.Table
import ChatServer.Audit.Survival
