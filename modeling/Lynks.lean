import Lynks.Lib.Machine
import Lynks.Lib.Effects
import Lynks.Lib.Stateful
import Lynks.Lib.Lease
import Lynks.Lib.KeyedFifo
import Lynks.Lib.Coroutines
import Lynks.Lib.Expansion
import Lynks.Json
import Lynks.JsonText
import Lynks.JsonDump
import Lynks.Network.Crypto
import Lynks.Network.Tokens
import Lynks.Network.User
import Lynks.Network.Handler
import Lynks.Network.Router
import Lynks.Network.Gate
import Lynks.Network.Queue
import Lynks.Network.Connection
import Lynks.Network.ConnectionRuns
import Lynks.Network.Server
import Lynks.Network.HalfClose
import Lynks.Network.Writer
import Lynks.Network.Intake
import Lynks.Network.Update
import Lynks.Network.Clients
import Lynks.Network.Replies
import Lynks.Network.Pipelining
import Lynks.Network.SessionToken
import Lynks.Network.SessionHandler
import Lynks.Network.SessionRuns
import Lynks.Network.Cleanup
import Lynks.Network.Clock
import Lynks.Network.Capacity
import Lynks.Network.Idle
import Lynks.Network.Login
import Lynks.Janus.ResponseMessage
import Lynks.Janus.ResponseBuffer
import Lynks.Janus.Buffer.Invariant
import Lynks.Janus.Buffer.Fifo
import Lynks.Janus.Buffer.Delivery
import Lynks.Janus.Buffer.Race
import Lynks.Janus.Messages
import Lynks.Janus.Participants
import Lynks.Janus.RequestMapper
import Lynks.Janus.Exchange
import Lynks.Janus.LongPoll
import Lynks.Janus.Start
import Lynks.Network.Service
import Lynks.Network.Authorisation
import Lynks.Network.Script
import Lynks.Network.Interleaving
import Lynks.Network.Credentials
import Lynks.Network.Backend
import Lynks.Network.EndToEnd
import Lynks.Network.Acks
import Lynks.Network.Expiry
import Lynks.Network.Transport
import Lynks.Network.TransportRuns
import Lynks.Network.Contents
import Lynks.Network.Shutdown
import Lynks.Network.Conversation
import Lynks.Network.Starting
import Lynks.Network.Progress
import Lynks.Network.Process
import Lynks.Network.Drain
