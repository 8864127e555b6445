import EE323.Client.SendLoop
import EE323.Proxy.Accepting
import EE323.Proxy.Chunking
import EE323.Proxy.Extraction
import EE323.Proxy.Redirect
import EE323.Router.Answering
import EE323.Router.Blacklist
import EE323.Router.Budget
import EE323.Router.Checksum
import EE323.Router.Endless
import EE323.Router.Errors
import EE323.Router.Forwarding
import EE323.Router.Mapping
import EE323.Router.NextHop
import EE323.Router.Padding
import EE323.Router.Paths
import EE323.Router.Quoting
import EE323.Router.Release
import EE323.Router.Resolution
import EE323.Router.Sha1
import EE323.Router.Sweep
import EE323.Router.Totality
import EE323.Router.Unroutable
import EE323.Router.Validation
import EE323.Stcp.ByteStream
import EE323.Stcp.Congestion
import EE323.Stcp.Delivery
import EE323.Stcp.FinAck
import EE323.Stcp.FinOrder
import EE323.Stcp.Framing
import EE323.Stcp.Handshake
import EE323.Stcp.NextByte
import EE323.Stcp.Stale
import EE323.Stcp.Wraparound
import EE323.Stcp.AcceptOrder
import EE323.Transfer.Ending
import EE323.Stcp.TcpSum
import EE323.Stcp.QueueRelease
import EE323.Router.Commands
import EE323.Client.Printing
import EE323.Router.Loading
