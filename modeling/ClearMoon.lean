import ClearMoon.Core.Machine
import ClearMoon.Base.PoolDestructor
import ClearMoon.Timer.Deadline
import ClearMoon.Timer.Cancel
import ClearMoon.Timer.Batch
import ClearMoon.Core.Loop
import ClearMoon.Net.HostInt
import ClearMoon.Net.Acceptor
import ClearMoon.Http.Server
import ClearMoon.Http.ContentLength
import ClearMoon.Http.Answer
import ClearMoon.Http.Closing
import ClearMoon.Http.RequestLine
import ClearMoon.Http.Framing
import ClearMoon.Http.Decode
import ClearMoon.Loop.EventLoop
import ClearMoon.Loop.EventLoopThread
import ClearMoon.Tcp.Shutdown
import ClearMoon.Tcp.Calls
import ClearMoon.Tcp.Silence
import ClearMoon.Tcp.Send
import ClearMoon.Tcp.Timers
import ClearMoon.Tcp.Transfer
import ClearMoon.Tcp.IdleTimeout
import ClearMoon.Tcp.Disposal
import ClearMoon.Tcp.Backoff
import ClearMoon.Tcp.Retransmit
import ClearMoon.Tcp.WriteComplete
import ClearMoon.Server.Stop
import ClearMoon.Server.Contexts
import ClearMoon.Client.Destruct
import ClearMoon.Connect.Timeout
import ClearMoon.Log.Flush
import ClearMoon.Log.Rounds
import ClearMoon.Core.Duplex
import ClearMoon.Http.EndToEnd
import ClearMoon.Tcp.Echo
