import OdroidPlayer.Startup.Uris
import OdroidPlayer.Linked.Size
import OdroidPlayer.Player.Stopped
import OdroidPlayer.Player.Stale
import OdroidPlayer.Player.Navigation
import OdroidPlayer.Player.Sequence
import OdroidPlayer.Player.Waiting
import OdroidPlayer.Player.Signals
import OdroidPlayer.Player.Position
import OdroidPlayer.Player.StreamTime
import OdroidPlayer.Player.NextChild
import OdroidPlayer.Wire.Receive
import OdroidPlayer.Server.Accept
import OdroidPlayer.Server.Copy
import OdroidPlayer.Server.Delivery
import OdroidPlayer.Server.Paths
import OdroidPlayer.Server.Trigger
import OdroidPlayer.Server.Streaming
import OdroidPlayer.Server.Removals
import OdroidPlayer.Server.Ownership
import OdroidPlayer.Client.Response
import OdroidPlayer.Client.Lifetime
import OdroidPlayer.Client.Notice
import OdroidPlayer.Client.Timeout
import OdroidPlayer.Client.Receiver
import OdroidPlayer.Protocol.Linear
import OdroidPlayer.Protocol.Acknowledge
import OdroidPlayer.Protocol.Progress
import OdroidPlayer.Process.Struck
import OdroidPlayer.Process.Freed
import OdroidPlayer.Process.Watchdog
import OdroidPlayer.Process.Interrupt
import OdroidPlayer.Lib.Blocks
import OdroidPlayer.Memory.Cleared
import OdroidPlayer.Memory.Handling
import OdroidPlayer.Memory.Leaks
import OdroidPlayer.Memory.Paths
import OdroidPlayer.Memory.Requests
