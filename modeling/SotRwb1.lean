import SotRwb1.Lib.Dict
import SotRwb1.Lib.Text
import SotRwb1.Lib.Numeral
import SotRwb1.Lib.Base64
import SotRwb1.Lib.BitPoly
import SotRwb1.Lib.BitString
import SotRwb1.Lib.Framing
import SotRwb1.Lib.Handler
import SotRwb1.Lib.Machine
import SotRwb1.Lib.Json
import SotRwb1.Lib.Waiter
import SotRwb1.Const
import SotRwb1.Control
import SotRwb1.Protocol.Codec
import SotRwb1.Protocol.Crc
import SotRwb1.Protocol.Command
import SotRwb1.Protocol.Frame
import SotRwb1.Protocol.Fingerprint
import SotRwb1.Protocol.Documented
import SotRwb1.Protocol.Channels
import SotRwb1.Bridge.Dispatch
import SotRwb1.Bridge.Atomic
import SotRwb1.Bridge.Ack
import SotRwb1.Bridge.Ingest
import SotRwb1.System.World
import SotRwb1.System.Calls
import SotRwb1.System.Rpc
import SotRwb1.System.Push
import SotRwb1.System.Display
import SotRwb1.System.Agreement
import SotRwb1.Protocol.Serial
import SotRwb1.Lib.Decimal
import SotRwb1.Protocol.Setpoint
import SotRwb1.System.Store
import SotRwb1.System.Online
import SotRwb1.Setup.Start
import SotRwb1.Setup.ConfigFlow
import SotRwb1.Setup.Entry
import SotRwb1.Lib.Topic
import SotRwb1.System.Isolation
import SotRwb1.Protocol.Special
import SotRwb1.System.Sent
import SotRwb1.Protocol.Tolerance
import SotRwb1.Bridge.Payload
import SotRwb1.System.WriteFailure
import SotRwb1.Lib.JsonDepth
import SotRwb1.Bridge.Wire
import SotRwb1.System.Ledger
import SotRwb1.Lib.Liveness
import SotRwb1.System.Progress
import SotRwb1.Lib.BitOrder
import SotRwb1.Protocol.Distance
import SotRwb1.System.Telemetry
import SotRwb1.Setup.Installation
import SotRwb1.Setup.Loops
import SotRwb1.Lib.Suffix
import SotRwb1.Setup.Registry
import SotRwb1.System.Identity
import SotRwb1.System.Restart
import SotRwb1.Setup.Handshake
import SotRwb1.System.Convergence
