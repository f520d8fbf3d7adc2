import RoombaBrain.Varint
import RoombaBrain.ByteReader
import RoombaBrain.PbStream
import RoombaBrain.PbLocal
import RoombaBrain.PbDecode
import RoombaBrain.PbMessage
import RoombaBrain.PbFollow
import RoombaBrain.PbFields
import RoombaBrain.PbVarint
import RoombaBrain.PbVarint32
import RoombaBrain.PbEncode
import RoombaBrain.PbWire
import RoombaBrain.PbMerge
import RoombaBrain.PbSame
import RoombaBrain.PbEntered
import RoombaBrain.PbCodec
import RoombaBrain.PbSafe
import RoombaBrain.Rings
import RoombaBrain.PbIter
import RoombaBrain.PbIterDecode
import RoombaBrain.FrameCode
import RoombaBrain.Roomba
import RoombaBrain.Commands
import RoombaBrain.RpcSchema
import RoombaBrain.Rpc
import RoombaBrain.Dispatch
import RoombaBrain.Perform
import RoombaBrain.Response
import RoombaBrain.Delivery
import RoombaBrain.Payload
import RoombaBrain.RoundTrip
import RoombaBrain.Endpoint
import RoombaBrain.Requests
import RoombaBrain.Memory
import RoombaBrain.PbStructs
import RoombaBrain.PbDecodeMemory
import RoombaBrain.PbEncodeMemory
import RoombaBrain.Orders
import RoombaBrain.PerformMemory
import RoombaBrain.Runs
import RoombaBrain.Programs
import RoombaBrain.ArgLoop
import RoombaBrain.EventGroups
import RoombaBrain.Wifi
import RoombaBrain.Boot
import RoombaBrain.EndpointTask
import RoombaBrain.TaskRounds
import RoombaBrain.System
import RoombaBrain.Serving
import RoombaBrain.Progress
import RoombaBrain.Session
