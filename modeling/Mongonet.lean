import Mongonet.Go.Result
import Mongonet.Go.Bytes
import Mongonet.Go.IO
import Mongonet.Go.Int
import Mongonet.Go.System
import Mongonet.Wire.Util
import Mongonet.Wire.Message
import Mongonet.Wire.Parse
import Mongonet.Wire.Sock
import Mongonet.Wire.Serialize
import Mongonet.Wire.Total
import Mongonet.Wire.Frame
import Mongonet.Wire.Encode
import Mongonet.Wire.Decode
import Mongonet.Wire.RoundTrip
import Mongonet.Wire.Inversion
import Mongonet.Wire.Reserialize
import Mongonet.Bson.Value
import Mongonet.Bson.WalkAll
import Mongonet.Bson.Walk
import Mongonet.Proxy.Pool
import Mongonet.Proxy.Session
import Mongonet.Proxy.Lifecycle
import Mongonet.Proxy.CrossTalk
import Mongonet.Wire.Transport
import Mongonet.Server.Respond
import Mongonet.Server.Lifecycle
import Mongonet.Go.Strings
import Mongonet.Util.Names
import Mongonet.Bson.Get
