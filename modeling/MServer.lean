import MServer.Ev.Poll
import MServer.Ev.Dispatch
import MServer.Pool.Stat
import MServer.Engine.Buffer
import MServer.Engine.Io
import MServer.Engine.Stream
import MServer.Engine.Log
import MServer.Master.Buffer
import MServer.Master.Shape
import MServer.Master.Continuous
import MServer.Master.Http
import MServer.Master.Lua
import MServer.Master.LClass
import MServer.Master.Ownership
import MServer.Master.Method
import MServer.Master.Binding
import MServer.Mongo.Queue
import MServer.Mongo.Args
