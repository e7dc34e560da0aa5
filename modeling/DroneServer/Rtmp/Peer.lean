import DroneServer.Rtmp.Chunk
import DroneServer.Rtmp.Host

/-! # The other side of a connection

What a peer sends: commands in AMF0, messages that fit one chunk, and the steps
by which they reach the server.
-/

namespace DroneServer

namespace Peer

/-- A message short enough for one chunk, with a full header. -/
def message (csid : UInt16) (type : UInt8) (streamId : UInt32) (payload : Bytes) : Bytes :=
  chunk csid (.f0 0 (UInt32.ofNat payload.length) type streamId) payload

/-- A Set Chunk Size message. -/
def setChunkSize (size : UInt32) : Bytes := message 2 1 0 (Endian.toBE32 size)

/-- A command message with these values. -/
def command (values : List Amf0Data) : Bytes :=
  match Server.encode values with
  | .ok payload => message 3 20 0 payload
  | .error _ => []

def connect (app : String) : Bytes :=
  command [Server.str "connect", Server.num1,
    .object [(ascii "app", Server.str app)]]

def createStream : Bytes := command [Server.str "createStream", Server.num1, .null]

/-- A command whose only argument is a stream name. -/
def named (name stream : String) : Bytes :=
  command [Server.str name, Server.num1, .null, Server.str stream]

def publish (stream app : String) : Bytes :=
  command [Server.str "publish", Server.num1, .null, Server.str stream, Server.str app]

/-- An environment whose crypto library never succeeds. -/
def env : Env := { hmac := fun _ _ _ => none, rand := none, indeterminate := 0 }

/-- The steps that take a new connection through the handshake without digests. -/
def greet (x : SessionId) : List Label :=
  [.accept x, .receive x (3 :: List.replicate 1536 0), .shake x env,
    .receive x (List.replicate 1536 0), .shake x env]

/-- The steps by which a message of one chunk arrives and is handled. -/
def deliver (x : SessionId) (bytes : Bytes) : List Label :=
  [.receive x bytes, .parse x, .dispatch x env]

/-- The steps that connect a session and create its stream. -/
def enter (x : SessionId) (app : String) : List Label :=
  greet x ++ deliver x (connect app) ++ deliver x createStream

end Peer

end DroneServer
