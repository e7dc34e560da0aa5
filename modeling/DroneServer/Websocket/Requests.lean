import DroneServer.Websocket.Client

/-! # The other side of a websocket

What a client sends: requests as values and as texts, and a JSON library for a few
given values, which prints them compactly and parses what it printed.
-/

namespace DroneServer

namespace Requests

def quoted (text : Bytes) : Bytes := 0x22 :: text ++ [0x22]

mutual

/-- The text of a value whose strings need no escapes. There are no floats in the requests. -/
def print : Json → Bytes
  | .null | .float _ => ascii "null"
  | .boolean value => ascii (if value then "true" else "false")
  | .unsigned value => ascii (toString value.toNat)
  | .integer value => ascii (toString value.toInt)
  | .string value => quoted value
  | .array items => 0x5b :: printItems items ++ [0x5d]
  | .object members => 0x7b :: printMembers members ++ [0x7d]

def printItems : List Json → Bytes
  | [] => []
  | [item] => print item
  | item :: items => print item ++ 0x2c :: printItems items

def printMembers : List (Bytes × Json) → Bytes
  | [] => []
  | [(key, value)] => quoted key ++ 0x3a :: print value
  | (key, value) :: members => quoted key ++ 0x3a :: print value ++ 0x2c :: printMembers members

end

/-- The library, for these values. -/
def library (values : List Json) : JsonText where
  parse msg := values.find? fun j => print j = msg
  dump := print

/-- A hello of an operator. -/
def helloOperator : Json :=
  .object [(ascii "data", .object [(ascii "ctype", .unsigned 1)]), (ascii "type", Json.str "hello")]

/-- A request that names a drone and a state. -/
def set (type drone : String) (state : Bool) : Json :=
  .object [(ascii "data", .object [(ascii "drone_stream_id", Json.str drone),
    (ascii "state", .boolean state)]), (ascii "type", Json.str type)]

end Requests

end DroneServer
