import DroneServer.Media

/-! # JSON values

What the websocket side uses of `nlohmann::json`: looking members up, reading a
string, a boolean or a number, and building replies. Text is parsed and printed
by the library itself, so the two functions are a parameter.

A failed look-up or conversion throws a `json::exception`. The other exceptions a
handler can meet are named here as well, since the clauses that catch them stand
next to each other in the source.
-/

namespace DroneServer

/-- How a computation on the client's thread ends other than by returning. -/
inductive Failure where
  /-- `json::exception`: text that does not parse, a look-up in or a conversion of a value of
      another type. -/
  | json
  /-- `std::out_of_range`, of `std::stoul` or of `std::map::at`. -/
  | outOfRange
  /-- `websocketpp::exception`, of sending on or closing a connection. -/
  | endpoint
  /-- An exception of the database client. -/
  | database
  /-- An exception of loading the cascade classifier. -/
  | classifier
  /-- A call through a null pointer, which no clause catches. -/
  | nullDereference
  deriving DecidableEq, Repr

/-- A value. The members of an object stand in the order of their keys, as in `std::map`. -/
inductive Json where
  | null
  | boolean (value : Bool)
  | unsigned (value : UInt64)
  | integer (value : Int64)
  /-- The bits of the `double`. -/
  | float (bits : UInt64)
  | string (value : Bytes)
  | array (items : List Json)
  | object (members : List (Bytes × Json))

/-- `json::parse`, which may fail, and `dump`. Parsed strings are UTF-8, so printing them does not
    fail. -/
structure JsonText where
  parse : Bytes → Option Json
  dump : Json → Bytes

namespace Json

/-- A string literal of the source as a value. -/
def str (text : String) : Json := .string (ascii text)

/-- A reply: an object of a type and its data. -/
def reply (type : String) (data : Json) : Json :=
  .object [(ascii "data", data), (ascii "type", str type)]

/-- `j[key]`. A missing member is made with the value null, and null itself turns into an object; what
    is read is null either way, and nothing of this shows later. -/
def field (j : Json) (key : String) : Except Failure Json :=
  match j with
  | .null => .ok .null
  | .object members => .ok ((members.lookup (ascii key)).getD .null)
  | _ => .error .json

/-- `j == text`. -/
def Is (j : Json) (text : String) : Prop :=
  match j with
  | .string value => value = ascii text
  | _ => False

instance (j : Json) (text : String) : Decidable (j.Is text) := by
  unfold Is
  split <;> infer_instance

def getString : Json → Except Failure Bytes
  | .string value => .ok value
  | _ => .error .json

def getBool : Json → Except Failure Bool
  | .boolean value => .ok value
  | _ => .error .json

/-- A `double` as an `int`, rounded towards zero. What does not fit is undefined in the source; here
    it is the least `int`. -/
def truncate (bits : UInt64) : Int32 :=
  let exponent := bits.toNat / 2 ^ 52 % 2 ^ 11
  let mantissa := 2 ^ 52 + bits.toNat % 2 ^ 52
  if exponent < 1023 then 0
  else if 1023 + 31 ≤ exponent then Int32.minValue
  else
    let magnitude := Int32.ofNat (mantissa / 2 ^ (52 - (exponent - 1023)))
    if bits.toNat / 2 ^ 63 = 1 then -magnitude else magnitude

/-- The value of a number as an `int`, which is how an enumeration is read. -/
def getInt : Json → Except Failure Int32
  | .unsigned value => .ok value.toUInt32.toInt32
  | .integer value => .ok value.toInt32
  | .float bits => .ok (truncate bits)
  | _ => .error .json

/-- `j[outer][inner]`. -/
def field₂ (j : Json) (outer inner : String) : Except Failure Json := do
  (← j.field outer).field inner

/-- `j["data"][key]` as a string. -/
def dataString (j : Json) (key : String) : Except Failure Bytes := do
  (← j.field₂ "data" key).getString

/-- `j["data"]["ctype"]` as the number of an enumerator. -/
def ctype (j : Json) : Except Failure Int32 := do
  (← j.field₂ "data" "ctype").getInt

/-- The string `cid_from_hex` is called with. -/
def droneHex (j : Json) : Except Failure Bytes := j.dataString "drone_stream_id"

/-- `cid_from_hex(j["data"]["drone_stream_id"])`. -/
def droneId (j : Json) : Except Failure ClientId := do
  match cidFromHex (← j.droneHex) with
  | .ok id => .ok id
  | .error _ => .error .outOfRange

/-- `bool state = j["data"]["state"]`. -/
def droneState (j : Json) : Except Failure Bool := do
  (← j.field₂ "data" "state").getBool

/-- `j["data"]` as a condition. -/
def saveState (j : Json) : Except Failure Bool := do
  (← j.field "data").getBool

theorem field_error {j : Json} {key : String} {e : Failure} (failed : j.field key = .error e) :
    e = .json := by
  unfold field at failed
  split at failed <;> cases failed
  rfl

theorem Is.string {j : Json} {text : String} (is : j.Is text) : j = str text := by
  unfold Is at is
  split at is
  · rw [is]
    rfl
  · cases is

theorem Is.other {j : Json} {text other : String} (is : j.Is text)
    (apart : ascii text ≠ ascii other) : ¬ j.Is other := by
  rw [is.string]
  exact apart

end Json

/-- Two lower-case digits of a byte. -/
def hexDigits (byte : UInt8) : Bytes :=
  let digit (n : UInt8) : UInt8 := if n < 10 then 0x30 + n else 0x61 + (n - 10)
  [digit (byte / 16), digit (byte % 16)]

/-- `cid_to_hex`: eight digits. -/
def cidToHex (id : ClientId) : Bytes := (Endian.toBE32 id).flatMap hexDigits

end DroneServer
