import KungFuChess.Server.EngineAdapter

/-!
# The wire protocol

A frame is the text of a JSON object with a `type`. `decode` checks that much, and each
handler parses the fields it needs. `json.loads` is a parameter: the model sees the value it
returns, or how it fails.
-/

namespace KungFuChess

/-- A JSON value, as `json.loads` returns it. -/
inductive Json where
  | null
  | bool (b : Bool)
  | int (n : Int)
  /-- A finite float, by its value. -/
  | float (value : ℚ)
  | string (text : String)
  | array (items : List Json)
  /-- The pairs of the text, in the order in which they stand there. -/
  | object (fields : List (String × Json))

/-- How `json.loads` may fail; `other` is an exception that is no `JSONDecodeError`. -/
inductive LoadError where
  | jsonDecodeError (msg : String)
  | other
deriving DecidableEq, Repr

/-- A message that `decode` has accepted; its `type` is a non-empty string. -/
structure WireData where
  type : String
  fields : List (String × Json)

namespace Protocol

/-- `data.get(key)`: of two pairs with the same key the last one counts. -/
def get (fields : List (String × Json)) (key : String) : Option Json :=
  (fields.reverse.find? fun field => field.1 = key).map Prod.snd

/-- The exceptions of `decode`. -/
inductive DecodeError where
  | protocolError (message : String)
  | other
deriving DecidableEq, Repr

/-- `decode`: the object of a frame, if it is one and has a type. -/
def decode (loads : String → Except LoadError Json) (raw : String) :
    Except DecodeError WireData :=
  -- first the text, then the object, then its type
  match loads raw with
  | .error (.jsonDecodeError msg) => .error (.protocolError ("invalid JSON: " ++ msg))
  | .error .other => .error .other
  | .ok (.object fields) =>
    match get fields "type" with
    | some (.string type) =>
      if type = "" then .error (.protocolError "missing or invalid 'type'")
      else .ok ⟨type, fields⟩
    | _ => .error (.protocolError "missing or invalid 'type'")
  | .ok _ => .error (.protocolError "message must be a JSON object")

/-! ### The fields of a message

The parsers return the text of a `ProtocolError`, or what the message says. -/

/-- The first check of every `from_dict`. -/
def expectType (type : String) (data : WireData) : Except String Unit :=
  if data.type = type then .ok ()
  else .error ("expected type '" ++ type ++ "', got '" ++ data.type ++ "'")

/-- A position of a move: a list of two integers. -/
def parsePosition (value : Option Json) (fieldName : String) : Except String Position :=
  match value with
  | some (.array [.int row, .int col]) => .ok ⟨row, col⟩
  | _ => .error ("'" ++ fieldName ++ "' must be [row, col] integers")

/-- The two squares of a `move`, the start first. -/
def parseMove (data : WireData) : Except String (Position × Position) := do
  expectType "move" data
  let startPos ← parsePosition (get data.fields "start") "start"
  let endPos ← parsePosition (get data.fields "end") "end"
  return (startPos, endPos)

/-- `str.strip`. -/
def strip (text : String) : String := String.ofList (InputTxtBoardLoader.strip text)

/-- A string field that is not empty once `clean` has been applied; `clean` is the identity for
the fields that are checked as they are. -/
def stringField (clean : String → String) (key : String) (data : WireData) :
    Except String String :=
  match get data.fields key with
  | some (.string text) =>
    if clean text = "" then .error ("'" ++ key ++ "' must be a non-empty string")
    else .ok (clean text)
  | _ => .error ("'" ++ key ++ "' must be a non-empty string")

/-- The name and the password of a `login`. Only the name is stripped. -/
def parseLogin (data : WireData) : Except String (String × String) := do
  expectType "login" data
  let username ← stringField strip "username" data
  let password ← stringField id "password" data
  return (username, password)

/-- The token of an `auth`. -/
def parseAuth (data : WireData) : Except String String := do
  expectType "auth" data
  stringField id "token" data

/-- The room of a `room_join`, which may not be empty. -/
def parseRoomJoin (data : WireData) : Except String RoomId := do
  expectType "room_join" data
  let roomId ← stringField strip "room_id" data
  if h : roomId ≠ "" then return ⟨roomId, h⟩
  else throw "'room_id' must be a non-empty string"

end Protocol

end KungFuChess
