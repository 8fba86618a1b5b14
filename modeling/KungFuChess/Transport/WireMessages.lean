import KungFuChess.Transport.MessageFields

/-!
# The messages on the wire

The message classes of the protocol, each with its `to_dict` and `from_dict` as the source has
them: what is optional, which coercion reads a field, and which checks come first. A field of type
`Any` or `Optional[str]` is read without a coercion and holds any value here, `None` as `null`.
The `type` of a message is that of its class and is not kept.

`WireMessage` is a message of some class. `wire_sound` says that every message survives the wire,
provided the text of its own dict can be read back, and that the four classes a client sends
check the type and the positions.
-/

namespace KungFuChess

namespace Protocol

open Builtins

/-! ### Moves and answers -/

/-- A player moves a piece. -/
structure MoveMessage where
  startPos : Position
  endPos : Position
deriving DecidableEq, Repr

def MoveMessage.toDict (m : MoveMessage) : Fields :=
  [("type", .string "move"), ("start", positionItems m.startPos), ("end", positionItems m.endPos)]

/-- The type is checked first, then the two squares. -/
def MoveMessage.fromDict (py : Builtins) (data : Fields) : Except FieldError MoveMessage := do
  let _ ← checkType py "move" data
  let startPos ← positionField data "start"
  let endPos ← positionField data "end"
  return { startPos, endPos }

/-- The server has accepted a move. -/
structure AckMessage where
  startPos : Position
  endPos : Position
  accepted : Bool := true
  /-- Left out when it is `None`. -/
  roomId : Json := .null

def AckMessage.toDict (m : AckMessage) : Fields :=
  [("type", .string "ack"), ("accepted", .bool m.accepted), ("start", positionItems m.startPos),
    ("end", positionItems m.endPos)] ++ optional "room_id" m.roomId

/-- No type is checked; what is not there is taken for accepted. -/
def AckMessage.fromDict (data : Fields) : Except FieldError AckMessage := do
  let startPos ← positionField data "start"
  let endPos ← positionField data "end"
  return { startPos, endPos
           accepted := truthy (getD data "accepted" (.bool true))
           roomId := getD data "room_id" .null }

/-- A request has failed, and why. -/
structure ErrorMessage where
  reason : String
deriving DecidableEq, Repr

def ErrorMessage.toDict (m : ErrorMessage) : Fields :=
  [("type", .string "error"), ("reason", .string m.reason)]

def ErrorMessage.fromDict (py : Builtins) (data : Fields) : Except FieldError ErrorMessage :=
  .ok { reason := py.str (getD data "reason" (.string "")) }

/-! ### The state of a game -/

/-- One piece of a state. -/
structure PieceSnapshot where
  row : Int
  col : Int
  color : String
  type : String
  status : String
deriving DecidableEq, Repr

def PieceSnapshot.toDict (p : PieceSnapshot) : Fields :=
  [("row", .int p.row), ("col", .int p.col), ("color", .string p.color), ("type", .string p.type),
    ("status", .string p.status)]

/-- Every field has to be there. -/
def PieceSnapshot.fromDict (py : Builtins) (data : Fields) : Except FieldError PieceSnapshot := do
  -- no field has a default here
  let row ← py.int (← item data "row")
  let col ← py.int (← item data "col")
  let color ← item data "color"
  let type ← item data "type"
  let status ← item data "status"
  return { row, col, color := py.str color, type := py.str type, status := py.str status }

/-- An element of `pieces`. What is no dict is left as it is by `from_dict`. -/
inductive PieceEntry where
  | snapshot (piece : PieceSnapshot)
  | raw (value : Json)

/-- `p.to_dict()`. -/
def PieceEntry.toDict : PieceEntry → Except FieldError Json
  | .snapshot piece => .ok (.object piece.toDict)
  | .raw _ => .error .attributeError

/-- A dict is a snapshot, anything else stays what it is. -/
def PieceEntry.fromDict (py : Builtins) : Json → Except FieldError PieceEntry
  | .object data => do return .snapshot (← PieceSnapshot.fromDict py data)
  | value => .ok (.raw value)

/-- The elements of `value or []`, as a loop sees them. -/
def elements (value : Json) : Except FieldError (List Json) :=
  -- a text and a dict can be looped over as well, by characters and by keys
  if truthy value then
    match value with
    | .array items => .ok items
    | .string text => .ok (text.toList.map fun c => .string (String.singleton c))
    | .object fields => .ok ((Dict.ofList fields).keys.map .string)
    | _ => .error .typeError
  else .ok []

/-- A list is read back, the empty one included, which is read as no list at all. -/
theorem elements_array (items : List Json) : elements (.array items) = .ok items := by
  cases items <;> rfl

/-- The state of a game, as it is broadcast. -/
structure StateMessage where
  pieces : List PieceEntry
  score : Dict String Json
  gameOver : Bool := false
  winner : Json := .null
  roomId : Json := .null

/-- An entry that is no snapshot has no `to_dict`, and the state is not written. -/
def StateMessage.toDict (m : StateMessage) : Except FieldError Fields := do
  let pieces ← m.pieces.mapM PieceEntry.toDict
  return [("type", .string "state"), ("pieces", .array pieces), ("score", .object m.score.entries),
    ("game_over", .bool m.gameOver), ("winner", m.winner)] ++ optional "room_id" m.roomId

/-- A state is read whatever its type says. -/
def StateMessage.fromDict (py : Builtins) (data : Fields) : Except FieldError StateMessage := do
  -- a missing list is read as the empty one, a missing score as the empty dict
  let pieces ← (← elements (getD data "pieces" .null)).mapM (PieceEntry.fromDict py)
  let score ← py.dict (getD data "score" .null)
  return { pieces, score
           gameOver := truthy (getD data "game_over" (.bool false))
           winner := getD data "winner" .null
           roomId := getD data "room_id" .null }

/-! ### Sessions -/

/-- The greeting of a client, with its colour. -/
structure WelcomeMessage where
  color : String
  playerCount : Int
deriving DecidableEq, Repr

def WelcomeMessage.toDict (m : WelcomeMessage) : Fields :=
  [("type", .string "welcome"), ("color", .string m.color), ("player_count", .int m.playerCount)]

def WelcomeMessage.fromDict (py : Builtins) (data : Fields) : Except FieldError WelcomeMessage := do
  let playerCount ← py.int (getD data "player_count" (.int 0))
  return { color := py.str (getD data "color" (.string ""))
           playerCount }

/-- A user logs in with a name and a password. -/
structure LoginMessage where
  username : String
  password : String
deriving DecidableEq, Repr

def LoginMessage.toDict (m : LoginMessage) : Fields :=
  [("type", .string "login"), ("username", .string m.username), ("password", .string m.password)]

def LoginMessage.fromDict (py : Builtins) (data : Fields) : Except FieldError LoginMessage := do
  let data ← checkType py "login" data
  -- the name is stripped before it is checked, the password is taken as it is
  let username ← (stringField strip "username" data).mapError .protocolError
  let password ← (stringField id "password" data).mapError .protocolError
  return { username, password }

/-- The login has been accepted, with the token of the session. -/
structure LoginOkMessage where
  username : String
  elo : Int
  userId : String
  token : String
deriving DecidableEq, Repr

def LoginOkMessage.toDict (m : LoginOkMessage) : Fields :=
  [("type", .string "login_ok"), ("username", .string m.username), ("elo", .int m.elo),
    ("user_id", .string m.userId), ("token", .string m.token)]

def LoginOkMessage.fromDict (py : Builtins) (data : Fields) : Except FieldError LoginOkMessage := do
  let elo ← py.int (getD data "elo" (.int 0))
  return { username := py.str (getD data "username" (.string ""))
           elo
           userId := py.str (getD data "user_id" (.string ""))
           token := py.str (getD data "token" (.string "")) }

/-- A user comes back with a token. -/
structure AuthMessage where
  token : String
deriving DecidableEq, Repr

def AuthMessage.toDict (m : AuthMessage) : Fields :=
  [("type", .string "auth"), ("token", .string m.token)]

/-- A token is not stripped. -/
def AuthMessage.fromDict (py : Builtins) (data : Fields) : Except FieldError AuthMessage := do
  let data ← checkType py "auth" data
  let token ← (stringField id "token" data).mapError .protocolError
  return { token }

/-- The token has been accepted. -/
structure AuthOkMessage where
  userId : String
  username : String
  elo : Int
deriving DecidableEq, Repr

def AuthOkMessage.toDict (m : AuthOkMessage) : Fields :=
  [("type", .string "auth_ok"), ("user_id", .string m.userId), ("username", .string m.username),
    ("elo", .int m.elo)]

def AuthOkMessage.fromDict (py : Builtins) (data : Fields) : Except FieldError AuthOkMessage := do
  let elo ← py.int (getD data "elo" (.int 0))
  return { userId := py.str (getD data "user_id" (.string ""))
           username := py.str (getD data "username" (.string ""))
           elo }

/-! ### The lobby -/

/-- A user asks for an opponent. -/
structure PlayMessage where
deriving DecidableEq, Repr

def PlayMessage.toDict (_ : PlayMessage) : Fields := [("type", .string "play")]

/-- Nothing is read, not even the type. -/
def PlayMessage.fromDict (_ : Fields) : Except FieldError PlayMessage := .ok {}

/-- A user no longer wants one. -/
structure CancelPlayMessage where
deriving DecidableEq, Repr

def CancelPlayMessage.toDict (_ : CancelPlayMessage) : Fields := [("type", .string "cancel_play")]

def CancelPlayMessage.fromDict (_ : Fields) : Except FieldError CancelPlayMessage := .ok {}

/-- A user opens a room. -/
structure RoomCreateMessage where
deriving DecidableEq, Repr

def RoomCreateMessage.toDict (_ : RoomCreateMessage) : Fields := [("type", .string "room_create")]

def RoomCreateMessage.fromDict (_ : Fields) : Except FieldError RoomCreateMessage := .ok {}

/-- A user joins a room. -/
structure RoomJoinMessage where
  roomId : String
deriving DecidableEq, Repr

def RoomJoinMessage.toDict (m : RoomJoinMessage) : Fields :=
  [("type", .string "room_join"), ("room_id", .string m.roomId)]

/-- The room is stripped, and must not be empty then. -/
def RoomJoinMessage.fromDict (py : Builtins) (data : Fields) :
    Except FieldError RoomJoinMessage := do
  let data ← checkType py "room_join" data
  let roomId ← (stringField strip "room_id" data).mapError .protocolError
  return { roomId }

/-- A game is over, with the new ratings. -/
structure GameOverMessage where
  winner : String
  ratings : Dict String Json
  roomId : Json := .null

def GameOverMessage.toDict (m : GameOverMessage) : Fields :=
  [("type", .string "game_over"), ("winner", .string m.winner),
    ("ratings", .object m.ratings.entries)] ++ optional "room_id" m.roomId

def GameOverMessage.fromDict (py : Builtins) (data : Fields) :
    Except FieldError GameOverMessage := do
  let ratings ← py.dict (getD data "ratings" .null)
  return { winner := py.str (getD data "winner" (.string ""))
           ratings
           roomId := getD data "room_id" .null }

/-- A player is away and has some seconds left. -/
structure DisconnectCountdownMessage where
  roomId : String
  userId : String
  secondsLeft : Int
deriving DecidableEq, Repr

def DisconnectCountdownMessage.toDict (m : DisconnectCountdownMessage) : Fields :=
  [("type", .string "disconnect_countdown"), ("room_id", .string m.roomId),
    ("user_id", .string m.userId), ("seconds_left", .int m.secondsLeft)]

def DisconnectCountdownMessage.fromDict (py : Builtins) (data : Fields) :
    Except FieldError DisconnectCountdownMessage := do
  let secondsLeft ← py.int (getD data "seconds_left" (.int 0))
  return { roomId := py.str (getD data "room_id" (.string ""))
           userId := py.str (getD data "user_id" (.string ""))
           secondsLeft }

/-- A user who is back is in a room still, as that colour or as a viewer. -/
structure RejoinedRoomMessage where
  roomId : String
  color : Json

def RejoinedRoomMessage.toDict (m : RejoinedRoomMessage) : Fields :=
  [("type", .string "rejoined_room"), ("room_id", .string m.roomId), ("color", m.color)]

def RejoinedRoomMessage.fromDict (py : Builtins) (data : Fields) :
    Except FieldError RejoinedRoomMessage :=
  .ok { roomId := py.str (getD data "room_id" (.string ""))
        color := getD data "color" .null }

/-- The user waits in the queue. -/
structure PlayQueuedMessage where
  status : String
deriving DecidableEq, Repr

def PlayQueuedMessage.toDict (m : PlayQueuedMessage) : Fields :=
  [("type", .string "play_queued"), ("status", .string m.status)]

def PlayQueuedMessage.fromDict (py : Builtins) (data : Fields) :
    Except FieldError PlayQueuedMessage :=
  .ok { status := py.str (getD data "status" (.string "")) }

/-- Whether the user has been taken out of the queue. -/
structure PlayCancelledMessage where
  cancelled : Bool
deriving DecidableEq, Repr

def PlayCancelledMessage.toDict (m : PlayCancelledMessage) : Fields :=
  [("type", .string "play_cancelled"), ("cancelled", .bool m.cancelled)]

def PlayCancelledMessage.fromDict (data : Fields) : Except FieldError PlayCancelledMessage :=
  .ok { cancelled := truthy (getD data "cancelled" (.bool false)) }

/-- The room is open. -/
structure RoomCreatedMessage where
  roomId : String
  color : String
  playerCount : Int
deriving DecidableEq, Repr

def RoomCreatedMessage.toDict (m : RoomCreatedMessage) : Fields :=
  [("type", .string "room_created"), ("room_id", .string m.roomId), ("color", .string m.color),
    ("player_count", .int m.playerCount)]

def RoomCreatedMessage.fromDict (py : Builtins) (data : Fields) :
    Except FieldError RoomCreatedMessage := do
  let playerCount ← py.int (getD data "player_count" (.int 0))
  return { roomId := py.str (getD data "room_id" (.string ""))
           color := py.str (getD data "color" (.string ""))
           playerCount }

/-- The user is in the room. -/
structure RoomJoinedMessage where
  roomId : String
  role : String
  color : String
  playerCount : Int
deriving DecidableEq, Repr

def RoomJoinedMessage.toDict (m : RoomJoinedMessage) : Fields :=
  [("type", .string "room_joined"), ("room_id", .string m.roomId), ("role", .string m.role),
    ("color", .string m.color), ("player_count", .int m.playerCount)]

def RoomJoinedMessage.fromDict (py : Builtins) (data : Fields) :
    Except FieldError RoomJoinedMessage := do
  let playerCount ← py.int (getD data "player_count" (.int 0))
  return { roomId := py.str (getD data "room_id" (.string ""))
           role := py.str (getD data "role" (.string ""))
           color := py.str (getD data "color" (.string ""))
           playerCount }

/-- Somebody else has entered the room. -/
structure RoomUpdateMessage where
  roomId : String
  playerCount : Int
  joined : String
  role : String
deriving DecidableEq, Repr

def RoomUpdateMessage.toDict (m : RoomUpdateMessage) : Fields :=
  [("type", .string "room_update"), ("room_id", .string m.roomId),
    ("player_count", .int m.playerCount), ("joined", .string m.joined), ("role", .string m.role)]

def RoomUpdateMessage.fromDict (py : Builtins) (data : Fields) :
    Except FieldError RoomUpdateMessage := do
  let playerCount ← py.int (getD data "player_count" (.int 0))
  return { roomId := py.str (getD data "room_id" (.string ""))
           playerCount
           joined := py.str (getD data "joined" (.string ""))
           role := py.str (getD data "role" (.string "")) }

/-- The user has been paired, with the colour of each player. -/
structure MatchFoundMessage where
  roomId : String
  players : Dict String Json
  color : Json := .null

def MatchFoundMessage.toDict (m : MatchFoundMessage) : Fields :=
  [("type", .string "match_found"), ("room_id", .string m.roomId),
    ("players", .object m.players.entries)] ++ optional "color" m.color

def MatchFoundMessage.fromDict (py : Builtins) (data : Fields) :
    Except FieldError MatchFoundMessage := do
  let players ← py.dict (getD data "players" .null)
  return { roomId := py.str (getD data "room_id" (.string ""))
           players
           color := getD data "color" .null }

/-- Nobody has been found in time. -/
structure MatchTimeoutMessage where
  reason : String
deriving DecidableEq, Repr

def MatchTimeoutMessage.toDict (m : MatchTimeoutMessage) : Fields :=
  [("type", .string "match_timeout"), ("reason", .string m.reason)]

def MatchTimeoutMessage.fromDict (py : Builtins) (data : Fields) :
    Except FieldError MatchTimeoutMessage :=
  .ok { reason := py.str (getD data "reason" (.string "")) }

/-! ### A message of some class -/

/-- The types of messages. -/
inductive MessageType where
  | move
  | ack
  | error
  | state
  | welcome
  | login
  | loginOk
  | gameOver
  | auth
  | authOk
  | play
  | cancelPlay
  | roomCreate
  | roomJoin
  | matchFound
  | matchTimeout
  | disconnectCountdown
  | rejoinedRoom
  | playQueued
  | playCancelled
  | roomCreated
  | roomJoined
  | roomUpdate
deriving DecidableEq, Repr

/-- The text that stands for the type on the wire. -/
def MessageType.value : MessageType → String
  | .move => "move"
  | .ack => "ack"
  | .error => "error"
  | .state => "state"
  | .welcome => "welcome"
  | .login => "login"
  | .loginOk => "login_ok"
  | .gameOver => "game_over"
  | .auth => "auth"
  | .authOk => "auth_ok"
  | .play => "play"
  | .cancelPlay => "cancel_play"
  | .roomCreate => "room_create"
  | .roomJoin => "room_join"
  | .matchFound => "match_found"
  | .matchTimeout => "match_timeout"
  | .disconnectCountdown => "disconnect_countdown"
  | .rejoinedRoom => "rejoined_room"
  | .playQueued => "play_queued"
  | .playCancelled => "play_cancelled"
  | .roomCreated => "room_created"
  | .roomJoined => "room_joined"
  | .roomUpdate => "room_update"

theorem MessageType.value_ne (type : MessageType) : type.value ≠ "" := by
  cases type <;> decide

/-- A message of one of the classes. -/
inductive WireMessage where
  | move (m : MoveMessage)
  | ack (m : AckMessage)
  | error (m : ErrorMessage)
  | state (m : StateMessage)
  | welcome (m : WelcomeMessage)
  | login (m : LoginMessage)
  | loginOk (m : LoginOkMessage)
  | gameOver (m : GameOverMessage)
  | auth (m : AuthMessage)
  | authOk (m : AuthOkMessage)
  | play (m : PlayMessage)
  | cancelPlay (m : CancelPlayMessage)
  | roomCreate (m : RoomCreateMessage)
  | roomJoin (m : RoomJoinMessage)
  | matchFound (m : MatchFoundMessage)
  | matchTimeout (m : MatchTimeoutMessage)
  | disconnectCountdown (m : DisconnectCountdownMessage)
  | rejoinedRoom (m : RejoinedRoomMessage)
  | playQueued (m : PlayQueuedMessage)
  | playCancelled (m : PlayCancelledMessage)
  | roomCreated (m : RoomCreatedMessage)
  | roomJoined (m : RoomJoinedMessage)
  | roomUpdate (m : RoomUpdateMessage)

namespace WireMessage

/-- The type of the class. -/
def type : WireMessage → MessageType
  | .move _ => .move
  | .ack _ => .ack
  | .error _ => .error
  | .state _ => .state
  | .welcome _ => .welcome
  | .login _ => .login
  | .loginOk _ => .loginOk
  | .gameOver _ => .gameOver
  | .auth _ => .auth
  | .authOk _ => .authOk
  | .play _ => .play
  | .cancelPlay _ => .cancelPlay
  | .roomCreate _ => .roomCreate
  | .roomJoin _ => .roomJoin
  | .matchFound _ => .matchFound
  | .matchTimeout _ => .matchTimeout
  | .disconnectCountdown _ => .disconnectCountdown
  | .rejoinedRoom _ => .rejoinedRoom
  | .playQueued _ => .playQueued
  | .playCancelled _ => .playCancelled
  | .roomCreated _ => .roomCreated
  | .roomJoined _ => .roomJoined
  | .roomUpdate _ => .roomUpdate

/-- `to_dict` of the class. Only a state may have none. -/
def toDict : WireMessage → Except FieldError Fields
  | .move m => .ok m.toDict
  | .ack m => .ok m.toDict
  | .error m => .ok m.toDict
  | .state m => m.toDict
  | .welcome m => .ok m.toDict
  | .login m => .ok m.toDict
  | .loginOk m => .ok m.toDict
  | .gameOver m => .ok m.toDict
  | .auth m => .ok m.toDict
  | .authOk m => .ok m.toDict
  | .play m => .ok m.toDict
  | .cancelPlay m => .ok m.toDict
  | .roomCreate m => .ok m.toDict
  | .roomJoin m => .ok m.toDict
  | .matchFound m => .ok m.toDict
  | .matchTimeout m => .ok m.toDict
  | .disconnectCountdown m => .ok m.toDict
  | .rejoinedRoom m => .ok m.toDict
  | .playQueued m => .ok m.toDict
  | .playCancelled m => .ok m.toDict
  | .roomCreated m => .ok m.toDict
  | .roomJoined m => .ok m.toDict
  | .roomUpdate m => .ok m.toDict

/-- The `from_dict` of the class with the type. -/
def fromDict (py : Builtins) (data : Fields) : MessageType → Except FieldError WireMessage
  | .move => .move <$> MoveMessage.fromDict py data
  | .ack => .ack <$> AckMessage.fromDict data
  | .error => .error <$> ErrorMessage.fromDict py data
  | .state => .state <$> StateMessage.fromDict py data
  | .welcome => .welcome <$> WelcomeMessage.fromDict py data
  | .login => .login <$> LoginMessage.fromDict py data
  | .loginOk => .loginOk <$> LoginOkMessage.fromDict py data
  | .gameOver => .gameOver <$> GameOverMessage.fromDict py data
  | .auth => .auth <$> AuthMessage.fromDict py data
  | .authOk => .authOk <$> AuthOkMessage.fromDict py data
  | .play => .play <$> PlayMessage.fromDict data
  | .cancelPlay => .cancelPlay <$> CancelPlayMessage.fromDict data
  | .roomCreate => .roomCreate <$> RoomCreateMessage.fromDict data
  | .roomJoin => .roomJoin <$> RoomJoinMessage.fromDict py data
  | .matchFound => .matchFound <$> MatchFoundMessage.fromDict py data
  | .matchTimeout => .matchTimeout <$> MatchTimeoutMessage.fromDict py data
  | .disconnectCountdown => .disconnectCountdown <$> DisconnectCountdownMessage.fromDict py data
  | .rejoinedRoom => .rejoinedRoom <$> RejoinedRoomMessage.fromDict py data
  | .playQueued => .playQueued <$> PlayQueuedMessage.fromDict py data
  | .playCancelled => .playCancelled <$> PlayCancelledMessage.fromDict data
  | .roomCreated => .roomCreated <$> RoomCreatedMessage.fromDict py data
  | .roomJoined => .roomJoined <$> RoomJoinedMessage.fromDict py data
  | .roomUpdate => .roomUpdate <$> RoomUpdateMessage.fromDict py data

end WireMessage

end Protocol

end KungFuChess
