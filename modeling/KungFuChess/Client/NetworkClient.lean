import KungFuChess.Transport.WireMessages

/-!
# The network side of the client

`NetworkClient` runs a thread that reads the frames of the server. A frame is decoded, the
handler of its type notes what the window asks for at any time, which is the colour and the role
of the user, and puts the frame on the queue `events` under the name of an event. The window
takes the events from there, later and in its own thread.

The other fields of the source (the name and the rating, the last state, the status texts) are
shown or not read at all, and are left out. What is sent is kept in `sent`.
-/

namespace KungFuChess

open Protocol

/-- The names of the events. -/
inductive EventName where
  | connected
  | loginOk
  | authOk
  | enterGame
  | playQueued
  | playCancelled
  | matchTimeout
  | disconnectCountdown
  | ack
  | state
  | gameOver
  | error
  | welcome
  | roomUpdate
  | message
deriving DecidableEq, Repr

/-- An event: its name and the dict of the frame. -/
abbrev ClientEvent := EventName × Fields

/-- What the client keeps of the network. -/
structure NetworkClient where
  /-- There is a socket. -/
  connected : Bool := false
  /-- The colour of the user, as the server has said it. -/
  color : Json := .null
  /-- The role of the user, likewise. -/
  role : Json := .null
  /-- The queue, the oldest event first. -/
  events : List ClientEvent := []
  /-- The frames sent so far. The code does not read them. -/
  sent : List WireMessage := []
  /-- The names and passwords of the login threads that are running. -/
  logins : List (String × String) := []

namespace NetworkClient

variable (net : NetworkClient) (data : Fields)

/-- `self.events.put((name, data))`. -/
def put (name : EventName) : NetworkClient := { net with events := net.events ++ [(name, data)] }

/-! ### The handlers -/

def onLoginOk : NetworkClient := net.put data .loginOk

def onAuthOk : NetworkClient := net.put data .authOk

/-- `room_created`: who creates a room has a colour and no other role. -/
def onRoomCreated : NetworkClient :=
  { net with color := getD data "color" .null, role := getD data "color" .null }.put data .enterGame

/-- `room_joined`: the role may be that of a viewer. -/
def onRoomJoined : NetworkClient :=
  { net with color := getD data "color" .null, role := getD data "role" .null }.put data .enterGame

/-- The role stays what it was. -/
def onRejoined : NetworkClient :=
  { net with color := getD data "color" .null }.put data .enterGame

def onPlayQueued : NetworkClient := net.put data .playQueued

def onPlayCancelled : NetworkClient := net.put data .playCancelled

def onMatchFound : NetworkClient :=
  { net with color := getD data "color" .null, role := getD data "color" .null }.put data .enterGame

def onMatchTimeout : NetworkClient := net.put data .matchTimeout

def onDisconnectCountdown : NetworkClient := net.put data .disconnectCountdown

def onAck : NetworkClient := net.put data .ack

def onState : NetworkClient := net.put data .state

def onGameOver : NetworkClient := net.put data .gameOver

def onError : NetworkClient := net.put data .error

def onWelcome : NetworkClient := { net with color := getD data "color" .null }.put data .welcome

def onRoomUpdate : NetworkClient := net.put data .roomUpdate

end NetworkClient

namespace NetworkClient

/-- The table in `_handle_raw`. -/
def handlers : List (String × (NetworkClient → Fields → NetworkClient)) :=
  [("login_ok", onLoginOk), ("auth_ok", onAuthOk), ("room_created", onRoomCreated),
    ("room_joined", onRoomJoined), ("rejoined_room", onRejoined), ("play_queued", onPlayQueued),
    ("play_cancelled", onPlayCancelled), ("match_found", onMatchFound),
    ("match_timeout", onMatchTimeout), ("disconnect_countdown", onDisconnectCountdown),
    ("ack", onAck), ("state", onState), ("game_over", onGameOver), ("error", onError),
    ("welcome", onWelcome), ("room_update", onRoomUpdate)]

/-- What `_handle_raw` does with a frame that has been decoded. -/
def handle (net : NetworkClient) (data : WireData) : NetworkClient :=
  match handlers.lookup data.type with
  | some handler => handler net data.fields
  | none => net.put data.fields .message

/-- The socket is open. -/
def opened (net : NetworkClient) : NetworkClient :=
  { net with connected := true }.put [] .connected

/-- The socket is closed. -/
def closed (net : NetworkClient) : NetworkClient := { net with connected := false }

/-- `_handle_raw`. An exception that is no `ProtocolError` ends the connection; the reason it is
reported with quotes it and is left out. -/
def handleRaw (loads : String → Except LoadError Json) (net : NetworkClient) (raw : String) :
    NetworkClient :=
  match decode loads raw with
  | .error (.protocolError message) =>
    net.put [("reason", .string ("Bad message: " ++ message))] .error
  | .error .other => net.closed.put [] .error
  | .ok data => net.handle data

/-! ### Sending -/

/-- `_send(encode(...))`. -/
def send (net : NetworkClient) (message : WireMessage) : NetworkClient :=
  if net.connected then { net with sent := net.sent ++ [message] }
  else net.put [("reason", .string "Not connected to server")] .error

/-- A request for an opponent. -/
def play (net : NetworkClient) : NetworkClient := net.send (.play {})

/-- A request for none any more. -/
def cancelPlay (net : NetworkClient) : NetworkClient := net.send (.cancelPlay {})

/-- A request for a room of the user's own. -/
def createRoom (net : NetworkClient) : NetworkClient := net.send (.roomCreate {})

/-- A request for a seat in a room. -/
def joinRoom (net : NetworkClient) (roomId : String) : NetworkClient :=
  net.send (.roomJoin { roomId := roomId })

/-- A request for a move. -/
def sendMove (net : NetworkClient) (startPos endPos : Position) : NetworkClient :=
  net.send (.move { startPos := startPos, endPos := endPos })

def resetGameSession (net : NetworkClient) : NetworkClient :=
  { net with color := .null, role := .null }

/-- `login` starts a thread. -/
def login (net : NetworkClient) (username password : String) : NetworkClient :=
  { net with logins := net.logins ++ [(username, password)] }

/-- How the request of the login thread ends. -/
inductive HttpResponse where
  | answered (data : Fields)
  /-- An `HTTPError`, with the reason read from its body. -/
  | refused (reason : String)
  /-- Any other exception. -/
  | failed

/-- The rest of the login thread, once its request has ended. -/
def httpLogin (py : Builtins) (net : NetworkClient) (username password : String) :
    HttpResponse → NetworkClient
  | .refused reason => net.put [("reason", .string reason)] .error
  -- the stack may have no HTTP gateway
  | .failed => net.send (.login { username := username, password := password })
  | .answered data =>
    if Builtins.truthy (getD data "ok" .null) then
      let token := getD data "token" .null
      if Builtins.truthy token then (net.onLoginOk data).send (.auth { token := py.str token })
      else net.onLoginOk data
    else
      let error := getD data "error" .null
      let reason := if Builtins.truthy error then py.str error else "login failed"
      net.put [("reason", .string reason)] .error

end NetworkClient

end KungFuChess
