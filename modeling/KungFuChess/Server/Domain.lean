import Mathlib.Data.Rat.Floor
import KungFuChess.Engine.GameEngine

/-!
# The domain of the server

Users, rooms and their members, queue entries and game results, and the Elo rule. Room
and user identifiers are non-empty strings: `secrets.token_hex` and `uuid4` produce no
empty string, and the handlers reject an empty one before it reaches a service.
-/

namespace KungFuChess

/-- The identifier of a user. -/
structure UserId where
  text : String
  nonempty : text ≠ "" := by decide
deriving DecidableEq, Repr

/-- The identifier of a room. -/
structure RoomId where
  text : String
  nonempty : text ≠ "" := by decide
deriving DecidableEq, Repr

/-- What a member of a room may do: play one of the colours, or watch. -/
inductive PlayerRole where
  | white
  | black
  | viewer
deriving DecidableEq, Repr

/-- Whether a member's connection is up. -/
inductive ConnectionStatus where
  | connected
  | disconnected
deriving DecidableEq, Repr

/-- A row of the table `users`, as far as the services read it. -/
structure User where
  userId : UserId
  username : String
  elo : Int
deriving DecidableEq, Repr

/-- A finished game, as it is recorded. -/
structure GameResult where
  roomId : RoomId
  whiteId : UserId
  blackId : UserId
  winner : Color
  whiteEloBefore : Int
  blackEloBefore : Int
  whiteEloAfter : Int
  blackEloAfter : Int
  endedAt : Option ℚ := none
deriving DecidableEq, Repr

/-- A user who waits for an opponent, with their rating at the time they queued. -/
structure QueueEntry where
  userId : UserId
  elo : Int
  enqueuedAt : ℚ
deriving DecidableEq, Repr

/-- A user in a room. -/
structure RoomMember where
  userId : UserId
  role : PlayerRole
  status : ConnectionStatus := .connected
  /-- Set while the user is away: when the game is lost by absence. -/
  disconnectDeadline : Option ℚ := none
deriving DecidableEq, Repr

/-- A room and who is in it, in the order of joining. -/
structure Room where
  roomId : RoomId
  members : Dict UserId RoomMember := Dict.empty
  /-- The result has been applied to the ratings. -/
  eloUpdated : Bool := false
  gameStarted : Bool := false

/-- The members with a player role, in joining order. -/
def Room.players (room : Room) : List RoomMember :=
  (room.members.entries.map Prod.snd).filter fun m => m.role = .white ∨ m.role = .black

/-! ### Elo -/

/-- `round`: to the nearest integer, to the even one half way between two. -/
def roundHalfEven (x : ℚ) : Int :=
  if x - ⌊x⌋ < 1 / 2 then ⌊x⌋
  else if 1 / 2 < x - ⌊x⌋ then ⌊x⌋ + 1
  else if ⌊x⌋ % 2 = 0 then ⌊x⌋ else ⌊x⌋ + 1

/-- `calc_elo`. The source computes `expected_winner` from the two ratings as a floating
point power; here it is a parameter. -/
def calcElo (expectedWinner : Int → Int → ℚ) (winnerElo loserElo k : Int) : Int × Int :=
  let expectedLoser := 1 - expectedWinner winnerElo loserElo
  (roundHalfEven (winnerElo + k * (1 - expectedWinner winnerElo loserElo)),
    roundHalfEven (loserElo + k * (0 - expectedLoser)))

/-! ### Messages -/

/-- One piece as a client is shown it. -/
structure PieceSnapshot where
  row : Int
  col : Int
  color : Color
  type : PieceType
  status : PieceStatus
deriving DecidableEq, Repr

/-- The whole game as a client is shown it. -/
structure StateMessage where
  pieces : List PieceSnapshot
  /-- The scores of White and of Black. -/
  score : Int × Int
  gameOver : Bool
  winner : Option Color
  roomId : RoomId
deriving DecidableEq, Repr

/-- The messages the services build. -/
inductive Message where
  | state (snapshot : StateMessage)
  | gameOver (winner : Color) (ratings : List (String × Int)) (roomId : RoomId)
  | disconnectCountdown (roomId : RoomId) (userId : UserId) (secondsLeft : Int)
  | playQueued (status : String)
  | playCancelled (cancelled : Bool)
  | roomCreated (roomId : RoomId) (color : PlayerRole) (playerCount : Nat)
  | roomJoined (roomId : RoomId) (role color : PlayerRole) (playerCount : Nat)
  | roomUpdate (roomId : RoomId) (playerCount : Nat) (joined : UserId) (role : PlayerRole)
  | matchFound (roomId : RoomId) (white black : UserId) (color : PlayerRole)
  | matchTimeout (reason : String)
deriving DecidableEq, Repr

/-- The answer to a command of the lobby, and what the others are told. -/
structure CommandOutcome where
  ok : Bool
  reason : String := ""
  payload : Option Message := none
  broadcastUserIds : List UserId := []
  broadcastPayload : Option Message := none
deriving DecidableEq, Repr

/-- The answer to a move, and what the room is told. -/
structure MoveOutcome where
  ok : Bool
  reason : String := ""
  roomId : Option RoomId := none
  startPos : Option Position := none
  endPos : Option Position := none
  memberIds : List UserId := []
deriving DecidableEq, Repr

end KungFuChess
