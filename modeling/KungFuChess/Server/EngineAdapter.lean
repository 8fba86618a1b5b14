import KungFuChess.Server.State

/-!
# Engines on the server

`KungFuEngineAdapter` lets a player of one colour move, advances the clock, ends a game by
forfeit and takes snapshots; it gives no access to jumps. `KungFuEngineFactory` builds an
engine on the board of `input.txt`, which is read anew for every room.
-/

namespace KungFuChess

namespace GameEngine

/-! ### The adapter -/

/-- `MS_PER_CELL` of the adapter. -/
def msPerCell : Int := 1000

/-- How long a move takes on the server: a second for each cell of its longer axis. -/
def chebyshevDurationMs (startPos endPos : Position) : Int :=
  max |endPos.row - startPos.row| |endPos.col - startPos.col| * msPerCell

/-- A player of one colour asks for a move. Every refusal comes with its reason. -/
def tryPlayerMove (e : GameEngine) (color : Color) (startPos endPos : Position) :
    GameEngine × Bool × String :=
  if e.gameOver then (e, false, "game already over")
  else
    match e.board.getPiece startPos with
    -- an empty square is answered as a piece of the other colour is
    | none => (e, false, "not your piece")
    | some ref =>
      if (e.piece ref).color ≠ color then (e, false, "not your piece")
      else
        let moved := e.handleMoveRequest startPos endPos (chebyshevDurationMs startPos endPos)
        if moved.2 then (moved.1, true, "ok") else (moved.1, false, "illegal move")

/-- Something is in flight. -/
def hasActiveMotion (e : GameEngine) : Bool := e.arbiter.hasActiveMotion

/-- The game ends in favour of `winnerColor`, unless it has ended already. -/
def forceForfeit (e : GameEngine) (winnerColor : Color) : GameEngine :=
  if e.gameOver then e else { e with winner := some winnerColor, gameOver := true }

/-- What a client is told of the game in one message. -/
def snapshotState (e : GameEngine) (roomId : RoomId) : StateMessage where
  pieces := e.board.getAllPieces.map fun entry =>
    ⟨entry.1.row, entry.1.col, entry.2.color, entry.2.pieceType, entry.2.status⟩
  score := e.scoreboard.scores
  gameOver := e.gameOver
  winner := e.winner
  roomId := roomId

end GameEngine

/-! ### The factory -/

namespace InputTxtBoardLoader

/-- `line.strip()`. -/
def strip (line : String) : List Char :=
  ((line.toList.dropWhile BoardParser.isSpace).reverse.dropWhile BoardParser.isSpace).reverse

/-- The lines between `Board:` and `Commands:`, blank ones left out. -/
def boardLines : Bool → List String → List String
  | _, [] => []
  | inBoard, line :: lines =>
    let cleaned := strip line
    if cleaned = "Board:".toList then boardLines true lines
    else if "Commands:".toList.isPrefixOf cleaned then []
    else if inBoard ∧ cleaned ≠ [] then line :: boardLines inBoard lines
    else boardLines inBoard lines

/-- The board file is read anew for every room, and a malformed one is an exception. -/
def load (env : Env) (roomId : RoomId) : ServerM Board := do
  perform env (.readInputTxt roomId)
  match BoardParser.parseInitialBoard (boardLines false env.inputTxt) with
  | .ok board => return board
  | .error error => throw (.chessValidationError error)

end InputTxtBoardLoader

namespace GameService

/-- The engine of a room, on a fresh board. -/
def createEngineForRoom (env : Env) (roomId : RoomId) : ServerM Unit := do
  let board ← InputTxtBoardLoader.load env roomId
  modify fun s => s.setEngine roomId (GameEngine.new board)

/-- The `on_room_created` hook of the wiring. -/
def onRoomCreated (env : Env) (roomId : RoomId) : ServerM Unit := do
  let s ← get
  if s.engines.contains roomId then pure () else createEngineForRoom env roomId

end GameService

end KungFuChess
