import KungFuChess.Client.NetworkClient
import KungFuChess.Engine.Controller

/-!
# The window of the client

`ChessGameController` is the loop that draws the window: it takes the events from the queue of
`NetworkClient`, moves the pieces that are on their way, and turns clicks and keys into requests.

The board it draws is of the same class as the board of the engine, but its pieces are made from
the texts of a `state` frame, so their colour and type are texts here, and whatever the frame says
is taken. Two frames write the board. A `state` replaces it, and an `ack` sets the piece on the
start square `MOVING` and starts an animation, which `_update_motions` puts down on the end square
when its time is up. An exception in a handler ends the program.

The status line and the drawing are left out. `mapper` is left out too: it is made anew whenever
`board` is, and reads nothing but the size of the board.
-/

namespace KungFuChess

open Protocol

/-! ### The board that is shown -/

/-- A piece of the window: texts, and whether it is under way. -/
structure ClientPiece where
  pieceId : String
  color : String
  pieceType : String
  status : PieceStatus := .idle
deriving DecidableEq, Repr

/-- `piece.status in (PieceStatus.MOVING, PieceStatus.JUMPING)`. -/
def PieceStatus.isBusy (status : PieceStatus) : Bool := status = .moving || status = .jumping

/-- The board of the window, always of the size of a chessboard at first. -/
structure ClientBoard where
  numRows : Nat := 8
  numCols : Nat := 8
  grid : Dict Position PieceRef := Dict.empty
  /-- What each piece object currently is. -/
  piece : PieceRef → ClientPiece := fun _ => { pieceId := "", color := "", pieceType := "" }

namespace ClientBoard

/-- `get_piece`. -/
def getPiece (board : ClientBoard) (position : Position) : Option PieceRef :=
  board.grid.get? position

/-- The piece object a square refers to, dereferenced. -/
def pieceAt (board : ClientBoard) (position : Position) : Option ClientPiece :=
  (board.getPiece position).map board.piece

/-- `set_piece`. -/
def setPiece (board : ClientBoard) (position : Position) : Option PieceRef → ClientBoard
  | none => { board with grid := board.grid.pop position }
  | some ref => { board with grid := board.grid.set position ref }

/-- `piece.status = status`. -/
def setStatus (board : ClientBoard) (ref : PieceRef) (status : PieceStatus) : ClientBoard :=
  { board with
    piece := Function.update board.piece ref { board.piece ref with status := status } }

/-- `board.set_piece(position, Piece(...))`: a new object, placed where it is created. -/
def createPiece (board : ClientBoard) (position : Position) (piece : ClientPiece) : ClientBoard :=
  { board with piece := Function.update board.piece ⟨position⟩ piece }.setPiece position
    (some ⟨position⟩)

/-- `BoardMapper(self.board).to_position(x, y)`. -/
def toPosition (board : ClientBoard) (x y : Int) : Option Position :=
  BoardMapper.toPosition (Board.new board.numRows board.numCols) x y

end ClientBoard

/-- The letter of a piece type, as the parser and a promotion write it. -/
def PieceType.letter : PieceType → String
  | .k => "k"
  | .q => "q"
  | .r => "r"
  | .b => "b"
  | .n => "n"
  | .p => "p"

/-- `PieceStatus.name`. -/
def PieceStatus.name : PieceStatus → String
  | .idle => "IDLE"
  | .moving => "MOVING"
  | .jumping => "JUMPING"
  | .captured => "CAPTURED"

/-- `PieceStatus[name]`, and `IDLE` for a `KeyError`. -/
def PieceStatus.ofName (name : String) : PieceStatus :=
  if name = "MOVING" then .moving
  else if name = "JUMPING" then .jumping
  else if name = "CAPTURED" then .captured
  else .idle

/-- A piece as texts. -/
def Piece.texts (piece : Piece) : ClientPiece :=
  { pieceId := piece.pieceId, color := piece.color.letter, pieceType := piece.pieceType.letter
    status := piece.status }

/-- A board of the parser, with its pieces as texts. -/
def Board.texts (board : Board) : ClientBoard :=
  { numRows := board.numRows, numCols := board.numCols, grid := board.grid
    piece := fun ref => (board.piece ref).texts }

/-! ### The window -/

/-- The screens of the window. -/
inductive Screen where
  | login
  | lobby
  | join
  | game
deriving DecidableEq, Repr

/-- The field of the login form that takes the keys. -/
inductive LoginFocus where
  | username
  | password
deriving DecidableEq, Repr

/-- The window, with the network behind it. -/
structure ChessGameController where
  net : NetworkClient := {}
  screen : Screen := .login
  username : String := ""
  password : String := ""
  joinRoomId : String := ""
  loginFocus : LoginFocus := .username
  /-- The board that is drawn. There is none outside a game. -/
  board : Option ClientBoard := none
  /-- The square of the first click. -/
  selected : Option Position := none
  /-- The scores of White and of Black. -/
  score : Int × Int := (0, 0)
  gameOver : Bool := false
  winner : Json := .null
  myColor : Json := .null
  /-- The animations that are under way. -/
  activeMotions : List Motion := []
  motionCounter : Nat := 0

namespace ChessGameController

/-! ### Boards -/

/-- `load_board_from_file`, with the lines of `input.txt`, if the file can be read. The loop over
the lines is that of the server. -/
def loadBoardFromFile (inputTxt : Option (List String)) : Option ClientBoard :=
  inputTxt.bind fun lines =>
    match BoardParser.parseInitialBoard (InputTxtBoardLoader.boardLines false lines) with
    | .ok board => some board.texts
    | .error _ => none

/-- The loop body of `board_from_state`. What is no dict has no attribute `row`. -/
def placePiece (py : Builtins) (board : ClientBoard) : Json → Except FieldError ClientBoard
  | .object raw => do
    let row ← py.int (← item raw "row")
    let col ← py.int (← item raw "col")
    let color := py.str (← item raw "color")
    let pieceType := py.str (← item raw "type")
    let status := PieceStatus.ofName (py.str (getD raw "status" (.string "IDLE")))
    return board.createPiece ⟨row, col⟩
      { pieceId := color ++ pieceType ++ toString row ++ toString col
        color := color
        pieceType := pieceType
        -- local motions drive the animation
        status := if status.isBusy then .idle else status }
  | _ => .error .attributeError

/-- `board_from_state`: the pieces one after the other, on an empty board. -/
def boardFromState (py : Builtins) (pieces : Json) : Except FieldError ClientBoard := do
  (← elements pieces).foldlM (placePiece py) {}

/-- `_enter_game`: a new game begins with the board of the file. -/
def enterGame (inputTxt : Option (List String)) (gc : ChessGameController) : ChessGameController :=
  { gc with
    screen := .game
    selected := none
    gameOver := false
    winner := .null
    score := (0, 0)
    myColor := gc.net.color
    activeMotions := []
    motionCounter := 0
    board := loadBoardFromFile inputTxt }

/-- `_back_to_lobby`. -/
def backToLobby (gc : ChessGameController) : ChessGameController :=
  { gc with
    net := gc.net.resetGameSession
    screen := .lobby
    selected := none
    board := none
    activeMotions := []
    gameOver := false
    winner := .null }

/-! ### The frames of a game -/

/-- The exceptions of a handler. -/
inductive HandlerError where
  | field (error : FieldError)
  | indexError
deriving DecidableEq, Repr

/-- `int(score.get(key, 0) or 0)`. -/
def scoreOf (py : Builtins) (score : Json) (key : String) : Except FieldError Int :=
  match score with
  | .object fields =>
    let value := getD fields key (.int 0)
    py.int (if Builtins.truthy value then value else .int 0)
  -- `score or {}`
  | value => if Builtins.truthy value then .error .attributeError else .ok 0

/-- What `_apply_state` takes from a frame: the board and the two scores. -/
def readState (py : Builtins) (data : Fields) : Except FieldError (ClientBoard × Int × Int) := do
  let board ← boardFromState py (getD data "pieces" .null)
  let score := getD data "score" .null
  return (board, ← scoreOf py score "w", ← scoreOf py score "b")

/-- `_apply_state`. It is read as a whole before anything is changed. -/
def applyState (py : Builtins) (data : Fields) (gc : ChessGameController) :
    Except HandlerError ChessGameController := do
  let state ← (readState py data).mapError .field
  return { gc with
    -- the animations go, wherever their pieces were
    activeMotions := []
    board := some state.1
    score := state.2
    gameOver := Builtins.truthy (getD data "game_over" (.bool false))
    winner := getD data "winner" .null }

/-- `value[i]`, for a value that is not falsy. -/
def element (value : Json) (i : Nat) : Except HandlerError Json :=
  match value with
  | .array items =>
    match items[i]? with
    | some value => .ok value
    | none => .error .indexError
  | .string text =>
    match text.toList[i]? with
    | some c => .ok (.string (String.singleton c))
    | none => .error .indexError
  -- a number is no key of a JSON object
  | .object _ => .error (.field (.keyError (toString i)))
  | _ => .error (.field .typeError)

/-- `Position(int(value[0]), int(value[1]))`. -/
def readPosition (py : Builtins) (value : Json) : Except HandlerError Position := do
  let row ← (py.int (← element value 0)).mapError .field
  let col ← (py.int (← element value 1)).mapError .field
  return ⟨row, col⟩

/-- `_move_duration_ms`: the time of one cell for each square, along the longer side. -/
def moveDurationMs (startPos endPos : Position) : Int :=
  max 1 (max |endPos.row - startPos.row| |endPos.col - startPos.col|) * GameEngine.msPerCell

/-- The animation of an accepted move. -/
def newMotion (gc : ChessGameController) (ref : PieceRef) (startPos endPos : Position) : Motion where
  motionId := gc.motionCounter + 1
  piece := ref
  startPos := startPos
  endPos := endPos
  remainingTime := moveDurationMs startPos endPos
  originalDuration := moveDurationMs startPos endPos

/-- The rest of `_apply_ack`, once the two positions are read. -/
def startMotion (gc : ChessGameController) (board : ClientBoard) (startPos endPos : Position) :
    ChessGameController :=
  match board.getPiece startPos with
  | none => gc
  | some ref =>
    if (board.piece ref).status.isBusy then gc
    else
      { gc with
        board := some (board.setStatus ref .moving)
        motionCounter := gc.motionCounter + 1
        activeMotions := gc.activeMotions ++ [gc.newMotion ref startPos endPos] }

/-- `_apply_ack`. Without a board, or with a square missing, it is ignored. -/
def applyAck (py : Builtins) (data : Fields) (gc : ChessGameController) :
    Except HandlerError ChessGameController :=
  match gc.board with
  | none => .ok gc
  | some board =>
    let start := getD data "start" .null
    let «end» := getD data "end" .null
    if Builtins.truthy start && Builtins.truthy «end» then do
      let startPos ← readPosition py start
      let endPos ← readPosition py «end»
      return gc.startMotion board startPos endPos
    else .ok gc

/-! ### The clock -/

/-- A motion is over: the piece leaves the start square, if it still stands there, and is put
down on the end square. -/
def finish (gc : ChessGameController) (motion : Motion) : ChessGameController :=
  { gc with
    activeMotions := gc.activeMotions.erase motion
    board := gc.board.map fun board =>
      let left := if board.getPiece motion.startPos = some motion.piece
        then board.setPiece motion.startPos none else board
      (left.setStatus motion.piece .idle).setPiece motion.endPos (some motion.piece) }

/-- `_update_motions`. -/
def updateMotions (dtMs : Int) (gc : ChessGameController) : ChessGameController :=
  if gc.activeMotions = [] ∨ gc.board.isNone then gc
  else
    let elapsed := gc.activeMotions.map (RealTimeArbiter.elapse dtMs)
    let finished := elapsed.filter fun motion => decide (motion.remainingTime ≤ 0)
    finished.foldl finish { gc with activeMotions := elapsed }

/-! ### Events -/

/-- The branches of `_process_network_events`. -/
def handleEvent (py : Builtins) (inputTxt : Option (List String)) (event : ClientEvent)
    (gc : ChessGameController) : Except HandlerError ChessGameController :=
  match event.1 with
  | .loginOk => .ok { gc with screen := .lobby }
  | .enterGame => .ok (gc.enterGame inputTxt)
  | .state => gc.applyState py event.2
  | .ack => gc.applyAck py event.2
  | .gameOver => .ok { gc with gameOver := true, winner := getD event.2 "winner" .null }
  | _ => .ok gc

/-- One pass of the loop of `_process_network_events`: the oldest event, if there is one. -/
def pollEvent (py : Builtins) (inputTxt : Option (List String)) (gc : ChessGameController) :
    Except HandlerError ChessGameController :=
  match gc.net.events with
  | [] => .ok gc
  | event :: events =>
    { gc with net := { gc.net with events := events } }.handleEvent py inputTxt event

/-! ### Clicks -/

/-- A rectangle of the window, in pixels. -/
structure Rect where
  x1 : Int
  y1 : Int
  x2 : Int
  y2 : Int

/-- `_point_in_rect`. -/
def Rect.contains (rect : Rect) (x y : Int) : Bool :=
  decide (rect.x1 ≤ x ∧ x ≤ rect.x2 ∧ rect.y1 ≤ y ∧ y ≤ rect.y2)

-- the buttons, and the fields of the login form

def btnPlay : Rect := ⟨60, 220, 320, 290⟩

def btnCreate : Rect := ⟨60, 320, 320, 390⟩

def btnJoin : Rect := ⟨60, 420, 320, 490⟩

def btnCancel : Rect := ⟨360, 220, 620, 290⟩

def btnBack : Rect := ⟨60, 520, 320, 590⟩

def btnLogin : Rect := ⟨60, 380, 280, 450⟩

def fieldUsername : Rect := ⟨60, 200, 520, 254⟩

def fieldPassword : Rect := ⟨60, 270, 520, 324⟩

/-- `value == text`. -/
def isText (value : Json) (text : String) : Bool :=
  match value with
  | .string text' => text' = text
  | _ => false

/-- The piece is the user's, as far as the user's colour is known. -/
def mayMove (gc : ChessGameController) (piece : ClientPiece) : Bool :=
  !Builtins.truthy gc.myColor || isText gc.myColor piece.color

/-- The piece is known to be the user's, and stands still. -/
def isOwn (gc : ChessGameController) (piece : ClientPiece) : Bool :=
  Builtins.truthy gc.myColor && isText gc.myColor piece.color && !piece.status.isBusy

/-- `_handle_board_click`: the first click selects, the second sends or selects anew. -/
def handleBoardClick (gc : ChessGameController) (board : ClientBoard) (position : Position) :
    ChessGameController :=
  match gc.selected with
  | none =>
    match board.pieceAt position with
    | none => gc
    | some piece =>
      -- a piece that flies is not selected
      if piece.status.isBusy then gc
      else if gc.mayMove piece then { gc with selected := some position }
      else gc
  | some selected =>
    if position = selected then { gc with selected := none }
    else if (board.pieceAt position).any gc.isOwn then { gc with selected := some position }
    else { gc with net := gc.net.sendMove selected position, selected := none }

/-- `_try_login`: both fields are needed, and a connection. -/
def tryLogin (gc : ChessGameController) : ChessGameController :=
  let user := strip gc.username
  if user = "" ∨ gc.password = "" then gc
  else if gc.net.connected then { gc with net := gc.net.login user gc.password }
  else gc

/-- A click on the form of the login. -/
def clickLogin (gc : ChessGameController) (x y : Int) : ChessGameController :=
  if btnLogin.contains x y then gc.tryLogin
  else if fieldUsername.contains x y then { gc with loginFocus := .username }
  else if fieldPassword.contains x y then { gc with loginFocus := .password }
  else gc

/-- A click in the lobby. -/
def clickLobby (gc : ChessGameController) (x y : Int) : ChessGameController :=
  if btnPlay.contains x y then { gc with net := gc.net.play }
  else if btnCancel.contains x y then { gc with net := gc.net.cancelPlay }
  else if btnCreate.contains x y then { gc with net := gc.net.createRoom }
  else if btnJoin.contains x y then { gc with joinRoomId := "", screen := .join }
  else gc

/-- A click on the form of a room. -/
def clickJoin (gc : ChessGameController) (x y : Int) : ChessGameController :=
  if btnBack.contains x y then { gc with screen := .lobby } else gc

/-- A click during a game. Beside the board it does nothing. -/
def clickGame (boardWidth : Int) (gc : ChessGameController) (x y : Int) : ChessGameController :=
  if gc.gameOver then if btnBack.contains x y then gc.backToLobby else gc
  else if boardWidth ≤ x then gc
  else
    match gc.board with
    | none => gc
    | some board =>
      -- a viewer only looks on
      if isText gc.net.role "viewer" then gc
      else
        match board.toPosition x y with
        | none => gc
        | some position => gc.handleBoardClick board position

/-- `on_mouse_click`, for the left button going down. -/
def onMouseClick (boardWidth : Int) (gc : ChessGameController) (x y : Int) : ChessGameController :=
  match gc.screen with
  | .login => gc.clickLogin x y
  | .lobby => gc.clickLobby x y
  | .join => gc.clickJoin x y
  | .game => gc.clickGame boardWidth x y

/-! ### Keys -/

/-- `text[:-1]`. -/
def dropLast (text : String) : String := String.ofList text.toList.dropLast

/-- `text += chr(key)`, up to a length. -/
def typed (limit : Nat) (text : String) (key : Nat) : String :=
  if 32 ≤ key ∧ key ≤ 126 ∧ text.length < limit then text.push (Char.ofNat key) else text

/-- The key that ends a line. -/
def isEnter (key : Nat) : Bool := key = 13 || key = 10

/-- The key that takes a letter back. -/
def isBackspace (key : Nat) : Bool := key = 8 || key = 127

/-- A key on the form of the login. The tabulator changes the field. -/
def handleLoginKey (gc : ChessGameController) (key : Nat) : ChessGameController :=
  if isEnter key then
    match gc.loginFocus with
    | .username => { gc with loginFocus := .password }
    | .password => gc.tryLogin
  else if key = 9 then
    match gc.loginFocus with
    | .username => { gc with loginFocus := .password }
    | .password => { gc with loginFocus := .username }
  else
    match gc.loginFocus with
    | .username =>
      { gc with
        username := if isBackspace key then dropLast gc.username else typed 24 gc.username key }
    | .password =>
      { gc with
        password := if isBackspace key then dropLast gc.password else typed 32 gc.password key }

/-- A key on the form of a room. -/
def handleJoinKey (gc : ChessGameController) (key : Nat) : ChessGameController :=
  if isEnter key then
    let roomId := strip gc.joinRoomId
    if roomId = "" then gc else { gc with net := gc.net.joinRoom roomId }
  else
    { gc with
      joinRoomId := if isBackspace key then dropLast gc.joinRoomId else typed 16 gc.joinRoomId key }

/-- `_handle_key`; the escape key ends the program and is no input here. -/
def handleKey (gc : ChessGameController) (key : Nat) : ChessGameController :=
  match gc.screen with
  -- `b` and `B`
  | .game => if gc.gameOver ∧ (key = 98 ∨ key = 66) then gc.backToLobby else gc
  | .login => gc.handleLoginKey key
  | .join => gc.handleJoinKey key
  | .lobby => gc

end ChessGameController

end KungFuChess
