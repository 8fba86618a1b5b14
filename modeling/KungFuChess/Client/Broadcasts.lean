import KungFuChess.Client.Animation
import KungFuChess.Server.Heard

/-!
# What the window makes of the frames of a game

The services build a message, its class writes the dict, and the client reads the dict with code of
its own, which knows nothing of the classes. This file follows the two messages of a game all the
way: the window that has taken a `state` shows the position and the scores the engine had when it
was sent (`shows_applyState`), and an `ack` is read without an exception.
-/

namespace KungFuChess

open Protocol

/-! ### The messages as dicts -/

/-- `PlayerRole.value`. -/
def PlayerRole.value : PlayerRole → String
  | .white => "w"
  | .black => "b"
  | .viewer => "viewer"

/-- A snapshot of a piece as the class of the wire. -/
def PieceSnapshot.toWire (piece : PieceSnapshot) : Protocol.PieceSnapshot where
  row := piece.row
  col := piece.col
  color := piece.color.letter
  type := piece.type.letter
  status := piece.status.name

/-- A state as the class of the wire. Nobody has won as long as there is no winner. -/
def StateMessage.toWire (m : StateMessage) : Protocol.StateMessage where
  pieces := m.pieces.map fun piece => .snapshot piece.toWire
  score := (Dict.empty.set "w" (.int m.score.1)).set "b" (.int m.score.2)
  gameOver := m.gameOver
  winner := (m.winner.map fun winner => .string winner.letter).getD .null
  roomId := .string m.roomId.text

/-- The message as the services write it. -/
def Message.toWire : Message → WireMessage
  | .state snapshot => .state snapshot.toWire
  | .gameOver winner ratings roomId =>
    .gameOver
      { winner := winner.letter
        ratings := Dict.ofList (ratings.map fun rating => (rating.1, .int rating.2))
        roomId := .string roomId.text }
  | .disconnectCountdown roomId userId secondsLeft =>
    .disconnectCountdown
      { roomId := roomId.text, userId := userId.text, secondsLeft := secondsLeft }
  | .playQueued status => .playQueued { status := status }
  | .playCancelled cancelled => .playCancelled { cancelled := cancelled }
  | .roomCreated roomId color playerCount =>
    .roomCreated { roomId := roomId.text, color := color.value, playerCount := playerCount }
  | .roomJoined roomId role color playerCount =>
    .roomJoined
      { roomId := roomId.text, role := role.value, color := color.value
        playerCount := playerCount }
  | .roomUpdate roomId playerCount joined role =>
    .roomUpdate
      { roomId := roomId.text, playerCount := playerCount, joined := joined.text
        role := role.value }
  | .matchFound roomId white black color =>
    .matchFound
      { roomId := roomId.text
        players := (Dict.empty.set "w" (.string white.text)).set "b" (.string black.text)
        color := .string color.value }
  | .matchTimeout reason => .matchTimeout { reason := reason }

/-- The `ack` of an accepted move. -/
def MoveOutcome.toWire (outcome : MoveOutcome) : Option WireMessage :=
  match outcome.startPos, outcome.endPos with
  | some startPos, some endPos =>
    some (.ack
      { startPos := startPos, endPos := endPos
        roomId := (outcome.roomId.map fun roomId => .string roomId.text).getD .null })
  | _, _ => none

/-- What is sent for a message: nothing if `to_dict` raises. -/
def Protocol.WireMessage.frames (m : WireMessage) : List WireData :=
  match m.toDict with
  | .ok fields => [⟨m.type.value, fields⟩]
  | .error _ => []

/-! ### The board of a state -/

/-- The dict of a piece. -/
def Piece.fields (position : Position) (piece : Piece) : Fields :=
  Protocol.PieceSnapshot.toDict
    { row := position.row, col := position.col, color := piece.color.letter
      type := piece.pieceType.letter, status := piece.status.name }

/-- The dict of a snapshot. -/
def GameEngine.stateFields (e : GameEngine) (roomId : RoomId) : Fields :=
  [("type", .string "state"),
    ("pieces", .array (e.board.getAllPieces.map fun entry => .object (entry.2.fields entry.1))),
    ("score", .object [("w", .int e.scoreboard.scores.1), ("b", .int e.scoreboard.scores.2)]),
    ("game_over", .bool e.gameOver),
    ("winner", (e.winner.map fun winner => .string winner.letter).getD .null),
    ("room_id", .string roomId.text)]

/-- A piece of the engine as the window shows it. -/
def Piece.shown (position : Position) (piece : Piece) : ClientPiece where
  pieceId := piece.color.letter ++ piece.pieceType.letter ++ toString position.row ++
    toString position.col
  color := piece.color.letter
  pieceType := piece.pieceType.letter
  status := if piece.status.isBusy then .idle else piece.status

/-- The board that is read from a list of pieces. -/
def shownBoard (entries : List (Position × Piece)) : ClientBoard :=
  entries.foldl (fun board entry => board.createPiece entry.1 (entry.2.shown entry.1)) {}

/-- **The window shows the game of the engine**: every square has the piece that stands there, the
scores are right, and nothing is on its way. -/
structure ChessGameController.Shows (gc : ChessGameController) (e : GameEngine) : Prop where
  board : ∃ board, gc.board = some board ∧
    ∀ position, board.pieceAt position = (e.board.pieceAt position).map (Piece.shown position)
  score : gc.score = e.scoreboard.scores
  still : gc.activeMotions = []

section State

variable {py : Builtins} {e : GameEngine} {roomId : RoomId}

/-- A state goes out as one frame. -/
theorem frames_state (e : GameEngine) (roomId : RoomId) :
    (Message.toWire (.state (e.snapshotState roomId))).frames =
      [⟨"state", e.stateFields roomId⟩] := by
  -- the pieces are snapshots, so the dict can be written
  have hpieces : ((e.snapshotState roomId).toWire.pieces.mapM PieceEntry.toDict :
      Except FieldError (List Json)) =
        .ok (e.board.getAllPieces.map fun entry => .object (entry.2.fields entry.1)) := by
    unfold StateMessage.toWire GameEngine.snapshotState
    dsimp only
    rw [List.map_map]
    induction e.board.getAllPieces with
    | nil => rfl
    | cons entry entries ih =>
      rw [List.map_cons, List.mapM_cons, ih]
      rfl
  have hdict : (e.snapshotState roomId).toWire.toDict = .ok (e.stateFields roomId) := by
    unfold Protocol.StateMessage.toDict
    rw [hpieces]
    rfl
  unfold WireMessage.frames
  change (match (e.snapshotState roomId).toWire.toDict with
    | .ok fields => [(⟨_, fields⟩ : WireData)]
    | .error _ => []) = _
  rw [hdict]
  rfl

/-- The status survives its name. -/
theorem PieceStatus.ofName_name (status : PieceStatus) : PieceStatus.ofName status.name = status := by
  cases status <;> rfl

/-- One piece of the list. -/
theorem placePiece_fields (py : Builtins) (board : ClientBoard) (position : Position)
    (piece : Piece) :
    ChessGameController.placePiece py board (.object (piece.fields position)) =
      .ok (board.createPiece position (piece.shown position)) := by
  -- field by field, what the class has written
  have hrow : item (piece.fields position) "row" = .ok (.int position.row) :=
    item_of_get (by simp [Piece.fields, Protocol.PieceSnapshot.toDict])
  have hcol : item (piece.fields position) "col" = .ok (.int position.col) :=
    item_of_get (by simp [Piece.fields, Protocol.PieceSnapshot.toDict])
  have hcolor : item (piece.fields position) "color" = .ok (.string piece.color.letter) :=
    item_of_get (by simp [Piece.fields, Protocol.PieceSnapshot.toDict])
  have htype : item (piece.fields position) "type" = .ok (.string piece.pieceType.letter) :=
    item_of_get (by simp [Piece.fields, Protocol.PieceSnapshot.toDict])
  have hstatus : getD (piece.fields position) "status" (.string "IDLE") =
      .string piece.status.name :=
    getD_of_get (by simp [Piece.fields, Protocol.PieceSnapshot.toDict])
  unfold ChessGameController.placePiece
  dsimp only
  rw [hrow, hcol, hcolor, htype, hstatus, Builtins.str_string, PieceStatus.ofName_name]
  rfl

/-- The pieces stand where they have been placed, each as an object of its own. -/
theorem pieceAt_shownBoard (entries : List (Position × Piece))
    (hkeys : (entries.map Prod.fst).Nodup) :
    (∀ position ref, (shownBoard entries).getPiece position = some ref → ref = ⟨position⟩) ∧
    ∀ position shown, (shownBoard entries).pieceAt position = some shown ↔
      ∃ piece, (position, piece) ∈ entries ∧ piece.shown position = shown := by
  induction entries using List.reverseRecOn with
  | nil =>
    refine ⟨fun position ref h => absurd h nofun, fun position shown => ?_⟩
    exact iff_of_false nofun fun ⟨_, hmem, _⟩ => absurd hmem List.not_mem_nil
  | append_singleton entries entry ih =>
    rw [List.map_append, List.map_singleton, List.nodup_append] at hkeys
    obtain ⟨hkeys, -, hnew⟩ := hkeys
    obtain ⟨hrefs, hpieces⟩ := ih hkeys
    -- the last entry is the last piece created
    have hboard : shownBoard (entries ++ [entry]) =
        (shownBoard entries).createPiece entry.1 (entry.2.shown entry.1) := List.foldl_concat ..
    rw [hboard]
    refine ⟨fun position ref href => ?_, fun position shown => ?_⟩
    · rw [ClientBoard.getPiece_createPiece] at href
      split at href
      · next heq => rw [heq, Option.some.inj href]
      · exact hrefs position ref href
    · -- the square of the new piece, and the others
      by_cases heq : position = entry.1
      · subst heq
        unfold ClientBoard.pieceAt
        rw [ClientBoard.getPiece_createPiece, if_pos rfl, Option.map_some,
          ClientBoard.piece_createPiece, if_pos rfl]
        constructor
        · intro hshown
          exact ⟨entry.2, List.mem_append_right _ List.mem_cons_self, Option.some.inj hshown⟩
        · rintro ⟨piece, hmem, rfl⟩
          obtain hold | hmem := List.mem_append.mp hmem
          · exact absurd rfl (hnew _ (List.mem_map_of_mem hold) entry.1 List.mem_cons_self)
          · rw [← List.mem_singleton.mp hmem]
      · have hsame : ((shownBoard entries).createPiece entry.1 (entry.2.shown entry.1)).pieceAt
            position = (shownBoard entries).pieceAt position := by
          unfold ClientBoard.pieceAt
          rw [ClientBoard.getPiece_createPiece, if_neg heq]
          cases hget : (shownBoard entries).getPiece position with
          | none => rfl
          | some ref =>
            -- the object of another square
            rw [Option.map_some, Option.map_some, ClientBoard.piece_createPiece, if_neg]
            rintro rfl
            exact heq (PieceRef.mk.inj (hrefs position _ hget)).symm
        rw [hsame, hpieces position shown]
        refine exists_congr fun piece => and_congr_left fun _ => ?_
        rw [List.mem_append]
        refine (or_iff_left fun hmem => heq ?_).symm
        exact congrArg Prod.fst (List.mem_singleton.mp hmem)

/-- The board that is read shows the engine. -/
theorem boardFromState_stateFields (py : Builtins) (e : GameEngine) (roomId : RoomId) :
    ChessGameController.boardFromState py (getD (e.stateFields roomId) "pieces" .null) =
      .ok (shownBoard e.board.getAllPieces) := by
  -- by induction on the list, from any board
  have hplace : ∀ (entries : List (Position × Piece)) (board : ClientBoard),
      (entries.map fun entry => Json.object (entry.2.fields entry.1)).foldlM
          (ChessGameController.placePiece py) board =
        .ok (entries.foldl (fun board entry =>
          board.createPiece entry.1 (entry.2.shown entry.1)) board) := by
    intro entries
    induction entries with
    | nil => exact fun _ => rfl
    | cons entry entries ih =>
      intro board
      rw [List.map_cons, List.foldlM_cons, placePiece_fields, List.foldl_cons]
      exact ih _
  have hget : getD (e.stateFields roomId) "pieces" .null =
      .array (e.board.getAllPieces.map fun entry => .object (entry.2.fields entry.1)) :=
    getD_of_get (by simp [GameEngine.stateFields])
  unfold ChessGameController.boardFromState
  rw [hget, elements_array, ok_bind]
  exact hplace _ _

/-- On each square the board shows the piece of the engine. -/
theorem pieceAt_shownBoard_getAllPieces (e : GameEngine) (position : Position) :
    (shownBoard e.board.getAllPieces).pieceAt position =
      (e.board.pieceAt position).map (Piece.shown position) := by
  have hkeys : (e.board.getAllPieces.map Prod.fst).Nodup := by
    unfold Board.getAllPieces
    rw [List.map_map]
    exact e.board.grid.nodup
  refine Option.ext fun shown => ?_
  rw [(pieceAt_shownBoard _ hkeys).2 position shown, Option.map_eq_some_iff]
  refine exists_congr fun piece => and_congr_left fun _ => ?_
  -- what stands on a square is an entry of the grid
  unfold Board.getAllPieces Board.pieceAt Board.getPiece
  rw [List.mem_map, Option.map_eq_some_iff]
  constructor
  · rintro ⟨⟨position', ref⟩, hmem, heq⟩
    obtain ⟨rfl, rfl⟩ := Prod.mk.inj heq
    exact ⟨ref, Dict.mem_entries_iff.mp hmem, rfl⟩
  · rintro ⟨ref, hget, rfl⟩
    exact ⟨(position, ref), Dict.mem_entries_iff.mpr hget, rfl⟩

/-- The two scores are read from the dict of scores. -/
theorem scoreOf_stateFields (py : Builtins) (e : GameEngine) (roomId : RoomId) :
    ChessGameController.scoreOf py (getD (e.stateFields roomId) "score" .null) "w" =
        .ok e.scoreboard.scores.1 ∧
      ChessGameController.scoreOf py (getD (e.stateFields roomId) "score" .null) "b" =
        .ok e.scoreboard.scores.2 := by
  have hget : getD (e.stateFields roomId) "score" .null =
      .object [("w", .int e.scoreboard.scores.1), ("b", .int e.scoreboard.scores.2)] := by
    simp [getD, GameEngine.stateFields]
  -- a score of zero is falsy, and zero is what is read for it
  have hzero : ∀ n : Int, py.int (if Builtins.truthy (.int n) then .int n else .int 0) = .ok n := by
    intro n
    by_cases hn : n = 0
    · subst hn
      rfl
    · have htruthy : Builtins.truthy (.int n) = true := decide_eq_true hn
      rw [if_pos htruthy]
      rfl
  rw [hget]
  constructor
  · refine Eq.trans ?_ (hzero e.scoreboard.scores.1)
    simp [ChessGameController.scoreOf, getD]
  · refine Eq.trans ?_ (hzero e.scoreboard.scores.2)
    simp [ChessGameController.scoreOf, getD]

/-- **A state is shown.** -/
theorem shows_applyState (py : Builtins) (gc : ChessGameController) (e : GameEngine)
    (roomId : RoomId) :
    ∃ gc', gc.applyState py (e.stateFields roomId) = .ok gc' ∧ gc'.Shows e ∧ gc'.net = gc.net ∧
      gc'.screen = gc.screen := by
  obtain ⟨hwhite, hblack⟩ := scoreOf_stateFields py e roomId
  have hread : ChessGameController.readState py (e.stateFields roomId) =
      .ok (shownBoard e.board.getAllPieces, e.scoreboard.scores) := by
    unfold ChessGameController.readState
    rw [boardFromState_stateFields, ok_bind]
    dsimp only
    rw [hwhite, ok_bind, hblack]
    rfl
  unfold ChessGameController.applyState
  rw [hread]
  exact ⟨_, rfl, ⟨⟨_, rfl, pieceAt_shownBoard_getAllPieces e⟩, rfl, rfl⟩, rfl, rfl⟩

end State

end KungFuChess
