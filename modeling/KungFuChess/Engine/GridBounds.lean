import KungFuChess.Engine.FlightInv

/-!
# The grid stays well formed

`GridWellFormed` says what a reader of the grid relies on: the occupied squares are on
the board, no piece stands on two of them, no captured piece stands on any, and a piece in
flight stands nowhere but on the start of its motion.

The last three are clauses of the flight invariant. The first needs one more invariant,
`OnBoard`: a landing writes the end square of its motion, so the ends of the motions in
flight have to be on the board as well. They are, because every move generator collects
squares of the board only (`inBounds_of_isMoveLegal`). Jumps are exempt: a landing jump
writes no square.
-/

namespace KungFuChess

open GameEngine BoardParser

/-! ### What the move generators collect -/

namespace PieceRules

variable {board : Board} {start p : Position}

/-- A ray collects squares of the board only: it looks at the bounds before it adds a square. -/
theorem inBounds_of_mem_ray {color : Color} {dr dc : Int} {fuel : Nat} {r c : Int}
    (h : p ∈ ray board color dr dc fuel r c) : inBounds p.row p.col board = true := by
  induction fuel generalizing r c with
  | zero => exact absurd h List.not_mem_nil
  | succ fuel ih =>
    unfold ray at h
    split at h
    · next hin =>
      -- the square itself is on the board, the rest of the ray by induction
      split at h
      · obtain rfl | h := List.mem_cons.mp h
        · exact hin
        · exact ih h
      · split at h
        · obtain rfl | h := List.mem_cons.mp h
          · exact hin
          · exact ih h
        · split at h
          · rw [List.mem_singleton.mp h]
            exact hin
          · exact absurd h List.not_mem_nil
    · exact absurd h List.not_mem_nil

/-- So do rooks, bishops and queens, whose moves are rays, -/
theorem inBounds_of_mem_slidingMoves {directions : List (Int × Int)}
    (h : p ∈ slidingMoves directions start board) : inBounds p.row p.col board = true := by
  unfold slidingMoves at h
  split at h
  · exact absurd h List.not_mem_nil
  · obtain ⟨d, -, h⟩ := List.mem_flatMap.mp h
    exact inBounds_of_mem_ray h

theorem inBounds_of_mem_offsetMoves {offsets : List (Int × Int)}
    (h : p ∈ offsetMoves offsets start board) : inBounds p.row p.col board = true := by
  obtain ⟨piece, -, d, -, -, hin, -⟩ := mem_offsetMoves.mp h
  exact hin

theorem inBounds_of_mem_getPawnMoves (h : p ∈ getPawnMoves start board) :
    inBounds p.row p.col board = true := by
  obtain ⟨piece, -, hstep | ⟨⟨middle, -, hstep⟩, -⟩ | ⟨dc, -, -, hin, -⟩⟩ := mem_getPawnMoves.mp h
  · exact hstep.2.1
  · exact hstep.2.1
  · exact hin

end PieceRules

/-- **A legal move ends on the board.** -/
theorem RuleEngine.inBounds_of_isMoveLegal {board : Board} {startPos endPos : Position}
    (h : isMoveLegal board startPos endPos = true) :
    PieceRules.inBounds endPos.row endPos.col board = true := by
  unfold isMoveLegal at h
  split at h
  · exact absurd h (by simp)
  split at h
  · exact absurd h (by simp)
  split at h
  · exact absurd h (by simp)
  -- one case for each type of piece
  split at h
  · exact PieceRules.inBounds_of_mem_slidingMoves (of_decide_eq_true h)
  · exact PieceRules.inBounds_of_mem_slidingMoves (of_decide_eq_true h)
  · rcases (Bool.or_eq_true _ _).mp h with h | h
    · exact PieceRules.inBounds_of_mem_slidingMoves (of_decide_eq_true h)
    · exact PieceRules.inBounds_of_mem_slidingMoves (of_decide_eq_true h)
  · exact PieceRules.inBounds_of_mem_offsetMoves (of_decide_eq_true h)
  · exact PieceRules.inBounds_of_mem_offsetMoves (of_decide_eq_true h)
  · exact PieceRules.inBounds_of_mem_getPawnMoves (of_decide_eq_true h)

/-! ### The size of the board -/

/-- The size of a board. -/
def Board.size (board : Board) : Nat × Nat := (board.numRows, board.numCols)

@[simp] theorem Board.size_setPiece (board : Board) (p : Position) (occupant : Option PieceRef) :
    (board.setPiece p occupant).size = board.size := by
  cases occupant <;> rfl

namespace GameEngine

variable (e : GameEngine) (m : Motion) (target : PieceRef)

/-- Leaving the start square keeps the size, -/
@[simp] theorem size_leaveStart : (e.leaveStart m).board.size = e.board.size := by
  unfold leaveStart
  split
  · exact Board.size_setPiece _ _ _
  · rfl

@[simp] theorem size_promote : (e.promote m).board.size = e.board.size := by
  unfold promote
  split <;> rfl

@[simp] theorem size_settle : (e.settle m).board.size = e.board.size := by
  unfold settle
  dsimp only
  rw [size_promote]
  change (((e.setStatus m.piece .idle).leaveStart m).board.setPiece m.endPos
    (some m.piece)).size = _
  rw [Board.size_setPiece, size_leaveStart]
  rfl

/-- A capture keeps the size. -/
@[simp] theorem size_captureTarget : (e.captureTarget m target).board.size = e.board.size := by
  change (((e.setStatus target .captured).scoreCapture m.piece target).board.setPiece
    m.endPos none).size = _
  rw [Board.size_setPiece, board_scoreCapture]
  rfl

/-- A capture by a jumper too. -/
@[simp] theorem size_capturedByJumper :
    (e.capturedByJumper m target).board.size = e.board.size := by
  unfold capturedByJumper
  rw [size_leaveStart, board_scoreCapture]
  rfl

end GameEngine

/-- No landing changes the size of the board. -/
theorem Landing.size {e e' : GameEngine} {m : Motion} (h : Landing e m e') :
    e'.board.size = e.board.size := by
  cases h with
  | skipped => rfl
  | jumpEnds | blocked => rfl
  | shotDown jumper => exact size_capturedByJumper _ _ _
  | takes target => rw [size_settle, size_captureTarget]
  | settles => exact size_settle _ _

/-! ### Occupied squares are on the board -/

/-- The square is on a board of this size. -/
def Position.Within (p : Position) (size : Nat × Nat) : Prop :=
  0 ≤ p.row ∧ p.row < size.1 ∧ 0 ≤ p.col ∧ p.col < size.2

/-- On a board of this size, the occupied squares and the ends of the flights lie on it. -/
structure OnBoard (size : Nat × Nat) (e : GameEngine) (flights : List Motion) : Prop where
  sized : e.board.size = size
  occupied : ∀ p ref, e.board.getPiece p = some ref → p.Within size
  /-- A motion that is not a jump ends on the board. -/
  lands : ∀ m ∈ flights, m.isJump = false → m.endPos.Within size

namespace OnBoard

variable {size : Nat × Nat} {e e' : GameEngine} {m : Motion} {flights rest : List Motion}

/-- What stands on a square afterwards stood on it before, or the square is the end of the
flight that lands. -/
theorem of_getPiece (h : OnBoard size e (m :: rest)) (hsize : e'.board.size = e.board.size)
    (hget : ∀ p ref, e'.board.getPiece p = some ref →
      e.board.getPiece p = some ref ∨ m.isJump = false ∧ p = m.endPos) :
    OnBoard size e' rest := by
  refine ⟨hsize.trans h.sized, fun p ref hp => ?_, ?_⟩
  · obtain hbefore | ⟨hflight, rfl⟩ := hget p ref hp
    · exact h.occupied p ref hbefore
    · exact h.lands m List.mem_cons_self hflight
  · exact fun m' hm' => h.lands m' (List.mem_cons_of_mem m hm')

/-- The list of flights matters up to order and remaining time only. -/
theorem of_perm_elapse {ms : Int} {flights' : List Motion} (h : OnBoard size e flights)
    (hperm : flights'.Perm (flights.map (RealTimeArbiter.elapse ms))) :
    OnBoard size e flights' := by
  refine ⟨h.sized, h.occupied, fun m' hm' hflight => ?_⟩
  obtain ⟨m, hm, rfl⟩ := List.mem_map.mp (hperm.mem_iff.mp hm')
  exact h.lands m hm hflight

end OnBoard

/-- A settled mover is on its end square; nothing else has come anywhere. -/
theorem GameEngine.getPiece_settle_of_some {e : GameEngine} {m : Motion} {p : Position}
    {ref : PieceRef} (hp : (e.settle m).board.getPiece p = some ref) :
    e.board.getPiece p = some ref ∨ p = m.endPos := by
  rw [getPiece_settle] at hp
  split at hp
  · next hend => exact Or.inr hend
  · exact Or.inl (unwritten hp (by simp)).2

/-- **Invariant preservation, one landing.** -/
theorem Landing.onBoard {size : Nat × Nat} {e e' : GameEngine} {m : Motion} {rest : List Motion}
    (hland : Landing e m e') (h : OnBoard size e (m :: rest)) : OnBoard size e' rest := by
  refine h.of_getPiece hland.size fun p ref hp => ?_
  cases hland with
  | skipped => exact Or.inl hp
  | jumpEnds | blocked => exact Or.inl hp
  | shotDown jumper =>
    rw [getPiece_capturedByJumper] at hp
    exact Or.inl (unwritten hp (by simp)).2
  | takes target _ hflight =>
    -- the capture only empties the end square
    obtain hp | hend := getPiece_settle_of_some hp
    · rw [getPiece_captureTarget] at hp
      exact Or.inl (unwritten hp (by simp)).2
    · exact Or.inr ⟨hflight, hend⟩
  | settles _ hflight =>
    exact (getPiece_settle_of_some hp).imp_right fun hend => ⟨hflight, hend⟩

namespace OnBoard

variable {size : Nat × Nat} {e : GameEngine}

/-- A launched motion is a jump, or a move the rules allow. -/
theorem within_of_launchOf (h : OnBoard size e e.arbiter.activeMotions) {c : Call} {m : Motion}
    (hlaunch : e.launchOf c = some m) (hflight : m.isJump = false) : m.endPos.Within size := by
  cases c with
  | move startPos endPos durationMs =>
    obtain ⟨ref, -, hsome⟩ := Option.bind_eq_some_iff.mp hlaunch
    split at hsome
    · next hlegal =>
      obtain rfl := Option.some.inj hsome
      -- the rules allow squares of the board only
      have hin := of_decide_eq_true (RuleEngine.inBounds_of_isMoveLegal hlegal)
      rw [← h.sized]
      exact hin
    · exact absurd hsome (by simp)
  | jump position =>
    obtain ⟨ref, -, rfl⟩ := Option.map_eq_some_iff.mp hlaunch
    exact absurd hflight (by simp [RealTimeArbiter.jumpMotion])
  | tick ms => exact absurd hlaunch (by simp [launchOf])

/-- **Invariant preservation, one call.** -/
theorem call (h : OnBoard size e e.arbiter.activeMotions)
    (hI : FlightInv e e.arbiter.activeMotions) (c : Call) :
    OnBoard size (e.call c) (e.call c).arbiter.activeMotions := by
  have hcase := call_cases hI c
  generalize e.call c = e' at hcase
  cases hcase with
  | rejected => exact h
  | launched m scoreboard hlaunch =>
    refine ⟨h.sized, h.occupied, fun m' hm' hflight => ?_⟩
    rcases List.mem_append.mp hm' with hm' | hm'
    · exact h.lands m' hm' hflight
    · obtain rfl := List.mem_singleton.mp hm'
      exact h.within_of_launchOf hlaunch hflight
  | cancelled m scoreboard => exact ⟨h.sized, h.occupied, h.lands⟩
  | ticked ms =>
    rw [arbiter_foldl_land]
    -- induction over the batch, as for the flight invariant
    have hstart : OnBoard size (e.afterAdvance ms)
        (e.completedMotions ms ++ (e.afterAdvance ms).arbiter.activeMotions) :=
      have haged := h.of_perm_elapse (FlightInv.completed_append_perm e ms)
      ⟨haged.sized, haged.occupied, haged.lands⟩
    exact Run.invariant
      (P := fun t rest => OnBoard size t (rest ++ (e.afterAdvance ms).arbiter.activeMotions))
      (fun t m rest ht => (land_cases t m).onBoard ht) hstart

/-- A parsed board starts with its pieces on the board. -/
theorem new {board : Board} (h : Parsed board) : OnBoard board.size (GameEngine.new board) [] :=
  ⟨rfl, h.inBounds, fun _ hm => absurd hm List.not_mem_nil⟩

/-- **The invariant holds throughout every game.** -/
theorem play (h : OnBoard size e e.arbiter.activeMotions)
    (hI : FlightInv e e.arbiter.activeMotions) (calls : List Call) :
    OnBoard size (e.play calls) (e.play calls).arbiter.activeMotions :=
  (Run.stable (P := fun t : GameEngine => OnBoard size t t.arbiter.activeMotions ∧
    FlightInv t t.arbiter.activeMotions)
    (fun _ c ht => ⟨ht.1.call ht.2 c, ht.2.call c⟩) ⟨h, hI⟩).1

end OnBoard

/-! ### Games -/

/-- What a reader of the grid relies on. -/
structure GridWellFormed (e : GameEngine) : Prop where
  inBounds : ∀ p ref, e.board.getPiece p = some ref →
    0 ≤ p.row ∧ p.row < e.board.numRows ∧ 0 ≤ p.col ∧ p.col < e.board.numCols
  placed : ∀ p p' ref, e.board.getPiece p = some ref → e.board.getPiece p' = some ref → p = p'
  alive : ∀ p ref, e.board.getPiece p = some ref → (e.piece ref).status ≠ .captured
  atStart : ∀ m ∈ e.arbiter.activeMotions, ∀ p, e.board.getPiece p = some m.piece →
    p = m.startPos

/-- **The grid of a game on a parsed board stays well formed, on a board of the parsed
size.** -/
theorem gridWellFormed_play {boardLines : List String} {board : Board}
    (hparse : parseInitialBoard boardLines = .ok board) (calls : List Call) :
    GridWellFormed ((GameEngine.new board).play calls) ∧
      ((GameEngine.new board).play calls).board.size = board.size := by
  have hparsed := Parsed.of_parseInitialBoard hparse
  have hI := (FlightInv.new hparsed).play calls
  have hO := (OnBoard.new hparsed).play (FlightInv.new hparsed) calls
  refine ⟨⟨fun p ref hp => ?_, hI.placed, hI.alive, hI.atStart⟩, hO.sized⟩
  have hwithin := hO.occupied p ref hp
  rw [← hO.sized] at hwithin
  exact hwithin

/-- A jump from a square that is not on the board launches nothing. -/
theorem gridWellFormed_play_rook :
    GridWellFormed ((GameEngine.new (boardOf ["wR . bK"])).play
      [.move ⟨0, 0⟩ ⟨0, 2⟩ 2000, .jump ⟨7, -3⟩, .tick 2000]) := by
  have hparse : parseInitialBoard ["wR . bK"] = .ok (boardOf ["wR . bK"]) :=
    parseInitialBoard_eq_boardOf (by decide)
  exact (gridWellFormed_play hparse _).1

end KungFuChess
