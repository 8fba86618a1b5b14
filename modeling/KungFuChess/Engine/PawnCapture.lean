import KungFuChess.Engine.Legality
import KungFuChess.Engine.PieceNames
import KungFuChess.Engine.TickSplit

/-!
# Pawn captures in real time

That a pawn captures diagonally and goes straight to empty squares is a rule about moves, and
the engine looks at the rules when a move is requested. When the pawn lands nothing is looked
up again: it captures an idle enemy on its end square whichever way it came, and takes the
square without a capture if the enemy it was sent at has gone.

So the rule holds between the request and the landing (`PawnLanding`): the direction of the
motion says what stood on the end square at the request, and the capture depends on what stands
there idle at the landing. The two can only disagree about what has come or gone meanwhile.
-/

namespace KungFuChess

open GameEngine BoardParser RealTimeArbiter

/-! ### Where a motion comes from -/

/-- The call, made in `e`, has started the motion, which has aged since. -/
def GameEngine.Launches (e : GameEngine) (c : Call) (m : Motion) : Prop :=
  ∃ m₀ ms, e.launchOf c = some m₀ ∧ m = elapse ms m₀

/-- A call of the game has started the motion. -/
def GameEngine.LaunchedIn (e : GameEngine) (calls : List Call) (m : Motion) : Prop :=
  ∃ pre c post, calls = pre ++ c :: post ∧ (e.play pre).Launches c m

section Launched

variable {e : GameEngine} {calls : List Call} {m : Motion}

theorem elapse_zero (m : Motion) : elapse 0 m = m := by
  simp [elapse]

theorem GameEngine.Launches.elapse {c : Call} (h : e.Launches c m) (ms : Int) :
    e.Launches c (elapse ms m) := by
  obtain ⟨m₀, ms₀, hlaunch, rfl⟩ := h
  exact ⟨m₀, ms₀ + ms, hlaunch, (elapse_add ms₀ ms m₀).symm⟩

theorem GameEngine.LaunchedIn.elapse (h : e.LaunchedIn calls m) (ms : Int) :
    e.LaunchedIn calls (RealTimeArbiter.elapse ms m) := by
  obtain ⟨pre, c, post, hsplit, hlaunches⟩ := h
  exact ⟨pre, c, post, hsplit, hlaunches.elapse ms⟩

theorem GameEngine.LaunchedIn.snoc (h : e.LaunchedIn calls m) (c : Call) :
    e.LaunchedIn (calls ++ [c]) m := by
  obtain ⟨pre, c', post, rfl, hlaunches⟩ := h
  exact ⟨pre, c', post ++ [c], by rw [List.append_assoc, List.cons_append], hlaunches⟩

theorem play_snoc (e : GameEngine) (calls : List Call) (c : Call) :
    e.play (calls ++ [c]) = (e.play calls).call c := by
  unfold GameEngine.play
  rw [List.foldl_append, List.foldl_cons, List.foldl_nil]

/-- **Every motion under way has been started by a call of the game.** -/
theorem launchedIn_play (h : FlightInv e e.arbiter.activeMotions)
    (hnone : e.arbiter.activeMotions = []) (calls : List Call) :
    ∀ m ∈ (e.play calls).arbiter.activeMotions, e.LaunchedIn calls m := by
  refine @Run.history Call
    (fun calls => ∀ m ∈ (e.play calls).arbiter.activeMotions, e.LaunchedIn calls m)
    (fun _ _ => True) ?_ ?_ calls fun _ _ _ _ => trivial
  · intro m hm
    exact absurd (hnone ▸ hm) List.not_mem_nil
  · intro pre c ih _ m hm
    rw [play_snoc] at hm
    have hcase := call_cases (h.play pre) c
    generalize (e.play pre).call c = e' at hcase hm
    -- only a launch adds a motion, and a tick takes time off those it keeps
    cases hcase with
    | rejected => exact (ih m hm).snoc c
    | launched m' scoreboard hlaunch =>
      obtain hm | hm := List.mem_append.mp hm
      · exact (ih m hm).snoc c
      · obtain rfl := List.mem_singleton.mp hm
        exact ⟨pre, c, [], rfl, m, 0, hlaunch, (elapse_zero m).symm⟩
    | cancelled => exact (ih m hm).snoc c
    | ticked ms =>
      rw [arbiter_foldl_land] at hm
      obtain ⟨m₀, hm₀, rfl⟩ := List.mem_map.mp (List.mem_filter.mp hm).1
      exact ((ih m₀ hm₀).elapse ms).snoc c

end Launched

/-! ### The rule at the request -/

/-- The motion is a diagonal step, seen from the pawn that makes it. -/
def Motion.ChangesColumn (m : Motion) : Prop := m.startPos.col ≠ m.endPos.col

/-- This is decided by the columns. -/
instance (m : Motion) : Decidable m.ChangesColumn := inferInstanceAs (Decidable (¬ _))

/-- A piece of the other colour than the mover's stands on the end square. -/
def GameEngine.EnemyAhead (e : GameEngine) (m : Motion) : Prop :=
  ∃ ref, e.board.getPiece m.endPos = some ref ∧ (e.piece ref).color ≠ (e.piece m.piece).color

/-- An idle one does. -/
def GameEngine.IdleEnemyAhead (e : GameEngine) (m : Motion) : Prop :=
  ∃ ref, e.board.getPiece m.endPos = some ref ∧ (e.piece ref).status = .idle ∧
    (e.piece ref).color ≠ (e.piece m.piece).color

/-- The landing captures a piece. -/
def GameEngine.TakesEnemy (e : GameEngine) (m : Motion) : Prop :=
  ∃ target, e.captureOf m = some (m.piece, target)

/-- The landing puts the mover on its end square. -/
def GameEngine.EndsThere (e : GameEngine) (m : Motion) : Prop :=
  (e.land m).board.getPiece m.endPos = some m.piece

/-- Whether the mover ends on its square can be computed. -/
instance (e : GameEngine) (m : Motion) : Decidable (e.EndsThere m) :=
  inferInstanceAs (Decidable (_ = _))

/-- A legal pawn move changes the column to capture, and goes straight to an empty square. -/
theorem pawnMove_of_isMoveLegal {board : Board} {a b : Position} {piece : Piece}
    (h : RuleEngine.isMoveLegal board a b = true) (hpiece : board.pieceAt a = some piece)
    (hpawn : piece.pieceType = .p) :
    a.col = b.col ∧ board.pieceAt b = none ∨
      a.col ≠ b.col ∧ ∃ target, board.pieceAt b = some target ∧ target.color ≠ piece.color := by
  have hempty : ∀ {p}, board.getPiece p = none → board.pieceAt p = none := fun hp => by
    rw [Board.pieceAt, hp, Option.map_none]
  have hmem : b ∈ PieceRules.getPawnMoves a board := by
    unfold RuleEngine.isMoveLegal at h
    rw [if_neg (RuleEngine.ne_of_isMoveLegal h), hpiece] at h
    simp only [hpawn] at h
    split at h
    · exact absurd h Bool.false_ne_true
    · exact of_decide_eq_true h
  obtain ⟨piece', hpiece', hcase⟩ := PieceRules.mem_getPawnMoves.mp hmem
  obtain rfl := Option.some.inj (hpiece.symm.trans hpiece')
  -- one step, two steps, or a step aside onto an enemy
  obtain ⟨hb, -, hnone⟩ | ⟨⟨middle, ⟨rfl, -, -⟩, hb, -, hnone⟩, -⟩ | ⟨dc, hdc, hb, -, henemy⟩ := hcase
  · exact Or.inl ⟨by rw [hb], hempty hnone⟩
  · exact Or.inl ⟨by rw [hb], hempty hnone⟩
  · refine Or.inr ⟨?_, henemy⟩
    simp only [List.mem_cons, List.not_mem_nil, or_false] at hdc
    rw [hb]
    simp only
    omega

/-- A motion that is not a jump was a legal move when it was launched. -/
theorem legal_of_launchOf {e : GameEngine} {c : Call} {m : Motion} (h : e.launchOf c = some m)
    (hflight : m.isJump = false) :
    RuleEngine.isMoveLegal e.board m.startPos m.endPos = true := by
  cases c with
  | move startPos endPos durationMs =>
    obtain ⟨ref, -, h⟩ := Option.bind_eq_some_iff.mp h
    split at h
    · next hlegal =>
      obtain rfl := Option.some.inj h
      exact hlegal
    · exact absurd h (by simp)
  | jump position =>
    obtain ⟨ref, -, rfl⟩ := Option.map_eq_some_iff.mp h
    exact absurd hflight (by simp [jumpMotion])
  | tick ms => exact absurd h (by simp [launchOf])

/-- When a pawn is sent, its direction says what stands on its end square. -/
theorem GameEngine.Launches.pawn {e : GameEngine} {c : Call} {m : Motion} (h : e.Launches c m)
    (hflight : m.isJump = false) (hpawn : (e.piece m.piece).pieceType = .p) :
    ¬ m.ChangesColumn ∧ e.board.getPiece m.endPos = none ∨ m.ChangesColumn ∧ e.EnemyAhead m := by
  obtain ⟨m₀, ms, hlaunch, rfl⟩ := h
  have hlegal := legal_of_launchOf hlaunch hflight
  obtain ⟨-, hstart, -⟩ := launchable_eq_some.mp (launchOf_eq_some hlaunch).1
  have hpiece : e.board.pieceAt m₀.startPos = some (e.piece m₀.piece) := by
    rw [Board.pieceAt, hstart, Option.map_some]
  obtain ⟨hcol, hempty⟩ | ⟨hcol, target, htarget, henemy⟩ :=
    pawnMove_of_isMoveLegal hlegal hpiece hpawn
  · exact Or.inl ⟨not_not.mpr hcol, Option.map_eq_none_iff.mp hempty⟩
  · obtain ⟨ref, href, rfl⟩ := Option.map_eq_some_iff.mp htarget
    exact Or.inr ⟨hcol, ref, href, henemy⟩

/-! ### The landing -/

/-- A landing captures exactly an idle enemy on its end square. -/
theorem takesEnemy_iff {e : GameEngine} {m : Motion} (hflight : m.isJump = false)
    (halive : (e.piece m.piece).status ≠ .captured) : e.TakesEnemy m ↔ e.IdleEnemyAhead m := by
  unfold TakesEnemy IdleEnemyAhead captureOf
  rw [if_neg (by simp [halive, hflight])]
  constructor
  · -- what is captured stood there, is idle and of the other colour
    rintro ⟨target, h⟩
    obtain ⟨ref, href, h⟩ := Option.bind_eq_some_iff.mp h
    refine ⟨ref, href, ?_⟩
    split at h
    · exact absurd h (by simp)
    next henemy =>
    split at h
    · -- shot down by a jumper, who is another piece
      have hself := (Prod.mk.inj (Option.some.inj h)).1
      exact absurd (congrArg (fun r => (e.piece r).color) hself) henemy
    split at h
    · next hidle => exact ⟨hidle, henemy⟩
    · exact absurd h (by simp)
  · -- and such a piece is captured
    rintro ⟨ref, href, hidle, henemy⟩
    refine ⟨ref, ?_⟩
    rw [href, Option.bind_some, if_neg henemy, if_neg (by simp [hidle]), if_pos hidle]

/-- The rule for a pawn that is sent in `asked` and lands in `now`. -/
structure PawnLanding (asked now : GameEngine) (m : Motion) : Prop where
  /-- Only diagonally, unless an enemy has come to the square meanwhile. -/
  of_takes : now.TakesEnemy m →
    m.ChangesColumn ∨ asked.board.getPiece m.endPos = none ∧ now.IdleEnemyAhead m
  /-- Diagonally it captures or does not get there, unless the enemy has gone meanwhile. -/
  of_changesColumn : m.ChangesColumn →
    now.TakesEnemy m ∨ ¬ now.EndsThere m ∨ asked.EnemyAhead m ∧ ¬ now.IdleEnemyAhead m
  /-- The direction is decided by what stands on the square at the request. -/
  changesColumn_iff : m.ChangesColumn ↔ asked.EnemyAhead m
  straight : ¬ m.ChangesColumn → asked.board.getPiece m.endPos = none
  /-- The capture is decided by what stands there at the landing. -/
  takes_iff : now.TakesEnemy m ↔ now.IdleEnemyAhead m

/-- **Pawns capture diagonally and only diagonally, as far as the board of the request goes.**
Whenever a pawn lands in a game on a parsed board, the rule held when its motion was
requested, and its landing departs from it only where an enemy has come or gone meanwhile. -/
theorem pawnLanding {boardLines : List String} {board : Board}
    (hparse : parseInitialBoard boardLines = .ok board) {calls : List Call} {ms : Int}
    {before after : List Motion} {m : Motion}
    (hbatch : ((GameEngine.new board).play calls).completedMotions ms = before ++ m :: after)
    (hflight : m.isJump = false)
    (hpawn : ((before.foldl land (((GameEngine.new board).play calls).afterAdvance ms)).piece
      m.piece).pieceType = .p) :
    ∃ pre c post, calls = pre ++ c :: post ∧ ((GameEngine.new board).play pre).Launches c m ∧
      PawnLanding ((GameEngine.new board).play pre)
        (before.foldl land (((GameEngine.new board).play calls).afterAdvance ms)) m := by
  have hnew : FlightInv (GameEngine.new board) [] :=
    FlightInv.new (Parsed.of_parseInitialBoard hparse)
  -- the request
  have hmem : m ∈ ((GameEngine.new board).play calls).completedMotions ms := by
    rw [hbatch]
    exact List.mem_append_right _ List.mem_cons_self
  obtain ⟨-, m₀, hactive, rfl⟩ := exists_of_mem_advanceTime (Sorting.mem_sortBy.mp hmem)
  obtain ⟨pre, c, post, hsplit, hlaunches⟩ :=
    (launchedIn_play hnew rfl calls m₀ hactive).elapse ms
  refine ⟨pre, c, post, hsplit, hlaunches, ?_⟩
  -- the landing: the mover is alive, and was a pawn all the time
  have hflights := (hnew.play calls).afterAdvance ms
  rw [hbatch, List.append_assoc] at hflights
  have hnow : FlightInv (before.foldl land (((GameEngine.new board).play calls).afterAdvance ms))
      ((elapse ms m₀ :: after) ++
        (((GameEngine.new board).play calls).afterAdvance ms).arbiter.activeMotions) :=
    Run.invariant (P := fun t rest => FlightInv t (rest ++ ((elapse ms m₀ :: after) ++
        (((GameEngine.new board).play calls).afterAdvance ms).arbiter.activeMotions)))
      (fun t m rest ht => (land_cases t m).flightInv ht) hflights
  have halive := hnow.status_ne_captured List.mem_cons_self
  have hrenamed : ((before.foldl land (((GameEngine.new board).play calls).afterAdvance ms)).piece
      m₀.piece).Renamed (((GameEngine.new board).play calls).piece m₀.piece) :=
    Run.stable (P := fun t : GameEngine => (t.piece m₀.piece).Renamed
        (((GameEngine.new board).play calls).piece m₀.piece))
      (fun t m ht => ((land_cases t m).renamed _).trans ht) (Or.inl (Piece.NamedAs.refl _))
  have hplay : ((GameEngine.new board).play calls).piece m₀.piece =
      ((((GameEngine.new board).play pre).play (c :: post)).piece m₀.piece) := by
    rw [hsplit]
    unfold GameEngine.play
    rw [List.foldl_append]
  have hpawn' : (((GameEngine.new board).play pre).piece m₀.piece).pieceType = .p := by
    refine (renamed_play (hnew.play pre) (c :: post) m₀.piece).pawn ?_
    rw [← hplay]
    exact hrenamed.pawn hpawn
  have htakes := takesEnemy_iff hflight halive
  obtain ⟨hcol, hempty⟩ | ⟨hcol, henemy⟩ := hlaunches.pawn hflight hpawn'
  · refine ⟨fun h => Or.inr ⟨hempty, htakes.mp h⟩, fun h => absurd h hcol, ?_, fun _ => hempty, htakes⟩
    refine iff_of_false hcol ?_
    rintro ⟨ref, href, -⟩
    exact absurd (hempty.symm.trans href) (by simp)
  · refine ⟨fun _ => Or.inl hcol, fun _ => ?_, iff_of_true hcol henemy, fun h => absurd hcol h, htakes⟩
    by_cases hidle : (before.foldl land
        (((GameEngine.new board).play calls).afterAdvance ms)).IdleEnemyAhead (elapse ms m₀)
    · exact Or.inl (htakes.mpr hidle)
    · exact Or.inr (Or.inr ⟨henemy, hidle⟩)

/-- A white pawn next to a black rook. -/
def pawnBoard : Board := boardOf [". .", ". bR", "wP ."]

/-- The pawn takes the rook. -/
theorem pawnLanding_takes :
    ∃ pre c post, [Call.move ⟨2, 0⟩ ⟨1, 1⟩ 1000] = pre ++ c :: post ∧
      ((GameEngine.new pawnBoard).play pre).Launches c
        ⟨1, ⟨⟨2, 0⟩⟩, ⟨2, 0⟩, ⟨1, 1⟩, 0, 1000, false⟩ ∧
      PawnLanding ((GameEngine.new pawnBoard).play pre)
        (((GameEngine.new pawnBoard).play [.move ⟨2, 0⟩ ⟨1, 1⟩ 1000]).afterAdvance 1000)
        ⟨1, ⟨⟨2, 0⟩⟩, ⟨2, 0⟩, ⟨1, 1⟩, 0, 1000, false⟩ := by
  have hparse : parseInitialBoard [". .", ". bR", "wP ."] = .ok pawnBoard :=
    parseInitialBoard_eq_boardOf (by decide)
  have hbatch : ((GameEngine.new pawnBoard).play [.move ⟨2, 0⟩ ⟨1, 1⟩ 1000]).completedMotions 1000 =
      [] ++ ⟨1, ⟨⟨2, 0⟩⟩, ⟨2, 0⟩, ⟨1, 1⟩, 0, 1000, false⟩ :: [] := by decide
  exact pawnLanding hparse hbatch rfl (by decide)

/-- The rule at the landing alone. -/
def CapturesDiagonally (now : GameEngine) (m : Motion) : Prop :=
  (now.TakesEnemy m → m.ChangesColumn) ∧ (m.ChangesColumn → now.TakesEnemy m ∨ ¬ now.EndsThere m)

/-- The pawn goes straight on while the rook comes to the same square, lands there after it
and captures it; or it is sent at the rook, which has been sent away, and takes the square
without a capture. -/
theorem not_capturesDiagonally :
    ∃ rook pawn pawn' rook',
      (pawnBoard.piece pawn.piece).pieceType = .p ∧ (pawnBoard.piece pawn'.piece).pieceType = .p ∧
      ((GameEngine.new pawnBoard).play [.move ⟨2, 0⟩ ⟨1, 0⟩ 1000,
        .move ⟨1, 1⟩ ⟨1, 0⟩ 1000]).completedMotions 1000 = [rook, pawn] ∧
      ((GameEngine.new pawnBoard).play [.move ⟨1, 1⟩ ⟨0, 1⟩ 1000,
        .move ⟨2, 0⟩ ⟨1, 1⟩ 1000]).completedMotions 1000 = [pawn', rook'] ∧
      ¬ CapturesDiagonally (((GameEngine.new pawnBoard).play [.move ⟨2, 0⟩ ⟨1, 0⟩ 1000,
        .move ⟨1, 1⟩ ⟨1, 0⟩ 1000]).afterAdvance 1000 |>.land rook) pawn ∧
      ¬ CapturesDiagonally (((GameEngine.new pawnBoard).play [.move ⟨1, 1⟩ ⟨0, 1⟩ 1000,
        .move ⟨2, 0⟩ ⟨1, 1⟩ 1000]).afterAdvance 1000) pawn' := by
  refine ⟨⟨2, ⟨⟨1, 1⟩⟩, ⟨1, 1⟩, ⟨1, 0⟩, 0, 1000, false⟩, ⟨1, ⟨⟨2, 0⟩⟩, ⟨2, 0⟩, ⟨1, 0⟩, 0, 1000, false⟩,
    ⟨2, ⟨⟨2, 0⟩⟩, ⟨2, 0⟩, ⟨1, 1⟩, 0, 1000, false⟩, ⟨1, ⟨⟨1, 1⟩⟩, ⟨1, 1⟩, ⟨0, 1⟩, 0, 1000, false⟩,
    by decide, by decide, by decide, by decide, ?_, ?_⟩
  · -- the rook has landed first, so the straight step captures
    rintro ⟨hstraight, -⟩
    exact absurd (hstraight ⟨⟨⟨1, 1⟩⟩, by decide⟩) (by decide)
  · -- the rook has left the square, so the diagonal step captures nothing
    rintro ⟨-, hdiagonal⟩
    obtain ⟨target, htarget⟩ | hnot := hdiagonal (by decide)
    · have hnone : (((GameEngine.new pawnBoard).play [.move ⟨1, 1⟩ ⟨0, 1⟩ 1000,
          .move ⟨2, 0⟩ ⟨1, 1⟩ 1000]).afterAdvance 1000).captureOf
          ⟨2, ⟨⟨2, 0⟩⟩, ⟨2, 0⟩, ⟨1, 1⟩, 0, 1000, false⟩ = none := by decide
      exact absurd (hnone.symm.trans htarget) (by simp)
    · exact hnot (by decide)

end KungFuChess
