import KungFuChess.Engine.GridBounds
import KungFuChess.Engine.PawnCapture

/-!
# Promotion

A landing that puts a pawn on its last row makes it a queen, and nothing else changes the type of
a piece. The test stands at the end of `settle`, which is the one branch of the loop body that
puts a piece on a square, so no pawn comes to stand on its last row unnoticed.

`PawnInv` says this of a state and its flights, together with where the flights of pawns lead:
a pawn is sent forward only. It is stated for a set of rows that pawns have been seen on, so
that the same invariant says that no pawn is ever seen behind such a row again.
-/

namespace KungFuChess

open GameEngine BoardParser RealTimeArbiter

/-- The pieces are idle, and each stands on one square. -/
structure Board.SetUp (board : Board) : Prop where
  idle : ∀ ref, (board.piece ref).status = .idle
  apart : ∀ p p' ref, board.getPiece p = some ref → board.getPiece p' = some ref → p = p'

/-- No pawn stands on the row on which it becomes a queen. -/
def Board.PawnsUnderway (board : Board) : Prop :=
  ∀ p ref, board.getPiece p = some ref → (board.piece ref).pieceType = .p →
    p.row ≠ promotionRow board (board.piece ref).color

/-- Whether a pawn stands on its last row can be computed. -/
instance (board : Board) : Decidable board.PawnsUnderway :=
  decidable_of_iff (∀ entry ∈ board.grid.entries, (board.piece entry.2).pieceType = .p →
      entry.1.row ≠ promotionRow board (board.piece entry.2).color)
    ⟨fun h p ref hp => h (p, ref) (Dict.mem_entries_iff.mpr hp),
      fun h entry hentry => h entry.1 entry.2 (Dict.mem_entries_iff.mp hentry)⟩

/-- The second row is the first, or nearer to the promotion row of the colour. -/
def Color.Onward (color : Color) (row row' : Int) : Prop :=
  match color with
  | .w => row' ≤ row
  | .b => row ≤ row'

/-- The landing puts a pawn on its promotion row. -/
def GameEngine.PawnArrives (e : GameEngine) (m : Motion) : Prop :=
  (e.piece m.piece).pieceType = .p ∧ m.isJump = false ∧ e.EndsThere m ∧
    m.endPos.row = promotionRow e.board (e.piece m.piece).color

/-- Whether a landing brings a pawn to its last row can be computed. -/
instance (e : GameEngine) (m : Motion) : Decidable (e.PawnArrives m) :=
  inferInstanceAs (Decidable (_ ∧ _ ∧ _ ∧ _))

section Onward

variable {color : Color} {r₁ r₂ r₃ : Int}

theorem Color.Onward.refl (color : Color) (row : Int) : color.Onward row row := by
  cases color <;> exact le_rfl

/-- Onward and onward. -/
theorem Color.Onward.trans (h : color.Onward r₁ r₂) (h' : color.Onward r₂ r₃) :
    color.Onward r₁ r₃ := by
  cases color with
  | w => exact le_trans h' h
  | b => exact le_trans h h'

end Onward

/-! ### One landing -/

section Landing

variable {e e' : GameEngine} {m : Motion} {rest : List Motion}

/-- What the test at the end of a landing changes. -/
theorem pieceType_promote (e : GameEngine) (m : Motion) (ref : PieceRef) :
    ((e.promote m).piece ref).pieceType =
      if ref = m.piece ∧ (e.piece m.piece).pieceType = .p ∧
        m.endPos.row = promotionRow e.board (e.piece m.piece).color then .q
      else (e.piece ref).pieceType := by
  unfold promote
  by_cases h : (e.piece m.piece).pieceType = .p ∧
      m.endPos.row = promotionRow e.board (e.piece m.piece).color
  · rw [if_pos h]
    change (Function.update e.board.piece m.piece _ ref).pieceType = _
    rw [Function.update_apply]
    by_cases href : ref = m.piece
    · rw [if_pos href, if_pos ⟨href, h⟩]
    · rw [if_neg href, if_neg fun hboth => href hboth.1]
  · rw [if_neg h, if_neg fun hboth => h hboth.2]

/-- A mover that takes its end square is promoted there, if it is a pawn on its last row. -/
theorem pieceType_settle (e : GameEngine) (m : Motion) (ref : PieceRef) :
    ((e.settle m).piece ref).pieceType =
      if ref = m.piece ∧ (e.piece m.piece).pieceType = .p ∧
        m.endPos.row = promotionRow e.board (e.piece m.piece).color then .q
      else (e.piece ref).pieceType := by
  unfold settle
  dsimp only
  rw [pieceType_promote]
  -- the square is written after the statuses, and writing it changes no piece
  have hplaced : ∀ ref', (({ (e.setStatus m.piece .idle).leaveStart m with
      board := ((e.setStatus m.piece .idle).leaveStart m).board.setPiece m.endPos
        (some m.piece) } : GameEngine).piece ref') = (e.setStatus m.piece .idle).piece ref' := by
    intro ref'
    change (((e.setStatus m.piece .idle).leaveStart m).board.setPiece m.endPos
      (some m.piece)).piece ref' = _
    rw [Board.piece_setPiece]
    exact piece_leaveStart _ _ _
  have hrow : ∀ color, promotionRow (((e.setStatus m.piece .idle).leaveStart m).board.setPiece
      m.endPos (some m.piece)) color = promotionRow e.board color := by
    intro color
    have hsize := (Board.size_setPiece ((e.setStatus m.piece .idle).leaveStart m).board m.endPos
      (some m.piece)).trans (size_leaveStart (e.setStatus m.piece .idle) m)
    unfold promotionRow
    rw [(Prod.mk.inj hsize).1]
    rfl
  rw [hplaced, hplaced, hrow, piece_setStatus_pieceType, piece_setStatus_pieceType,
    piece_setStatus_color]

theorem promotionRow_congr {board board' : Board} (hsize : board'.size = board.size)
    (color : Color) : promotionRow board' color = promotionRow board color := by
  unfold promotionRow
  rw [(Prod.mk.inj hsize).1]

/-- A capture changes no type. -/
theorem pieceType_captureTarget (e : GameEngine) (m : Motion) (target ref : PieceRef) :
    ((e.captureTarget m target).piece ref).pieceType = (e.piece ref).pieceType := by
  change ((((e.setStatus target .captured).scoreCapture m.piece target).board.setPiece
    m.endPos none).piece ref).pieceType = _
  rw [Board.piece_setPiece, board_scoreCapture]
  exact piece_setStatus_pieceType e target .captured ref

/-- A capture by a jumper changes no type. -/
theorem pieceType_capturedByJumper (e : GameEngine) (m : Motion) (jumper ref : PieceRef) :
    ((e.capturedByJumper m jumper).piece ref).pieceType = (e.piece ref).pieceType := by
  unfold capturedByJumper
  rw [piece_leaveStart, piece, board_scoreCapture]
  exact piece_setStatus_pieceType e m.piece .captured ref

/-- **The one way to another type**: a pawn lands on its last row. -/
theorem pieceType_land (h : FlightInv e (m :: rest)) (ref : PieceRef) :
    ((e.land m).piece ref).pieceType =
      if ref = m.piece ∧ e.PawnArrives m then .q else (e.piece ref).pieceType := by
  -- a mover that is not put on its end square does not stand there
  have hstays : (m.isJump = false → (e.land m).board.getPiece m.endPos = e.board.getPiece m.endPos ∨
      (e.land m).board.getPiece m.endPos = none) → ¬ (ref = m.piece ∧ e.PawnArrives m) := by
    rintro hget ⟨-, -, hflight, hends, -⟩
    obtain hsame | hnone := hget hflight
    · exact h.getPiece_end_ne hflight (hsame.symm.trans hends)
    · exact absurd (hnone.symm.trans hends) (by simp)
  -- and one that is put there is promoted on the last row
  have harrives : ∀ {t : GameEngine}, e.land m = t.settle m → m.isJump = false →
      (e.PawnArrives m ↔ (e.piece m.piece).pieceType = .p ∧
        m.endPos.row = promotionRow e.board (e.piece m.piece).color) := by
    intro t ht hflight
    have hends : e.EndsThere m := by
      unfold EndsThere
      rw [ht, getPiece_settle, if_pos rfl]
    exact ⟨fun ha => ⟨ha.1, ha.2.2.2⟩, fun ha => ⟨ha.1, hflight, hends, ha.2⟩⟩
  have hland := land_cases e m
  generalize hnext : e.land m = e' at hland
  rw [hnext] at hstays harrives
  cases hland with
  | skipped => rw [if_neg (hstays fun _ => Or.inl rfl)]
  | jumpEnds | blocked =>
    rw [if_neg (hstays fun _ => Or.inl rfl)]
    exact piece_setStatus_pieceType _ _ _ _
  | shotDown jumper =>
    rw [if_neg (hstays fun _ => ?_), pieceType_capturedByJumper]
    rw [getPiece_capturedByJumper]
    split
    · exact Or.inr rfl
    · exact Or.inl rfl
  | takes target _ hflight =>
    rw [pieceType_settle, pieceType_captureTarget, pieceType_captureTarget, color_captureTarget,
      promotionRow_congr (size_captureTarget e m target)]
    exact if_congr (and_congr_right fun _ => (harrives rfl hflight).symm) rfl rfl
  | settles _ hflight =>
    rw [pieceType_settle]
    exact if_congr (and_congr_right fun _ => (harrives rfl hflight).symm) rfl rfl

end Landing

/-! ### The pawns on the board and on their way -/

/-- No pawn is on its last row, pawns are sent forward, and a pawn that has been seen on a row,
as `seen` says, is not behind it. -/
structure PawnInv (seen : PieceRef → Int → Prop) (e : GameEngine) (flights : List Motion) : Prop where
  underway : e.board.PawnsUnderway
  forward : ∀ m ∈ flights, m.isJump = false → (e.piece m.piece).pieceType = .p →
    (e.piece m.piece).color.Onward m.startPos.row m.endPos.row
  /-- On the grid. -/
  placed : ∀ ref row, seen ref row → (e.piece ref).pieceType = .p →
    ∀ p, e.board.getPiece p = some ref → (e.piece ref).color.Onward row p.row
  /-- Where its flight has started. -/
  started : ∀ m ∈ flights, ∀ row, seen m.piece row → (e.piece m.piece).pieceType = .p →
    (e.piece m.piece).color.Onward row m.startPos.row

namespace PawnInv

variable {seen : PieceRef → Int → Prop} {e e' : GameEngine} {m : Motion} {flights rest : List Motion}

/-- Flights advance, pawns stay pawns. -/
theorem of_perm_elapse {ms : Int} {flights' : List Motion} (h : PawnInv seen e flights)
    (hperm : flights'.Perm (flights.map (elapse ms))) : PawnInv seen e flights' := by
  have hmem : ∀ {m'}, m' ∈ flights' → ∃ m ∈ flights, elapse ms m = m' := fun hm' =>
    List.mem_map.mp (hperm.mem_iff.mp hm')
  refine ⟨h.underway, fun m' hm' hflight hpawn => ?_, h.placed, fun m' hm' row hseen hpawn => ?_⟩
  · obtain ⟨m, hm, rfl⟩ := hmem hm'
    exact h.forward m hm hflight hpawn
  · obtain ⟨m, hm, rfl⟩ := hmem hm'
    exact h.started m hm row hseen hpawn

/-- **Invariant preservation, one landing.** -/
theorem land (h : PawnInv seen e (m :: rest)) (hI : FlightInv e (m :: rest)) :
    PawnInv seen (e.land m) rest := by
  have hland := land_cases e m
  have hcolor := hland.color
  -- what is a pawn after the landing was one before, and has not arrived
  have hpawn : ∀ {ref}, ((e.land m).piece ref).pieceType = .p →
      (e.piece ref).pieceType = .p ∧ ¬ (ref = m.piece ∧ e.PawnArrives m) := by
    intro ref hp
    rw [pieceType_land hI] at hp
    obtain ⟨hnot, hp⟩ := unwritten hp (by simp)
    exact ⟨hp, hnot⟩
  refine ⟨fun p ref hp htype => ?_, fun m' hm' hflight htype => ?_,
    fun ref row hseen htype p hp => ?_, fun m' hm' row hseen htype => ?_⟩
  · obtain ⟨htype, hnot⟩ := hpawn htype
    rw [hcolor, promotionRow_congr hland.size]
    obtain hbefore | ⟨hflight, rfl, rfl⟩ := hland.getPiece_of_some hp
    · exact h.underway p ref hbefore htype
    · exact fun hrow => hnot ⟨rfl, htype, hflight, hp, hrow⟩
  · rw [hcolor]
    exact h.forward m' (List.mem_cons_of_mem m hm') hflight (hpawn htype).1
  · rw [hcolor]
    obtain hbefore | ⟨hflight, rfl, rfl⟩ := hland.getPiece_of_some hp
    · exact h.placed ref row hseen (hpawn htype).1 p hbefore
    · -- it has come from its start, and has gone forward
      have hstart := h.started m List.mem_cons_self row hseen (hpawn htype).1
      exact hstart.trans (h.forward m List.mem_cons_self hflight (hpawn htype).1)
  · rw [hcolor]
    exact h.started m' (List.mem_cons_of_mem m hm') row hseen (hpawn htype).1

end PawnInv

/-! ### Calls -/

/-- The rules send a pawn forward. -/
theorem onward_of_isMoveLegal {board : Board} {a b : Position} {piece : Piece}
    (h : RuleEngine.isMoveLegal board a b = true) (hpiece : board.pieceAt a = some piece)
    (hpawn : piece.pieceType = .p) : piece.color.Onward a.row b.row := by
  have hmem : b ∈ PieceRules.getPawnMoves a board := by
    unfold RuleEngine.isMoveLegal at h
    rw [if_neg (RuleEngine.ne_of_isMoveLegal h), hpiece] at h
    simp only [hpawn] at h
    split at h
    · exact absurd h Bool.false_ne_true
    · exact of_decide_eq_true h
  obtain ⟨piece', hpiece', hcase⟩ := PieceRules.mem_getPawnMoves.mp hmem
  obtain rfl := Option.some.inj (hpiece.symm.trans hpiece')
  -- one row or two, in the direction of the colour
  have hrow : ∃ k : Int, 0 ≤ k ∧ b.row = a.row + k * (if piece.color = .w then -1 else 1) := by
    obtain ⟨rfl, -⟩ | ⟨⟨middle, ⟨rfl, -⟩, rfl, -⟩, -⟩ | ⟨dc, -, rfl, -⟩ := hcase
    · exact ⟨1, by omega, by simp only; omega⟩
    · exact ⟨2, by omega, by simp only; omega⟩
    · exact ⟨1, by omega, by simp only; omega⟩
  obtain ⟨k, hk, hrow⟩ := hrow
  unfold Color.Onward
  cases hcolor : piece.color with
  | w =>
    rw [hcolor, if_pos rfl] at hrow
    dsimp only
    omega
  | b =>
    rw [hcolor, if_neg (by simp)] at hrow
    dsimp only
    omega

namespace PawnInv

variable {seen : PieceRef → Int → Prop} {e : GameEngine}

/-- A launch writes a status and adds a flight, which starts on the square of its piece. -/
theorem launch (h : PawnInv seen e e.arbiter.activeMotions) {c : Call} {m : Motion}
    (hlaunch : e.launchOf c = some m) (status : PieceStatus) :
    PawnInv seen (e.setStatus m.piece status) (e.arbiter.activeMotions ++ [m]) := by
  obtain ⟨-, hstart, -⟩ := launchable_eq_some.mp (launchOf_eq_some hlaunch).1
  have hpiece : e.board.pieceAt m.startPos = some (e.piece m.piece) := by
    rw [Board.pieceAt, hstart, Option.map_some]
  refine ⟨fun p ref hp htype => ?_, fun m' hm' hflight htype => ?_,
    -- the four parts, of which the flights have one case more: the new motion
    fun ref row hseen htype p hp => ?_, fun m' hm' row hseen htype => ?_⟩
  · change ((e.setStatus m.piece status).piece ref).pieceType = .p at htype
    change p.row ≠ promotionRow e.board ((e.setStatus m.piece status).piece ref).color
    rw [piece_setStatus_pieceType] at htype
    rw [piece_setStatus_color]
    exact h.underway p ref hp htype
  · rw [piece_setStatus_pieceType] at htype
    rw [piece_setStatus_color]
    obtain hm' | hm' := List.mem_append.mp hm'
    · exact h.forward m' hm' hflight htype
    · obtain rfl := List.mem_singleton.mp hm'
      exact onward_of_isMoveLegal (legal_of_launchOf hlaunch hflight) hpiece htype
  · rw [piece_setStatus_pieceType] at htype
    rw [piece_setStatus_color]
    exact h.placed ref row hseen htype p hp
  · rw [piece_setStatus_pieceType] at htype
    rw [piece_setStatus_color]
    obtain hm' | hm' := List.mem_append.mp hm'
    · exact h.started m' hm' row hseen htype
    · obtain rfl := List.mem_singleton.mp hm'
      exact h.placed m'.piece row hseen htype m'.startPos hstart

theorem of_sublist {flights flights' : List Motion} (h : PawnInv seen e flights)
    (hsub : ∀ m ∈ flights', m ∈ flights) : PawnInv seen e flights' :=
  ⟨h.underway, fun m hm => h.forward m (hsub m hm), h.placed, fun m hm => h.started m (hsub m hm)⟩

/-- **Invariant preservation, one call.** -/
theorem call (h : PawnInv seen e e.arbiter.activeMotions)
    (hI : FlightInv e e.arbiter.activeMotions) (c : Call) :
    PawnInv seen (e.call c) (e.call c).arbiter.activeMotions := by
  have hcase := call_cases hI c
  generalize e.call c = e' at hcase
  cases hcase with
  | rejected => exact h
  -- the scores are no part of the invariant
  | launched m scoreboard hlaunch =>
    have hlaunched := h.launch hlaunch m.status
    exact ⟨hlaunched.underway, hlaunched.forward, hlaunched.placed, hlaunched.started⟩
  | cancelled m scoreboard hlaunch =>
    have hlaunched := (h.launch hlaunch .moving).of_sublist
      fun m' (hm' : m' ∈ e.arbiter.activeMotions) => List.mem_append_left _ hm'
    exact ⟨hlaunched.underway, hlaunched.forward, hlaunched.placed, hlaunched.started⟩
  | ticked ms =>
    rw [arbiter_foldl_land]
    have hstart : PawnInv seen (e.afterAdvance ms)
        (e.completedMotions ms ++ (e.afterAdvance ms).arbiter.activeMotions) :=
      have haged := h.of_perm_elapse (FlightInv.completed_append_perm e ms)
      ⟨haged.underway, haged.forward, haged.placed, haged.started⟩
    -- induction over the batch, with the flight invariant
    exact (Run.invariant
      (P := fun t rest => PawnInv seen t (rest ++ (e.afterAdvance ms).arbiter.activeMotions) ∧
        FlightInv t (rest ++ (e.afterAdvance ms).arbiter.activeMotions))
      (fun t m rest ht => ⟨ht.1.land ht.2, (land_cases t m).flightInv ht.2⟩)
      ⟨hstart, hI.afterAdvance ms⟩).1

/-- **Any number of calls.** -/
theorem play (h : PawnInv seen e e.arbiter.activeMotions)
    (hI : FlightInv e e.arbiter.activeMotions) (calls : List Call) :
    PawnInv seen (e.play calls) (e.play calls).arbiter.activeMotions :=
  (Run.stable (P := fun t : GameEngine => PawnInv seen t t.arbiter.activeMotions ∧
    FlightInv t t.arbiter.activeMotions)
    (fun _ c ht => ⟨ht.1.call ht.2 c, ht.2.call c⟩) ⟨h, hI⟩).1

/-- Every pawn has been seen where it stands. -/
theorem see {flights : List Motion} (h : PawnInv seen e flights) (hI : FlightInv e flights) :
    PawnInv (fun ref row => ∃ p, e.board.getPiece p = some ref ∧ p.row = row) e flights := by
  refine ⟨h.underway, h.forward, ?_, ?_⟩
  · -- it stands on one square, which is the start of its flight if it has one
    rintro ref row ⟨p₀, hp₀, rfl⟩ - p hp
    rw [hI.placed p₀ p ref hp₀ hp]
    exact Color.Onward.refl _ _
  · rintro m hm row ⟨p₀, hp₀, rfl⟩ -
    rw [hI.atStart m hm p₀ hp₀]
    exact Color.Onward.refl _ _

end PawnInv

/-! ### Games -/

theorem Board.SetUp.of_parsed {board : Board} (h : Parsed board) : board.SetUp :=
  ⟨h.idle, fun _ _ _ hp hp' => h.injective hp hp'⟩

/-- No motion is in flight on a board that is set up. -/
theorem FlightInv.of_setUp {board : Board} (h : board.SetUp) :
    FlightInv (GameEngine.new board) [] := by
  refine ⟨fun m hm => absurd hm List.not_mem_nil, List.nodup_nil, fun ref hjumping => ?_, h.apart,
    fun p ref _ hcaptured => ?_, fun m hm => absurd hm List.not_mem_nil,
    fun m hm => absurd hm List.not_mem_nil⟩
  · exact absurd ((h.idle ref).symm.trans hjumping) (by simp)
  · exact absurd ((h.idle ref).symm.trans hcaptured) (by simp)

/-- The type of before, or a queen that has been a pawn. -/
def Piece.Grown (before after : Piece) : Prop :=
  after.pieceType = before.pieceType ∨ before.pieceType = .p ∧ after.pieceType = .q

/-- Growing twice is growing once. -/
theorem Piece.Grown.trans {a b c : Piece} (h : a.Grown b) (h' : b.Grown c) : a.Grown c := by
  obtain h | ⟨hpawn, hqueen⟩ := h <;> obtain h' | ⟨hpawn', hqueen'⟩ := h'
  · exact Or.inl (h'.trans h)
  · exact Or.inr ⟨h.symm.trans hpawn', hqueen'⟩
  · exact Or.inr ⟨hpawn, h'.trans hqueen⟩
  · exact absurd (hqueen.symm.trans hpawn') (by simp)

/-- **A piece changes its type once at most**, from pawn to queen. -/
theorem grown_play {e : GameEngine} (h : FlightInv e e.arbiter.activeMotions) (calls : List Call)
    (ref : PieceRef) : (e.piece ref).Grown ((e.play calls).piece ref) := by
  have hland : ∀ (t : GameEngine) (m : Motion), (t.piece ref).Grown ((t.land m).piece ref) := by
    intro t m
    obtain hnamed | ⟨hpawn, hqueen⟩ := (land_cases t m).named ref
    · exact Or.inl hnamed.pieceType
    · exact Or.inr ⟨hpawn, hqueen.pieceType⟩
  -- by induction on the calls; only a landing changes a type
  induction calls generalizing e with
  | nil => exact Or.inl rfl
  | cons c calls ih =>
    refine Piece.Grown.trans ?_ (ih (h.call c))
    have hcase := call_cases h c
    generalize e.call c = e' at hcase
    cases hcase with
    | rejected => exact Or.inl rfl
    | launched m => exact Or.inl (piece_setStatus_pieceType e m.piece m.status ref)
    | cancelled m => exact Or.inl (piece_setStatus_pieceType e m.piece .moving ref)
    | ticked ms =>
      exact Run.stable (P := fun t : GameEngine => (e.piece ref).Grown (t.piece ref))
        (fun t m ht => ht.trans (hland t m)) (Or.inl rfl)

/-- What is known of the pawns after a game. -/
structure Promotions (board : Board) (calls : List Call) : Prop where
  underway : ((GameEngine.new board).play calls).board.PawnsUnderway
  color : ∀ ref, (((GameEngine.new board).play calls).piece ref).color = (board.piece ref).color
  /-- Between any two states of the game. -/
  grown : ∀ pre post, calls = pre ++ post → ∀ ref, (((GameEngine.new board).play pre).piece ref).Grown
    (((GameEngine.new board).play calls).piece ref)
  /-- A request changes no type. -/
  requested : ∀ c, (∀ ms, c ≠ .tick ms) → ∀ ref,
    ((((GameEngine.new board).play calls).call c).piece ref).pieceType =
      (((GameEngine.new board).play calls).piece ref).pieceType
  /-- A landing changes the type of a pawn that lands on its last row, and no other. -/
  landed : ∀ ms before m after,
    ((GameEngine.new board).play calls).completedMotions ms = before ++ m :: after → ∀ ref,
      (((before.foldl land (((GameEngine.new board).play calls).afterAdvance ms)).land m).piece
          ref).pieceType ≠
        ((before.foldl land (((GameEngine.new board).play calls).afterAdvance ms)).piece
          ref).pieceType ↔
      ref = m.piece ∧
        (before.foldl land (((GameEngine.new board).play calls).afterAdvance ms)).PawnArrives m
  /-- What is a pawn still has not gone back. -/
  onward : ∀ pre post, calls = pre ++ post → ∀ ref p p',
    ((GameEngine.new board).play pre).board.getPiece p = some ref →
    ((GameEngine.new board).play calls).board.getPiece p' = some ref →
    (((GameEngine.new board).play calls).piece ref).pieceType = .p →
    (board.piece ref).color.Onward p.row p'.row

section Types

variable {e : GameEngine}

/-- A request changes no type. -/
theorem pieceType_call_of_request (h : FlightInv e e.arbiter.activeMotions) {c : Call}
    (hc : ∀ ms, c ≠ .tick ms) (ref : PieceRef) :
    ((e.call c).piece ref).pieceType = (e.piece ref).pieceType := by
  have hcase := call_cases h c
  generalize e.call c = e' at hcase
  cases hcase with
  | rejected => rfl
  | launched m => exact piece_setStatus_pieceType _ m.piece m.status ref
  | cancelled m => exact piece_setStatus_pieceType _ m.piece .moving ref
  | ticked ms hcall => exact absurd hcall (hc ms)

/-- Of all landings of a tick, those of arriving pawns change a type. -/
theorem pieceType_landed_iff (h : FlightInv e e.arbiter.activeMotions) {ms : Int}
    {before after : List Motion} {m : Motion} (hbatch : e.completedMotions ms = before ++ m :: after)
    (ref : PieceRef) :
    (((before.foldl land (e.afterAdvance ms)).land m).piece ref).pieceType ≠
        ((before.foldl land (e.afterAdvance ms)).piece ref).pieceType ↔
      ref = m.piece ∧ (before.foldl land (e.afterAdvance ms)).PawnArrives m := by
  have hflights := h.afterAdvance ms
  rw [hbatch, List.append_assoc] at hflights
  -- the landings before this one keep the invariant
  have hnow := Run.invariant (P := fun t rest =>
      FlightInv t (rest ++ (m :: after ++ (e.afterAdvance ms).arbiter.activeMotions)))
    (fun t m' rest ht => (land_cases t m').flightInv ht) hflights
  rw [pieceType_land hnow]
  constructor
  · intro hchanged
    by_contra hnot
    rw [if_neg hnot] at hchanged
    exact hchanged rfl
  · rintro ⟨rfl, harrives⟩
    rw [if_pos ⟨rfl, harrives⟩, harrives.1]
    simp

end Types

/-- **Promotion is complete, and types change by promotion only.** On a board with no pawn on
its last row, no game brings one there, and every pawn that lands there is a queen from then
on. -/
theorem promotion_play {board : Board} (hset : board.SetUp) (hrows : board.PawnsUnderway)
    (calls : List Call) : Promotions board calls := by
  have hnew : FlightInv (GameEngine.new board) [] := FlightInv.of_setUp hset
  -- no pawn has been seen yet
  have hpawns : PawnInv (fun _ _ => False) (GameEngine.new board) [] :=
    ⟨hrows, fun m hm => absurd hm List.not_mem_nil, fun _ _ hseen => hseen.elim,
      fun m hm => absurd hm List.not_mem_nil⟩
  have hplay : ∀ pre post, (GameEngine.new board).play (pre ++ post) =
      ((GameEngine.new board).play pre).play post := fun _ _ => List.foldl_append
  refine ⟨(hpawns.play hnew calls).underway, color_play hnew calls, ?_,
    fun c hc ref => pieceType_call_of_request (hnew.play calls) hc ref,
    fun ms before m after hbatch ref => pieceType_landed_iff (hnew.play calls) hbatch ref, ?_⟩
  · rintro pre post rfl ref
    rw [hplay]
    exact grown_play (hnew.play pre) post ref
  · -- what stands on the grid now counts as seen, and the game goes on from here
    rintro pre post rfl ref p p' hp hp' hpawn
    have hseen := ((hpawns.play hnew pre).see (hnew.play pre)).play (hnew.play pre) post
    rw [hplay] at hp' hpawn
    have honward := hseen.placed ref p.row ⟨p, hp, rfl⟩ hpawn p' hp'
    rwa [color_play (hnew.play pre) post, color_play hnew pre] at honward

/-- A white pawn goes to the last row. -/
theorem promotion_play_lastRow :
    Promotions (boardOf [". .", "wP bK"]) [.move ⟨1, 0⟩ ⟨0, 0⟩ 1000, .tick 1000] := by
  have hparse : parseInitialBoard [". .", "wP bK"] = .ok (boardOf [". .", "wP bK"]) :=
    parseInitialBoard_eq_boardOf (by decide)
  exact promotion_play (Board.SetUp.of_parsed (Parsed.of_parseInitialBoard hparse)) (by decide) _

end KungFuChess
