import Mathlib.Tactic.Common
import KungFuChess.Engine.GameEngine

/-!
# Mirrored boards and the rules

The mirror swaps the colours and counts the rows from the other side. `Board.Mirrors` and
its siblings relate a board, a piece or a motion to its mirror image, as far as the rules
look: the identifier of a piece is not compared.

The file shows that the rules do not tell a board from its mirror image: each move
generator collects the mirrored squares (`isMoveLegal_mirror`), and two motions are on a
collision course exactly when their images are (`areOnCollisionCourse_mirror`).
-/

namespace KungFuChess

/-! ### Mirror images -/

/-- The other colour. -/
def Color.swap : Color → Color
  | .w => .b
  | .b => .w

@[simp] theorem Color.swap_swap (c : Color) : c.swap.swap = c := by cases c <;> rfl

theorem Color.swap_inj {c c' : Color} : c.swap = c'.swap ↔ c = c' := by
  cases c <;> cases c' <;> decide

/-- The square with its row counted from the other side of a board of `rows` rows. -/
def Position.mirror (rows : Nat) (p : Position) : Position := ⟨rows - 1 - p.row, p.col⟩

/-- The image of a piece object is the object created on the mirrored square. -/
def PieceRef.mirror (rows : Nat) (ref : PieceRef) : PieceRef := ⟨ref.origin.mirror rows⟩

/-- The image of a motion carries the image of the piece, with the same number and in the same time.
-/
def Motion.mirror (rows : Nat) (m : Motion) : Motion :=
  { m with
    piece := m.piece.mirror rows
    startPos := m.startPos.mirror rows
    endPos := m.endPos.mirror rows }

section Involution

variable {rows : Nat}

/-- The mirror is its own inverse on squares, -/
@[simp] theorem Position.mirror_mirror (p : Position) : (p.mirror rows).mirror rows = p := by
  obtain ⟨row, col⟩ := p
  have hrow : (rows : Int) - 1 - (rows - 1 - row) = row := by omega
  change Position.mk ((rows : Int) - 1 - (rows - 1 - row)) col = ⟨row, col⟩
  rw [hrow]

theorem Position.mirror_injective : Function.Injective (Position.mirror rows) :=
  Function.LeftInverse.injective Position.mirror_mirror

@[simp] theorem Position.mirror_inj {p p' : Position} :
    p.mirror rows = p'.mirror rows ↔ p = p' := Position.mirror_injective.eq_iff

@[simp] theorem PieceRef.mirror_mirror (ref : PieceRef) : (ref.mirror rows).mirror rows = ref :=
  congrArg PieceRef.mk ref.origin.mirror_mirror

theorem PieceRef.mirror_injective : Function.Injective (PieceRef.mirror rows) :=
  Function.LeftInverse.injective PieceRef.mirror_mirror

@[simp] theorem PieceRef.mirror_inj {ref ref' : PieceRef} :
    ref.mirror rows = ref'.mirror rows ↔ ref = ref' := PieceRef.mirror_injective.eq_iff

@[simp] theorem Motion.mirror_mirror (m : Motion) : (m.mirror rows).mirror rows = m := by
  obtain ⟨motionId, piece, startPos, endPos, remainingTime, originalDuration, isJump⟩ := m
  simp [Motion.mirror]

theorem Motion.mirror_injective : Function.Injective (Motion.mirror rows) :=
  Function.LeftInverse.injective Motion.mirror_mirror

end Involution

/-- The pieces have opposite colours and agree otherwise. -/
structure Piece.Mirrors (a a' : Piece) : Prop where
  color : a'.color = a.color.swap
  pieceType : a'.pieceType = a.pieceType
  status : a'.status = a.status

theorem Piece.Mirrors.symm {a a' : Piece} (h : a.Mirrors a') : a'.Mirrors a where
  color := by rw [h.color, Color.swap_swap]
  pieceType := h.pieceType.symm
  status := h.status.symm

/-- The second board, of as many rows, is the mirror image of the first. -/
structure Board.Mirrors (rows : Nat) (board board' : Board) : Prop where
  numRows : board.numRows = rows
  numRows' : board'.numRows = rows
  numCols : board'.numCols = board.numCols
  getPiece : ∀ p, board'.getPiece (p.mirror rows) = (board.getPiece p).map (PieceRef.mirror rows)
  piece : ∀ ref, (board.piece ref).Mirrors (board'.piece (ref.mirror rows))

/-- The mirror image of a board. -/
def Board.mirror (board : Board) : Board where
  numRows := board.numRows
  numCols := board.numCols
  grid := board.grid.rename (Position.mirror board.numRows) Position.mirror_injective
    (PieceRef.mirror board.numRows)
  piece := fun ref =>
    let piece := board.piece (ref.mirror board.numRows)
    { piece with color := piece.color.swap }

/-- The mirror image of a board is one in the sense of the relation. -/
theorem Board.mirrors_mirror (board : Board) : board.Mirrors board.numRows board.mirror where
  numRows := rfl
  numRows' := rfl
  numCols := rfl
  getPiece := fun p => Dict.get?_rename _ Position.mirror_injective _ board.grid p
  piece := fun ref => by
    refine ⟨?_, ?_, ?_⟩ <;>
    · -- the object on the mirrored square is the image of the object
      dsimp only [Board.mirror]
      rw [PieceRef.mirror_mirror]

namespace Board.Mirrors

variable {rows : Nat} {board board' : Board}

/-- The relation is symmetric, so what is shown of the image holds of the board as well. -/
theorem symm (h : board.Mirrors rows board') : board'.Mirrors rows board where
  numRows := h.numRows'
  numRows' := h.numRows
  numCols := h.numCols.symm
  getPiece := fun p => by
    have hp := h.getPiece (p.mirror rows)
    rw [Position.mirror_mirror] at hp
    rw [hp, Option.map_map]
    cases board.getPiece (p.mirror rows) with
    | none => rfl
    | some ref => exact congrArg some ref.mirror_mirror.symm
  piece := fun ref => by
    have hpiece := h.piece (ref.mirror rows)
    rw [PieceRef.mirror_mirror] at hpiece
    exact hpiece.symm

theorem getPiece_eq_none_iff (h : board.Mirrors rows board') (p : Position) :
    board'.getPiece (p.mirror rows) = none ↔ board.getPiece p = none := by
  rw [h.getPiece, Option.map_eq_none_iff]

/-- A piece stands on a square exactly when its image stands on the image. -/
theorem getPiece_eq_some_iff (h : board.Mirrors rows board') (p : Position) (ref : PieceRef) :
    board'.getPiece (p.mirror rows) = some (ref.mirror rows) ↔ board.getPiece p = some ref := by
  rw [h.getPiece]
  exact (Option.map_injective PieceRef.mirror_injective).eq_iff (b := some ref)

/-- What stands on a square and on its image: nothing, or a piece and its image. -/
theorem pieceAt_cases (h : board.Mirrors rows board') (p : Position) :
    (board.pieceAt p = none ∧ board'.pieceAt (p.mirror rows) = none) ∨
      ∃ a a', board.pieceAt p = some a ∧ board'.pieceAt (p.mirror rows) = some a' ∧
        a.Mirrors a' := by
  unfold Board.pieceAt
  rw [h.getPiece]
  cases board.getPiece p with
  | none => exact Or.inl ⟨rfl, rfl⟩
  | some ref => exact Or.inr ⟨_, _, rfl, rfl, h.piece ref⟩

/-- The edges of the board are taken to edges. -/
theorem inBounds_mirror (h : board.Mirrors rows board') (r c : Int) :
    PieceRules.inBounds (rows - 1 - r) c board' = PieceRules.inBounds r c board := by
  unfold PieceRules.inBounds
  rw [h.numRows, h.numRows', h.numCols, decide_eq_decide]
  omega

/-! ### Move generators -/

section Generators

open PieceRules

/-- The image of a ray is the ray of the image, with the direction turned around. -/
theorem ray_mirror (h : board.Mirrors rows board') (color : Color) (dr dc : Int) (fuel : Nat)
    (r c : Int) :
    ray board' color.swap (-dr) dc fuel (rows - 1 - r) c =
      (ray board color dr dc fuel r c).map (Position.mirror rows) := by
  induction fuel generalizing r c with
  | zero => rfl
  | succ fuel ih =>
    have hnext : (rows : Int) - 1 - r + -dr = rows - 1 - (r + dr) := by omega
    have hpos : (⟨rows - 1 - r, c⟩ : Position) = Position.mirror rows ⟨r, c⟩ := rfl
    -- a ray looks at one square and goes on from the next, in both boards
    unfold ray
    rw [h.inBounds_mirror, hnext, ih, hpos]
    split
    -- whether the ray stops here depends on who stands here, and whether he is an enemy
    · obtain ⟨hnone, hnone'⟩ | ⟨a, a', hsome, hsome', ha⟩ := h.pieceAt_cases ⟨r, c⟩
      · rw [hnone, hnone']
        rfl
      · rw [hsome, hsome']
        simp only [ha.status, ha.color, ne_eq, Color.swap_inj]
        split
        · rfl
        · split <;> rfl
    · rfl

/-- Directions that come with their turned-around companions. -/
theorem mem_slidingMoves_mirror (h : board.Mirrors rows board') (directions : List (Int × Int))
    (hturn : ∀ d ∈ directions, (-d.1, d.2) ∈ directions) (start p : Position) :
    p.mirror rows ∈ slidingMoves directions (start.mirror rows) board' ↔
      p ∈ slidingMoves directions start board := by
  unfold slidingMoves
  obtain ⟨hnone, hnone'⟩ | ⟨a, a', hsome, hsome', ha⟩ := h.pieceAt_cases start
  · rw [hnone, hnone']
    exact iff_of_false List.not_mem_nil List.not_mem_nil
  rw [hsome, hsome']
  dsimp only
  rw [h.numRows, h.numRows', h.numCols, ha.color, List.mem_flatMap, List.mem_flatMap]
  -- the ray of a direction is the image of the ray of its companion
  have hray : ∀ d : Int × Int,
      ray board' a.color.swap d.1 d.2 (rows + board.numCols)
          ((start.mirror rows).row + d.1) ((start.mirror rows).col + d.2) =
        (ray board a.color (-d.1) d.2 (rows + board.numCols)
          (start.row + -d.1) (start.col + d.2)).map (Position.mirror rows) := by
    intro d
    have hstart : (start.mirror rows).row + d.1 = rows - 1 - (start.row + -d.1) := by
      change (rows : Int) - 1 - start.row + d.1 = _
      omega
    rw [← h.ray_mirror, neg_neg, hstart]
    rfl
  constructor
  · rintro ⟨d, hd, hp⟩
    rw [hray, List.mem_map_of_injective Position.mirror_injective] at hp
    exact ⟨(-d.1, d.2), hturn d hd, hp⟩
  · rintro ⟨d, hd, hp⟩
    refine ⟨(-d.1, d.2), hturn d hd, ?_⟩
    rw [hray, List.mem_map_of_injective Position.mirror_injective, neg_neg]
    exact hp

/-- A square at an offset is taken to the square at the turned-around offset. -/
theorem mirror_add (start : Position) (dr c : Int) :
    Position.mirror rows ⟨start.row + dr, c⟩ = ⟨(start.mirror rows).row + -dr, c⟩ := by
  have hrow : (rows : Int) - 1 - (start.row + dr) = rows - 1 - start.row + -dr := by omega
  change Position.mk ((rows : Int) - 1 - (start.row + dr)) c = _
  rw [hrow]
  rfl

/-- On the image of a square stands no piece, or an enemy, if that is so on the square. -/
theorem enemy_mirror (h : board.Mirrors rows board') {a a' : Piece} (ha : a.Mirrors a')
    {p : Position} (henemy : ∀ target, board.pieceAt p = some target → target.color ≠ a.color)
    (target' : Piece) (htarget' : board'.pieceAt (p.mirror rows) = some target') :
    target'.color ≠ a'.color := by
  obtain ⟨-, hnone'⟩ | ⟨target, t', hsome, hsome', ht⟩ := h.pieceAt_cases p
  · exact absurd (hnone'.symm.trans htarget') (by simp)
  · obtain rfl := Option.some.inj (hsome'.symm.trans htarget')
    rw [ht.color, ha.color, ne_eq, Color.swap_inj]
    exact henemy target hsome

/-- The offsets of knights and kings come with their turned-around companions. -/
theorem offsetMoves_mirror (h : board.Mirrors rows board') {offsets : List (Int × Int)}
    (hturn : ∀ d ∈ offsets, (-d.1, d.2) ∈ offsets) {start p : Position}
    (hp : p ∈ offsetMoves offsets start board) :
    p.mirror rows ∈ offsetMoves offsets (start.mirror rows) board' := by
  obtain ⟨a, hstart, d, hd, rfl, hin, henemy⟩ := mem_offsetMoves.mp hp
  obtain ⟨hnone, -⟩ | ⟨b, a', hsome, hsome', ha⟩ := h.pieceAt_cases start
  · exact absurd (hnone.symm.trans hstart) (by simp)
  obtain rfl := Option.some.inj (hstart.symm.trans hsome)
  refine mem_offsetMoves.mpr ⟨a', hsome', (-d.1, d.2), hturn d hd, mirror_add start d.1 _, ?_,
    h.enemy_mirror ha henemy⟩
  exact (h.inBounds_mirror _ _).trans hin

/-- Forward for one side is backward for the other. -/
theorem pawnStep_mirror (h : board.Mirrors rows board') {a a' : Piece} (ha : a.Mirrors a')
    {start p : Position} (hstep : PawnStep board start p a) :
    PawnStep board' (start.mirror rows) (p.mirror rows) a' := by
  obtain ⟨rfl, hin, hempty⟩ := hstep
  refine ⟨?_, (h.inBounds_mirror _ _).trans hin, (h.getPiece_eq_none_iff _).mpr hempty⟩
  rw [mirror_add, ha.color]
  cases a.color <;> rfl

/-- Pawns: the single step, the double step and the captures, one after the other. -/
theorem getPawnMoves_mirror (h : board.Mirrors rows board') {start p : Position}
    (hp : p ∈ getPawnMoves start board) :
    p.mirror rows ∈ getPawnMoves (start.mirror rows) board' := by
  obtain ⟨a, hstart, hp⟩ := mem_getPawnMoves.mp hp
  -- the piece of the mirrored square is the mirrored piece
  obtain ⟨hnone, -⟩ | ⟨b, a', hsome, hsome', ha⟩ := h.pieceAt_cases start
  · exact absurd (hnone.symm.trans hstart) (by simp)
  obtain rfl := Option.some.inj (hstart.symm.trans hsome)
  refine mem_getPawnMoves.mpr ⟨a', hsome', ?_⟩
  obtain hstep | ⟨⟨middle, hfirst, hsecond⟩, hrow⟩ | ⟨dc, hdc, rfl, hin, target, ht, henemy⟩ := hp
  · exact Or.inl (h.pawnStep_mirror ha hstep)
  · -- the second row of one side is the second row of the other from its own side
    refine Or.inr (Or.inl ⟨⟨middle.mirror rows, h.pawnStep_mirror ha hfirst,
      h.pawnStep_mirror ha hsecond⟩, ?_⟩)
    change (rows : Int) - 1 - start.row = _
    rw [hrow, ha.color, h.numRows, h.numRows']
    cases a.color
    · change (rows : Int) - 1 - (rows - 2) = 1
      omega
    · change (rows : Int) - 1 - 1 = rows - 2
      omega
  · -- a diagonal capture: the target is mirrored too, and its colour is swapped
    refine Or.inr (Or.inr ⟨dc, hdc, ?_, (h.inBounds_mirror _ _).trans hin, ?_⟩)
    · rw [mirror_add, ha.color]
      cases a.color <;> rfl
    · obtain ⟨hnone, -⟩ | ⟨t, t', htsome, htsome', htm⟩ := h.pieceAt_cases
        ⟨start.row + (if a.color = .w then -1 else 1), start.col + dc⟩
      · exact absurd (hnone.symm.trans ht) (by simp)
      · rw [htsome] at ht
        obtain rfl := Option.some.inj ht
        refine ⟨t', htsome', ?_⟩
        rw [htm.color, ha.color, ne_eq, Color.swap_inj]
        exact henemy

/-- A generator that collects the images on the mirrored board collects nothing else. -/
theorem mem_mirror_iff (moves : Position → Board → List Position)
    (himage : ∀ {board board' : Board}, board.Mirrors rows board' → ∀ {start p : Position},
      p ∈ moves start board → p.mirror rows ∈ moves (start.mirror rows) board')
    (h : board.Mirrors rows board') (start p : Position) :
    p.mirror rows ∈ moves (start.mirror rows) board' ↔ p ∈ moves start board := by
  refine ⟨fun hp => ?_, himage h⟩
  have hback := himage h.symm hp
  rwa [Position.mirror_mirror, Position.mirror_mirror] at hback

end Generators

/-! ### Legality -/

open RuleEngine

/-- The mover's own pieces stand on the images of where they stood. -/
theorem ownPieceAt_mirror (h : board.Mirrors rows board') {a a' : Piece} (ha : a.Mirrors a')
    (p : Position) : ownPieceAt board' a' (p.mirror rows) = ownPieceAt board a p := by
  unfold ownPieceAt
  obtain ⟨hnone, hnone'⟩ | ⟨t, t', hsome, hsome', ht⟩ := h.pieceAt_cases p
  · rw [hnone, hnone']
  · rw [hsome, hsome']
    dsimp only
    rw [ht.color, ha.color, decide_eq_decide]
    exact Color.swap_inj

/-- **A move is legal exactly when its image is.** -/
theorem isMoveLegal_mirror (h : board.Mirrors rows board') (startPos endPos : Position) :
    isMoveLegal board' (startPos.mirror rows) (endPos.mirror rows) =
      isMoveLegal board startPos endPos := by
  have hstraight := h.mem_slidingMoves_mirror [(0, 1), (0, -1), (1, 0), (-1, 0)]
    (by decide) startPos endPos
  have hdiagonal := h.mem_slidingMoves_mirror [(1, 1), (1, -1), (-1, 1), (-1, -1)]
    (by decide) startPos endPos
  have hknight := mem_mirror_iff PieceRules.getKnightMoves
    (fun h _ _ hp => h.offsetMoves_mirror (by decide) hp) h startPos endPos
  have hking := mem_mirror_iff PieceRules.getKingMoves
    (fun h _ _ hp => h.offsetMoves_mirror (by decide) hp) h startPos endPos
  have hpawn := mem_mirror_iff PieceRules.getPawnMoves
    (fun h _ _ hp => h.getPawnMoves_mirror hp) h startPos endPos
  unfold isMoveLegal
  refine if_congr Position.mirror_inj rfl ?_
  -- the piece on the square is the image of the piece on the mirrored one
  obtain ⟨hnone, hnone'⟩ | ⟨a, a', hsome, hsome', ha⟩ := h.pieceAt_cases startPos
  · rw [hnone, hnone']
  · rw [hsome, hsome']
    dsimp only
    rw [h.ownPieceAt_mirror ha, ha.pieceType]
    refine if_congr Iff.rfl rfl ?_
    cases a.pieceType with
    | r => exact decide_eq_decide.mpr hstraight
    | b => exact decide_eq_decide.mpr hdiagonal
    | q => exact congrArg₂ or (decide_eq_decide.mpr hstraight) (decide_eq_decide.mpr hdiagonal)
    | n => exact decide_eq_decide.mpr hknight
    | k => exact decide_eq_decide.mpr hking
    | p => exact decide_eq_decide.mpr hpawn

end Board.Mirrors

/-! ### Collision courses -/

namespace RealTimeArbiter

theorem sign_neg (x : Int) : sign (-x) = -sign x := by
  unfold sign
  split_ifs <;> omega

/-- Turning the rows around turns every row difference around. -/
theorem areOnCollisionCourse_mirror (rows : Nat) (motionA motionB : Motion) :
    areOnCollisionCourse (motionA.mirror rows) (motionB.mirror rows) =
      areOnCollisionCourse motionA motionB := by
  have hdiff : ∀ p q : Position, (p.mirror rows).row - (q.mirror rows).row = -(p.row - q.row) := by
    intro p q
    change (rows : Int) - 1 - p.row - (rows - 1 - q.row) = _
    omega
  have hcol : ∀ p : Position, (p.mirror rows).col = p.col := fun p => rfl
  unfold areOnCollisionCourse
  dsimp only [Motion.mirror]
  simp only [hdiff, hcol, sign_neg, abs_neg, ← neg_add, neg_eq_zero, neg_inj, ne_eq]
  refine if_congr Iff.rfl rfl (if_congr Iff.rfl rfl ?_)
  split
  · rfl
  · next hrow =>
    refine if_congr Iff.rfl (if_congr Iff.rfl rfl ?_) rfl
    -- up the column on one board is down the column on the other
    by_cases hdown : sign (motionA.endPos.row - motionA.startPos.row) > 0
    · rw [if_neg (by omega), if_pos hdown, decide_eq_decide]
      omega
    · rw [if_pos (by omega), if_neg hdown, decide_eq_decide]
      omega

end RealTimeArbiter

end KungFuChess
