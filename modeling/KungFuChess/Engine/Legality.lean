import Mathlib.Tactic.Ring
import Mathlib.Data.Int.Order.Lemmas
import KungFuChess.Engine.BoardParser
import KungFuChess.Engine.Rules

/-!
# Which moves are legal

`RuleEngine.is_move_legal` asks whether the end square is among the squares that the
generator of the piece collects. `LegalMove` is the rule itself, read off the two squares and
what stands on the board, without any generator: which steps each kind of piece makes, and
that nothing is in the way.

The generators of rooks, bishops and queens walk along rays. `mem_ray` says what a ray
collects, by induction on its fuel; the rest is geometry: a square that is in line with the
start is on exactly one of the eight rays, at its distance (`eq_along_iff`, `direction_along`), and
on the way to a square of the board a ray neither leaves the board nor runs out of fuel
(`inBounds_along`, `distance_lt`).
-/

namespace KungFuChess

/-! ### Squares in line -/

namespace Position

/-- The square `k` steps away in direction `d`. -/
def along (p : Position) (d : Int × Int) (k : Nat) : Position := ⟨p.row + k * d.1, p.col + k * d.2⟩

@[simp] theorem along_zero (p : Position) (d : Int × Int) : p.along d 0 = p := by
  simp [along]

/-- One step and then `k`. -/
theorem along_one_along (p : Position) (d : Int × Int) (k : Nat) :
    (p.along d 1).along d k = p.along d (k + 1) := by
  unfold along
  push_cast
  congr 1
  · ring
  · ring

/-- On one rank or one file. -/
def InLine (a b : Position) : Prop := a.row = b.row ∨ a.col = b.col

/-- On one diagonal. -/
def OnDiagonal (a b : Position) : Prop := |b.row - a.row| = |b.col - a.col|

/-- How many king's steps apart. -/
def distance (a b : Position) : Nat := max (b.row - a.row).natAbs (b.col - a.col).natAbs

/-- The direction from `a` to `b`, if they are in line or on a diagonal. -/
def direction (a b : Position) : Int × Int := ((b.row - a.row).sign, (b.col - a.col).sign)

/-- The squares strictly between two squares in line or on a diagonal. -/
def Between (a b p : Position) : Prop := ∃ k, 0 < k ∧ k < a.distance b ∧ p = a.along (a.direction b) k

/-- Whether two squares are in line can be computed. -/
instance (a b : Position) : Decidable (a.InLine b) := inferInstanceAs (Decidable (_ ∨ _))

/-- And whether they are on a diagonal. -/
instance (a b : Position) : Decidable (a.OnDiagonal b) := inferInstanceAs (Decidable (_ = _))

/-- One of the eight directions. -/
structure IsDirection (d : Int × Int) : Prop where
  row : d.1 = -1 ∨ d.1 = 0 ∨ d.1 = 1
  col : d.2 = -1 ∨ d.2 = 0 ∨ d.2 = 1
  moves : d ≠ (0, 0)

/-- There are eight directions. -/
instance (d : Int × Int) : Decidable (IsDirection d) :=
  decidable_of_iff ((d.1 = -1 ∨ d.1 = 0 ∨ d.1 = 1) ∧ (d.2 = -1 ∨ d.2 = 0 ∨ d.2 = 1) ∧ d ≠ (0, 0))
    ⟨fun h => ⟨h.1, h.2.1, h.2.2⟩, fun h => ⟨h.row, h.col, h.moves⟩⟩

variable {a b : Position} {d : Int × Int} {k : Nat}

theorem eq_iff : a = b ↔ a.row = b.row ∧ a.col = b.col := by
  cases a
  cases b
  simp

/-- A number is `n` times its sign if it is zero or of size `n`. -/
theorem eq_mul_sign_iff {x : Int} {n : Nat} : x = n * x.sign ↔ x = 0 ∨ x.natAbs = n := by
  constructor
  · intro h
    by_cases hx : x = 0
    · exact Or.inl hx
    · have habs := congrArg Int.natAbs h
      rw [Int.natAbs_mul, Int.natAbs_natCast, Int.natAbs_sign_of_ne_zero hx, mul_one] at habs
      exact Or.inr habs
  · rintro (rfl | rfl)
    · simp
    · rw [mul_comm, Int.sign_mul_natAbs]

/-- A square is reached in the direction it lies in if it is in line or on a diagonal. -/
theorem eq_along_iff :
    b = a.along (a.direction b) (a.distance b) ↔ a.InLine b ∨ a.OnDiagonal b := by
  have hrow := eq_mul_sign_iff (x := b.row - a.row) (n := a.distance b)
  have hcol := eq_mul_sign_iff (x := b.col - a.col) (n := a.distance b)
  have hends : b = a.along (a.direction b) (a.distance b) ↔
      b.row - a.row = a.distance b * (b.row - a.row).sign ∧
        b.col - a.col = a.distance b * (b.col - a.col).sign := by
    rw [eq_iff]
    exact and_congr (sub_eq_iff_eq_add'.symm) (sub_eq_iff_eq_add'.symm)
  rw [hends, hrow, hcol]
  unfold InLine OnDiagonal distance
  rw [Int.abs_eq_natAbs, Int.abs_eq_natAbs]
  omega

/-- A step in one of the eight directions, recovered from its two ends. -/
theorem direction_along (hd : IsDirection d) (hk : 0 < k) : a.direction (a.along d k) = d := by
  have hsign : ∀ x : Int, x = -1 ∨ x = 0 ∨ x = 1 → (k * x : Int).sign = x := by
    intro x hx
    rw [Int.sign_mul, Int.sign_natCast_of_ne_zero (by omega), one_mul]
    obtain rfl | rfl | rfl := hx
    · rfl
    · rfl
    · rfl
  unfold direction along
  simp only [add_sub_cancel_left]
  rw [hsign d.1 hd.row, hsign d.2 hd.col]

/-- A ray has gone `k` squares after `k` steps. -/
theorem distance_along (hd : IsDirection d) : a.distance (a.along d k) = k := by
  obtain ⟨dr, dc⟩ := d
  have hmoves := hd.moves
  unfold distance along
  simp only [add_sub_cancel_left, Int.natAbs_mul, Int.natAbs_natCast]
  obtain rfl | rfl | rfl := hd.row <;> obtain rfl | rfl | rfl := hd.col <;> simp at hmoves ⊢

end Position

/-! ### What stands in the way -/

namespace Board

variable (board : Board)

/-- A slider passes the square: it is empty, or its piece is in flight. -/
def Passable (p : Position) : Prop := ∀ target, board.pieceAt p = some target → target.status = .moving

/-- A slider may end on the square, as far as its ray goes: it is passed, or an enemy stands
there. -/
def EndsRay (color : Color) (p : Position) : Prop :=
  ∀ target, board.pieceAt p = some target → target.status = .moving ∨ target.color ≠ color

end Board

namespace PieceRules

open Position

variable {board : Board} {start p q : Position} {color : Color} {d : Int × Int}

/-- One turn of the loop: the square is collected if the ray may end there, and the loop goes
on if it is passed. -/
theorem mem_ray_succ {fuel : Nat} :
    p ∈ ray board color d.1 d.2 (fuel + 1) q.row q.col ↔
      inBounds q.row q.col board = true ∧ (p = q ∧ board.EndsRay color q ∨
        board.Passable q ∧
          p ∈ ray board color d.1 d.2 fuel (q.along d 1).row (q.along d 1).col) := by
  have hnext : q.along d 1 = ⟨q.row + d.1, q.col + d.2⟩ := by simp [along]
  rw [hnext, ray]
  split
  · next hin =>
    rw [and_iff_right hin]
    unfold Board.EndsRay Board.Passable
    -- an empty square may end the ray and is passed
    cases hq : board.pieceAt q with
    | none => simp
    | some target =>
      by_cases hmoving : target.status = .moving
      · simp [hmoving]
      · -- the ray ends here, on an enemy or before a friend
        by_cases henemy : target.color = color <;> simp [hmoving, henemy]
  · next hout => simp [hout]

/-- **What a ray collects.** The square is some steps on, all squares up to it are on the
board, all before it are passed, and the ray may end there. -/
theorem mem_ray {fuel : Nat} :
    p ∈ ray board color d.1 d.2 fuel q.row q.col ↔
      ∃ k < fuel, p = q.along d k ∧
        (∀ j < k + 1, inBounds (q.along d j).row (q.along d j).col board = true) ∧
        (∀ j < k, board.Passable (q.along d j)) ∧ board.EndsRay color p := by
  -- by induction on the fuel; what a turn leaves over is a ray from the next square
  induction fuel generalizing q with
  | zero => simp [ray]
  | succ fuel ih =>
    rw [mem_ray_succ, ih, Nat.exists_lt_succ_left]
    simp only [Nat.forall_lt_succ_left, along_zero, along_one_along]
    constructor
    · rintro ⟨hin, ⟨rfl, hends⟩ | ⟨hpass, k, hk, hp, hbounds, hway, hends⟩⟩
      · exact Or.inl ⟨rfl, ⟨hin, fun j hj => absurd hj (by omega)⟩,
          fun j hj => absurd hj (by omega), hends⟩
      · exact Or.inr ⟨k, hk, hp, ⟨hin, hbounds⟩, ⟨hpass, hway⟩, hends⟩
    · rintro (⟨rfl, ⟨hin, -⟩, -, hends⟩ | ⟨k, hk, hp, ⟨hin, hbounds⟩, ⟨hpass, hway⟩, hends⟩)
      · exact ⟨hin, Or.inl ⟨rfl, hends⟩⟩
      · exact ⟨hin, Or.inr ⟨hpass, k, hk, hp, hbounds, hway, hends⟩⟩

theorem inBounds_iff :
    inBounds p.row p.col board = true ↔
      0 ≤ p.row ∧ p.row < board.numRows ∧ 0 ≤ p.col ∧ p.col < board.numCols :=
  decide_eq_true_iff

/-- On the way from one square of the board to another a ray does not leave the board. -/
theorem inBounds_along (hd : IsDirection d) (hstart : inBounds start.row start.col board = true)
    {n : Nat} (hend : inBounds (start.along d n).row (start.along d n).col board = true) {j : Nat}
    (hj : j ≤ n) : inBounds (start.along d j).row (start.along d j).col board = true := by
  rw [inBounds_iff] at hstart hend ⊢
  obtain ⟨dr, dc⟩ := d
  unfold along at hend ⊢
  simp only at hend ⊢
  obtain rfl | rfl | rfl := hd.row <;> obtain rfl | rfl | rfl := hd.col <;> omega

/-- Nor does it run out of fuel. -/
theorem distance_lt (hstart : inBounds start.row start.col board = true)
    (hend : inBounds p.row p.col board = true) :
    start.distance p < board.numRows + board.numCols := by
  rw [inBounds_iff] at hstart hend
  unfold distance
  omega

/-- What a slider with these directions collects. -/
theorem of_mem_slidingMoves {directions : List (Int × Int)}
    (hdirections : ∀ d ∈ directions, IsDirection d) (hp : p ∈ slidingMoves directions start board) :
    ∃ piece, board.pieceAt start = some piece ∧ start ≠ p ∧
      inBounds p.row p.col board = true ∧ board.EndsRay piece.color p ∧
      (start.direction p ∈ directions ∧ (start.InLine p ∨ start.OnDiagonal p)) ∧
      ∀ q, start.Between p q → board.Passable q := by
  unfold slidingMoves at hp
  cases hpiece : board.pieceAt start with
  | none =>
    rw [hpiece] at hp
    exact absurd hp List.not_mem_nil
  | some piece =>
    rw [hpiece] at hp
    obtain ⟨d, hmem, hray⟩ := List.mem_flatMap.mp hp
    have hd := hdirections d hmem
    have hnext : (⟨start.row + d.1, start.col + d.2⟩ : Position) = start.along d 1 := by
      simp [along]
    have hray' : p ∈ ray board piece.color d.1 d.2 (board.numRows + board.numCols)
        (start.along d 1).row (start.along d 1).col := by
      rw [← hnext]
      exact hray
    obtain ⟨k, -, hp, hbounds, hway, hends⟩ := mem_ray.mp hray'
    -- the square is `k + 1` steps away in the direction of the ray
    rw [along_one_along] at hp
    subst hp
    have hdistance := distance_along (a := start) (k := k + 1) hd
    have hdirection := direction_along (a := start) (k := k + 1) hd (by omega)
    refine ⟨piece, rfl, fun heq => ?_, ?_, hends, ⟨by rw [hdirection]; exact hmem, ?_⟩, ?_⟩
    · rw [← heq] at hdistance
      simp [distance] at hdistance
    · have hlast := hbounds k (by omega)
      rwa [along_one_along] at hlast
    · rw [← eq_along_iff, hdirection, hdistance]
    · rintro q ⟨j, hj, hlt, rfl⟩
      rw [hdistance] at hlt
      rw [hdirection]
      have hpass := hway (j - 1) (by omega)
      rwa [along_one_along, Nat.sub_add_cancel hj] at hpass

/-- What a slider with these directions may go to, from a square of the board. -/
theorem mem_slidingMoves {directions : List (Int × Int)}
    (hdirections : ∀ d ∈ directions, IsDirection d)
    (hstart : inBounds start.row start.col board = true) :
    p ∈ slidingMoves directions start board ↔
      ∃ piece, board.pieceAt start = some piece ∧ start ≠ p ∧
        inBounds p.row p.col board = true ∧ board.EndsRay piece.color p ∧
        (start.direction p ∈ directions ∧ (start.InLine p ∨ start.OnDiagonal p)) ∧
        ∀ q, start.Between p q → board.Passable q := by
  refine ⟨of_mem_slidingMoves hdirections, ?_⟩
  rintro ⟨piece, hpiece, hne, hin, hends, ⟨hmem, hline⟩, hway⟩
  unfold slidingMoves
  rw [hpiece]
  refine List.mem_flatMap.mpr ⟨start.direction p, hmem, ?_⟩
  have hd := hdirections _ hmem
  have hp := eq_along_iff.mpr hline
  -- the ray has to make one step less than the distance
  obtain ⟨k, hk⟩ : ∃ k, start.distance p = k + 1 := by
    refine Nat.exists_eq_succ_of_ne_zero fun hzero => hne ?_
    rw [hzero, along_zero] at hp
    exact hp.symm
  have hray : p ∈ ray board piece.color (start.direction p).1 (start.direction p).2
      (board.numRows + board.numCols) (start.along (start.direction p) 1).row
      (start.along (start.direction p) 1).col := by
    rw [mem_ray]
    have hshort := distance_lt hstart hin
    refine ⟨k, by omega, ?_, fun j hj => ?_, fun j hj => ?_, hends⟩
    · rw [along_one_along, ← hk]
      exact hp
    · rw [along_one_along]
      rw [hp, hk] at hin
      exact inBounds_along hd hstart hin (by omega)
    · rw [along_one_along]
      exact hway _ ⟨j + 1, by omega, by omega, rfl⟩
  have hnext : start.along (start.direction p) 1 =
      ⟨start.row + (start.direction p).1, start.col + (start.direction p).2⟩ := by
    simp [along]
  rw [hnext] at hray
  exact hray

/-- The directions of a rook are the straight ones. -/
theorem mem_straight_iff (hne : start ≠ p) :
    start.direction p ∈ [((0 : Int), (1 : Int)), (0, -1), (1, 0), (-1, 0)] ∧
        (start.InLine p ∨ start.OnDiagonal p) ↔ start.InLine p := by
  rw [ne_eq, eq_iff] at hne
  unfold direction InLine OnDiagonal
  simp only [List.mem_cons, Prod.mk.injEq, List.not_mem_nil, or_false, Int.sign_eq_zero_iff_zero,
    Int.sign_eq_one_iff_pos, Int.sign_eq_neg_one_iff_neg]
  omega

/-- Those of a bishop are the diagonal ones. -/
theorem mem_diagonal_iff (hne : start ≠ p) :
    start.direction p ∈ [((1 : Int), (1 : Int)), (1, -1), (-1, 1), (-1, -1)] ∧
        (start.InLine p ∨ start.OnDiagonal p) ↔ start.OnDiagonal p := by
  rw [ne_eq, eq_iff] at hne
  unfold direction InLine OnDiagonal
  rw [Int.abs_eq_natAbs, Int.abs_eq_natAbs]
  simp only [List.mem_cons, Prod.mk.injEq, List.not_mem_nil, or_false,
    Int.sign_eq_one_iff_pos, Int.sign_eq_neg_one_iff_neg]
  omega

end PieceRules

/-! ### The rule -/

/-- The square is on the board. -/
def Board.Contains (board : Board) (p : Position) : Prop :=
  0 ≤ p.row ∧ p.row < board.numRows ∧ 0 ≤ p.col ∧ p.col < board.numCols

/-- Two squares along one axis, one along the other. -/
def Position.KnightStep (a b : Position) : Prop :=
  |b.row - a.row| = 2 ∧ |b.col - a.col| = 1 ∨ |b.row - a.row| = 1 ∧ |b.col - a.col| = 2

/-- Which way the pawns of a colour go. -/
def Color.forward : Color → Int
  | .w => -1
  | .b => 1

namespace Board

variable (board : Board)

/-- Nothing is in the way of a slider. -/
def Clear (a b : Position) : Prop := ∀ q, a.Between b q → board.Passable q

/-- The row from which the pawns of a colour make their double step. -/
def pawnRow : Color → Int
  | .w => board.numRows - 2
  | .b => 1

/-- A pawn steps forward onto an empty square, from its start row also over an empty square
onto a second one, and diagonally forward onto an enemy. -/
def PawnMove (color : Color) (a b : Position) : Prop :=
  b = ⟨a.row + color.forward, a.col⟩ ∧ board.getPiece b = none ∨
  (a.row = board.pawnRow color ∧ b = ⟨a.row + 2 * color.forward, a.col⟩ ∧
    board.getPiece ⟨a.row + color.forward, a.col⟩ = none ∧ board.getPiece b = none) ∨
  (b.row = a.row + color.forward ∧ |b.col - a.col| = 1 ∧
    ∃ target, board.pieceAt b = some target ∧ target.color ≠ color)

/-- How the piece moves. -/
def Moves (piece : Piece) (a b : Position) : Prop :=
  match piece.pieceType with
  | .r => a.InLine b ∧ board.Clear a b
  | .b => a.OnDiagonal b ∧ board.Clear a b
  | .q => (a.InLine b ∨ a.OnDiagonal b) ∧ board.Clear a b
  | .n => a.KnightStep b
  | .k => a.distance b = 1
  | .p => board.PawnMove piece.color a b

/-- The square is empty or held by an enemy. -/
def FreeFor (color : Color) (p : Position) : Prop :=
  ∀ target, board.pieceAt p = some target → target.color ≠ color

/-- The rule of the game. -/
def LegalMove (a b : Position) : Prop :=
  ∃ piece, board.pieceAt a = some piece ∧ a ≠ b ∧ board.Contains b ∧
    board.FreeFor piece.color b ∧ board.Moves piece a b

end Board

/-! ### What the generators collect -/

namespace PieceRules

open Position

variable {board : Board} {a b : Position} {piece : Piece}

/-- What the rook's generator collects. -/
theorem mem_getStraightMoves (hpiece : board.pieceAt a = some piece) (ha : board.Contains a)
    (hne : a ≠ b) (hfree : board.FreeFor piece.color b) :
    b ∈ getStraightMoves a board ↔ board.Contains b ∧ a.InLine b ∧ board.Clear a b := by
  have hends : board.EndsRay piece.color b := fun target ht => Or.inr (hfree target ht)
  rw [getStraightMoves, mem_slidingMoves ?_ (inBounds_iff.mpr ha), hpiece]
  · simp only [Option.some.injEq, exists_eq_left', mem_straight_iff hne, inBounds_iff]
    exact ⟨fun h => ⟨h.2.1, h.2.2.2⟩, fun h => ⟨hne, h.1, hends, h.2⟩⟩
  · decide

/-- What the bishop's generator collects. -/
theorem mem_getDiagonalMoves (hpiece : board.pieceAt a = some piece) (ha : board.Contains a)
    (hne : a ≠ b) (hfree : board.FreeFor piece.color b) :
    b ∈ getDiagonalMoves a board ↔ board.Contains b ∧ a.OnDiagonal b ∧ board.Clear a b := by
  have hends : board.EndsRay piece.color b := fun target ht => Or.inr (hfree target ht)
  rw [getDiagonalMoves, mem_slidingMoves ?_ (inBounds_iff.mpr ha), hpiece]
  · simp only [Option.some.injEq, exists_eq_left', mem_diagonal_iff hne, inBounds_iff]
    exact ⟨fun h => ⟨h.2.1, h.2.2.2⟩, fun h => ⟨hne, h.1, hends, h.2⟩⟩
  · decide

/-- The generators of fixed offsets. -/
theorem mem_offsetMoves_iff {offsets : List (Int × Int)} (hpiece : board.pieceAt a = some piece)
    (hfree : board.FreeFor piece.color b) :
    b ∈ offsetMoves offsets a board ↔
      board.Contains b ∧ (b.row - a.row, b.col - a.col) ∈ offsets := by
  rw [mem_offsetMoves, hpiece]
  simp only [Option.some.injEq, exists_eq_left', inBounds_iff]
  constructor
  · rintro ⟨d, hd, hb, hin, -⟩
    refine ⟨hin, ?_⟩
    have hoffset : (b.row - a.row, b.col - a.col) = d := by
      rw [hb]
      simp
    rwa [hoffset]
  · rintro ⟨hin, hd⟩
    exact ⟨_, hd, by rw [eq_iff]; simp, hin, hfree⟩

/-- What the knight's generator collects. -/
theorem mem_getKnightMoves (hpiece : board.pieceAt a = some piece)
    (hfree : board.FreeFor piece.color b) :
    b ∈ getKnightMoves a board ↔ board.Contains b ∧ a.KnightStep b := by
  rw [getKnightMoves, mem_offsetMoves_iff hpiece hfree]
  refine and_congr_right fun _ => ?_
  unfold KnightStep
  rw [Int.abs_eq_natAbs, Int.abs_eq_natAbs]
  simp only [List.mem_cons, Prod.mk.injEq, List.not_mem_nil, or_false]
  omega

/-- What the king's generator collects. -/
theorem mem_getKingMoves (hpiece : board.pieceAt a = some piece)
    (hfree : board.FreeFor piece.color b) :
    b ∈ getKingMoves a board ↔ board.Contains b ∧ a.distance b = 1 := by
  rw [getKingMoves, mem_offsetMoves_iff hpiece hfree]
  refine and_congr_right fun _ => ?_
  unfold distance
  simp only [List.mem_cons, Prod.mk.injEq, List.not_mem_nil, or_false]
  omega

theorem forward_eq (color : Color) : color.forward = if color = .w then -1 else 1 := by
  cases color <;> rfl

/-- The pawns of White start on the row before the last, those of Black on row 1. -/
theorem pawnRow_eq (color : Color) :
    board.pawnRow color = if color = .w then (board.numRows : Int) - 2 else 1 := by
  cases color <;> rfl

/-- **What the pawn's generator collects.** -/
theorem mem_getPawnMoves_iff (hpiece : board.pieceAt a = some piece) (ha : board.Contains a) :
    b ∈ getPawnMoves a board ↔ board.Contains b ∧ board.PawnMove piece.color a b := by
  rw [mem_getPawnMoves, hpiece]
  simp only [Option.some.injEq, exists_eq_left', PawnStep, ← forward_eq, ← pawnRow_eq,
    inBounds_iff]
  unfold Board.PawnMove
  constructor
  -- a step forward, two steps from the start row, or a capture
  · rintro (⟨hb, hin, hempty⟩ | ⟨⟨middle, ⟨rfl, -, hmiddle⟩, hb, hin, hempty⟩, hrow⟩ |
      ⟨dc, hdc, hb, hin, henemy⟩)
    · exact ⟨hin, Or.inl ⟨hb, hempty⟩⟩
    · refine ⟨hin, Or.inr (Or.inl ⟨hrow, ?_, hmiddle, hempty⟩)⟩
      rw [hb, eq_iff]
      exact ⟨by ring, rfl⟩
    · refine ⟨hin, Or.inr (Or.inr ⟨by rw [hb], ?_, henemy⟩)⟩
      rw [hb]
      simp only [List.mem_cons, List.not_mem_nil, or_false] at hdc
      obtain rfl | rfl := hdc <;> simp
  · rintro ⟨hin, ⟨hb, hempty⟩ | ⟨hrow, hb, hmiddle, hempty⟩ | ⟨hrow, hcol, henemy⟩⟩
    · exact Or.inl ⟨hb, hin, hempty⟩
    · -- the square in the middle is on the board, as the two ends are
      have hbetween : board.Contains ⟨a.row + piece.color.forward, a.col⟩ := by
        rw [hb] at hin
        -- between the two ends whichever way the pawn goes
        unfold Board.Contains at ha hin ⊢
        rw [forward_eq] at hin ⊢
        split at hin
        · next hwhite =>
          rw [if_pos hwhite]
          simp only at hin ⊢
          omega
        · next hblack =>
          rw [if_neg hblack]
          simp only at hin ⊢
          omega
      refine Or.inr (Or.inl ⟨⟨_, ⟨rfl, hbetween, hmiddle⟩, ?_, hin, hempty⟩, hrow⟩)
      rw [hb, eq_iff]
      exact ⟨by ring, rfl⟩
    · refine Or.inr (Or.inr ⟨b.col - a.col, ?_, ?_, hin, henemy⟩)
      · simp only [List.mem_cons, List.not_mem_nil, or_false]
        rw [Int.abs_eq_natAbs] at hcol
        omega
      · rw [eq_iff]
        exact ⟨hrow, by simp⟩

end PieceRules

/-! ### The rule and the code -/

open PieceRules in
/-- **Move legality is the rule of the game**, on every board whose pieces are on it. -/
theorem isMoveLegal_iff {board : Board}
    (hpieces : ∀ p ref, board.getPiece p = some ref → board.Contains p) (a b : Position) :
    RuleEngine.isMoveLegal board a b = true ↔ board.LegalMove a b := by
  unfold RuleEngine.isMoveLegal Board.LegalMove
  by_cases hne : a = b
  · simp [hne]
  rw [if_neg hne]
  cases hpiece : board.pieceAt a with
  | none => simp
  | some piece =>
    simp only [Option.some.injEq, exists_eq_left', ne_eq, hne, not_false_eq_true, true_and]
    have ha : board.Contains a := by
      obtain ⟨ref, href, -⟩ := Option.map_eq_some_iff.mp hpiece
      exact hpieces a ref href
    have hown : RuleEngine.ownPieceAt board piece b = true ↔ ¬ board.FreeFor piece.color b := by
      unfold RuleEngine.ownPieceAt Board.FreeFor
      cases board.pieceAt b with
      | none => simp
      | some target => simp
    -- an own piece on the end square is refused first, for every type
    by_cases hfree : board.FreeFor piece.color b
    · rw [if_neg (fun h => hown.mp h hfree), and_iff_right hfree]
      unfold Board.Moves
      cases piece.pieceType with
      | r => exact decide_eq_true_iff.trans (mem_getStraightMoves hpiece ha hne hfree)
      | b => exact decide_eq_true_iff.trans (mem_getDiagonalMoves hpiece ha hne hfree)
      | q =>
        simp only [Bool.or_eq_true, decide_eq_true_iff]
        rw [mem_getStraightMoves hpiece ha hne hfree, mem_getDiagonalMoves hpiece ha hne hfree]
        tauto
      | n => exact decide_eq_true_iff.trans (mem_getKnightMoves hpiece hfree)
      | k => exact decide_eq_true_iff.trans (mem_getKingMoves hpiece hfree)
      | p => exact decide_eq_true_iff.trans (mem_getPawnMoves_iff hpiece ha)
    · rw [if_pos (hown.mpr hfree)]
      simp [hfree]

open PieceRules Position in
/-- Whatever the board, a legal move goes in line, on a diagonal, or by a knight's step. -/
theorem shape_of_isMoveLegal {board : Board} {a b : Position}
    (h : RuleEngine.isMoveLegal board a b = true) :
    a ≠ b ∧ (a.InLine b ∨ a.OnDiagonal b ∨ a.KnightStep b) := by
  -- each generator collects squares of its own shape
  have hne := RuleEngine.ne_of_isMoveLegal h
  refine ⟨hne, ?_⟩
  have hstraight : b ∈ getStraightMoves a board → a.InLine b := fun hb => by
    obtain ⟨-, -, -, -, -, hline, -⟩ := of_mem_slidingMoves (by decide) hb
    exact (mem_straight_iff hne).mp hline
  have hdiagonal : b ∈ getDiagonalMoves a board → a.OnDiagonal b := fun hb => by
    obtain ⟨-, -, -, -, -, hline, -⟩ := of_mem_slidingMoves (by decide) hb
    exact (mem_diagonal_iff hne).mp hline
  unfold RuleEngine.isMoveLegal at h
  rw [if_neg hne] at h
  split at h
  · exact absurd h Bool.false_ne_true
  · next piece hpiece =>
    split at h
    · exact absurd h Bool.false_ne_true
    · split at h
      · exact Or.inl (hstraight (of_decide_eq_true h))
      · exact Or.inr (Or.inl (hdiagonal (of_decide_eq_true h)))
      · obtain h | h := (Bool.or_eq_true _ _).mp h
        · exact Or.inl (hstraight (of_decide_eq_true h))
        · exact Or.inr (Or.inl (hdiagonal (of_decide_eq_true h)))
      · -- the eight offsets of the knight
        obtain ⟨-, -, d, hd, hb, -⟩ := mem_offsetMoves.mp (of_decide_eq_true h)
        refine Or.inr (Or.inr ?_)
        rw [hb]
        unfold KnightStep
        simp only [List.mem_cons, List.not_mem_nil, or_false] at hd
        obtain rfl | rfl | rfl | rfl | rfl | rfl | rfl | rfl := hd <;> simp
      · -- the eight neighbours of the king
        obtain ⟨-, -, d, hd, hb, -⟩ := mem_offsetMoves.mp (of_decide_eq_true h)
        rw [hb]
        unfold InLine OnDiagonal
        simp only [List.mem_cons, List.not_mem_nil, or_false] at hd
        obtain rfl | rfl | rfl | rfl | rfl | rfl | rfl | rfl := hd <;> simp
      · -- forward a pawn stays on its file, a capture is one diagonal step
        obtain ⟨piece', -, ⟨hb, -⟩ | ⟨⟨middle, ⟨hmiddle, -⟩, hb, -⟩, -⟩ | ⟨dc, hdc, hb, -⟩⟩ :=
          mem_getPawnMoves.mp (of_decide_eq_true h)
        · exact Or.inl (Or.inr (by rw [hb]))
        · exact Or.inl (Or.inr (by rw [hb, hmiddle]))
        · refine Or.inr (Or.inl ?_)
          rw [hb]
          unfold OnDiagonal
          simp only [List.mem_cons, List.not_mem_nil, or_false] at hdc
          obtain rfl | rfl := hdc <;> split <;> simp

open BoardParser in
theorem isMoveLegal_iff_rook :
    (boardOf ["wR . bQ"]).LegalMove ⟨0, 0⟩ ⟨0, 2⟩ ∧
      ¬ (boardOf ["wR bP bQ"]).LegalMove ⟨0, 0⟩ ⟨0, 2⟩ := by
  have hpieces : ∀ {lines}, (parseInitialBoard lines).isOk = true →
      ∀ p ref, (boardOf lines).getPiece p = some ref → (boardOf lines).Contains p := fun hok =>
    (Parsed.of_parseInitialBoard (parseInitialBoard_eq_boardOf hok)).inBounds
  exact ⟨(isMoveLegal_iff (hpieces (by decide)) _ _).mp (by decide),
    fun h => absurd ((isMoveLegal_iff (hpieces (by decide)) _ _).mpr h) (by decide)⟩

end KungFuChess
