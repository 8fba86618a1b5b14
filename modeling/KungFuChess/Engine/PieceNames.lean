import KungFuChess.Engine.FlightInv

/-!
# Names of pieces

What a piece is called is its identifier, its colour and its type. Requests do not touch the
name, and a landing changes it in one way only: a pawn becomes a queen of its colour, with the
identifier of one (`Landing.named`). So throughout a game a piece is named as on the initial
board, or as the queen it would be promoted to (`renamed_play`).
-/

namespace KungFuChess

open GameEngine

namespace Piece

/-- Same identifier, colour and type. -/
structure NamedAs (piece piece' : Piece) : Prop where
  pieceId : piece.pieceId = piece'.pieceId
  color : piece.color = piece'.color
  pieceType : piece.pieceType = piece'.pieceType

/-- The queen that a pawn is promoted to. -/
def queen (piece : Piece) : Piece :=
  { piece with pieceType := .q, pieceId := piece.color.letter ++ "Q" }

variable {a b c : Piece}

theorem NamedAs.refl (a : Piece) : a.NamedAs a := ⟨rfl, rfl, rfl⟩

theorem NamedAs.trans (h : a.NamedAs b) (h' : b.NamedAs c) : a.NamedAs c :=
  ⟨h.pieceId.trans h'.pieceId, h.color.trans h'.color, h.pieceType.trans h'.pieceType⟩

theorem NamedAs.queen (h : a.NamedAs b) : a.queen.NamedAs b.queen :=
  ⟨by simp only [Piece.queen, h.color], h.color, rfl⟩

/-- Named as before, or as the queen of before. -/
def Renamed (a b : Piece) : Prop := a.NamedAs b ∨ a.NamedAs b.queen

/-- Promoting twice is promoting once. -/
theorem Renamed.trans (h : a.Renamed b) (h' : b.Renamed c) : a.Renamed c := by
  obtain h | h := h <;> obtain h' | h' := h'
  · exact Or.inl (h.trans h')
  · exact Or.inr (h.trans h')
  · exact Or.inr (h.trans h'.queen)
  · exact Or.inr (h.trans h'.queen)

end Piece

section Names

variable {e e' : GameEngine} {m : Motion}

/-- A status is no part of the name. -/
theorem named_setStatus (ref ref' : PieceRef) (status : PieceStatus) :
    ((e.setStatus ref status).piece ref').NamedAs (e.piece ref') := by
  change ((e.board.setStatus ref status).piece ref').NamedAs _
  rw [Board.piece_setStatus]
  split
  · next heq =>
    rw [heq]
    exact ⟨rfl, rfl, rfl⟩
  · exact Piece.NamedAs.refl _

/-- A piece that settles keeps its name, unless it is a pawn that is promoted. -/
theorem named_settle (ref : PieceRef) :
    ((e.settle m).piece ref).NamedAs (e.piece ref) ∨
      (e.piece ref).pieceType = .p ∧ ((e.settle m).piece ref).NamedAs (e.piece ref).queen := by
  -- the board when the mover stands on its end square, before the promotion
  let placed : GameEngine := { (e.setStatus m.piece .idle).leaveStart m with
    board := ((e.setStatus m.piece .idle).leaveStart m).board.setPiece m.endPos (some m.piece) }
  have hplaced : (placed.piece ref).NamedAs (e.piece ref) := by
    change ((((e.setStatus m.piece .idle).leaveStart m).board.setPiece m.endPos
      (some m.piece)).piece ref).NamedAs _
    rw [Board.piece_setPiece]
    change (((e.setStatus m.piece .idle).leaveStart m).piece ref).NamedAs _
    rw [piece_leaveStart]
    exact named_setStatus _ _ _
  change ((placed.promote m).piece ref).NamedAs _ ∨ _ ∧ ((placed.promote m).piece ref).NamedAs _
  obtain h | ⟨-, hpawn, h⟩ := piece_promote placed m ref
  · rw [h]
    exact Or.inl hplaced
  · refine Or.inr ⟨hplaced.pieceType.symm.trans hpawn, ?_⟩
    rw [h]
    exact hplaced.queen

/-- **A landing renames pawns only, to queens.** -/
theorem Landing.named (hland : Landing e m e') (ref : PieceRef) :
    (e'.piece ref).NamedAs (e.piece ref) ∨
      (e.piece ref).pieceType = .p ∧ (e'.piece ref).NamedAs (e.piece ref).queen := by
  cases hland with
  | skipped => exact Or.inl (Piece.NamedAs.refl _)
  | jumpEnds | blocked => exact Or.inl (named_setStatus _ _ _)
  | shotDown jumper =>
    unfold capturedByJumper
    rw [piece_leaveStart, piece, board_scoreCapture]
    exact Or.inl (named_setStatus _ _ _)
  -- the target is captured, then the mover settles
  | takes target =>
    have hcapture : ((e.captureTarget m target).piece ref).NamedAs (e.piece ref) := by
      change ((((e.setStatus target .captured).scoreCapture m.piece target).board.setPiece
        m.endPos none).piece ref).NamedAs _
      rw [Board.piece_setPiece, board_scoreCapture]
      exact named_setStatus _ _ _
    obtain h | ⟨hpawn, h⟩ := named_settle (e := e.captureTarget m target) (m := m) ref
    · exact Or.inl (h.trans hcapture)
    · exact Or.inr ⟨hcapture.pieceType.symm.trans hpawn, h.trans hcapture.queen⟩
  | settles => exact named_settle ref

theorem Landing.renamed (hland : Landing e m e') (ref : PieceRef) :
    (e'.piece ref).Renamed (e.piece ref) :=
  (hland.named ref).imp_right And.right

/-- A request renames nothing, and a tick lands a batch. -/
theorem renamed_call (h : FlightInv e e.arbiter.activeMotions) (c : Call) (ref : PieceRef) :
    ((e.call c).piece ref).Renamed (e.piece ref) := by
  have hcase := call_cases h c
  generalize e.call c = e' at hcase
  cases hcase with
  | rejected => exact Or.inl (Piece.NamedAs.refl _)
  | launched m => exact Or.inl (named_setStatus m.piece ref m.status)
  | cancelled m => exact Or.inl (named_setStatus m.piece ref .moving)
  | ticked ms =>
    exact Run.stable (P := fun t : GameEngine => (t.piece ref).Renamed (e.piece ref))
      (fun t m ht => ((land_cases t m).renamed ref).trans ht) (Or.inl (Piece.NamedAs.refl _))

/-- **Throughout a game a piece is named as at its start, or as its queen.** -/
theorem renamed_play (h : FlightInv e e.arbiter.activeMotions) (calls : List Call)
    (ref : PieceRef) : ((e.play calls).piece ref).Renamed (e.piece ref) := by
  induction calls generalizing e with
  | nil => exact Or.inl (Piece.NamedAs.refl _)
  | cons c calls ih => exact (ih (h.call c)).trans (renamed_call h c ref)

/-- What is a pawn was one before. -/
theorem Piece.Renamed.pawn {a b : Piece} (h : a.Renamed b) (hpawn : a.pieceType = .p) :
    b.pieceType = .p := by
  obtain h | h := h
  · rw [← h.pieceType, hpawn]
  · exact absurd (hpawn.symm.trans h.pieceType) (by simp [Piece.queen])

end Names

end KungFuChess
