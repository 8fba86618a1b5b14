import KungFuChess.Client.Requests
import KungFuChess.Engine.TickSplit

/-!
# A piece is locked while it flies

A click on a piece that is marked as busy selects nothing. So a piece that is marked and never
unmarked could not be moved any more, and two animations of one piece would put it down twice.

Neither happens, whatever the frames say and whatever the user does (`locked_run`): a piece on the
board of the window is marked exactly while an animation carries it, there is one at most, and the
animations go down when their time is up, in as many updates as the window likes. The invariant
is `Animated`. An `ack` for a piece that is marked is ignored, a `state` makes all pieces anew,
unmarked, and drops the animations, and the other inputs leave both alone.
-/

namespace KungFuChess

open Protocol RealTimeArbiter

/-! ### The board that is shown -/

namespace ClientBoard

variable (board : ClientBoard) (ref : PieceRef) (status : PieceStatus) (position : Position)
  (occupant : Option PieceRef)

@[simp] theorem piece_setPiece : (board.setPiece position occupant).piece = board.piece := by
  cases occupant <;> rfl

/-- What stands on a square after one of them has been set. -/
theorem getPiece_setPiece (position' : Position) :
    (board.setPiece position occupant).getPiece position' =
      if position' = position then occupant else board.getPiece position' := by
  cases occupant with
  | none => exact Dict.get?_pop _ _ _
  | some ref => exact Dict.get?_set _ _ _ _

@[simp] theorem getPiece_setStatus (position' : Position) :
    (board.setStatus ref status).getPiece position' = board.getPiece position' := rfl

/-- The status of a piece after one has been set. -/
theorem status_setStatus (ref' : PieceRef) :
    ((board.setStatus ref status).piece ref').status =
      if ref' = ref then status else (board.piece ref').status := by
  unfold setStatus
  by_cases h : ref' = ref
  · subst h
    simp
  · simp [h]

theorem getPiece_createPiece (piece : ClientPiece) (position' : Position) :
    (board.createPiece position piece).getPiece position' =
      if position' = position then some ⟨position⟩ else board.getPiece position' :=
  getPiece_setPiece _ _ _ _

/-- A piece is what it is created as. -/
theorem piece_createPiece (piece : ClientPiece) (ref' : PieceRef) :
    (board.createPiece position piece).piece ref' =
      if ref' = ⟨position⟩ then piece else board.piece ref' := by
  unfold createPiece
  rw [piece_setPiece]
  exact Function.update_apply _ _ _ _

end ClientBoard

/-- No piece on the board is marked. -/
def ClientBoard.Quiet (board : ClientBoard) : Prop :=
  ∀ position ref, board.getPiece position = some ref → (board.piece ref).status.isBusy = false

namespace ChessGameController

/-! ### The invariant -/

/-- The pieces of the animations are marked and different, and no other piece on the board is
marked. -/
structure Animated (gc : ChessGameController) : Prop where
  distinct : (gc.activeMotions.map Motion.piece).Nodup
  carried : ∀ board, gc.board = some board →
    ∀ m ∈ gc.activeMotions, (board.piece m.piece).status = .moving
  busy : ∀ board, gc.board = some board → ∀ position ref, board.getPiece position = some ref →
    (board.piece ref).status.isBusy = true → ∃ m ∈ gc.activeMotions, m.piece = ref
  boardless : gc.board = none → gc.activeMotions = []

namespace Animated

variable {gc gc' : ChessGameController}

/-- Nothing but the board and the animations counts. -/
theorem of_eq (h : gc.Animated) (hboard : gc'.board = gc.board)
    (hmotions : gc'.activeMotions = gc.activeMotions) : gc'.Animated := by
  obtain ⟨hdistinct, hcarried, hbusy, hboardless⟩ := h
  rw [← hboard, ← hmotions] at *
  exact ⟨hdistinct, hcarried, hbusy, hboardless⟩

/-- A new board without marks, or none at all. -/
theorem of_nil (hmotions : gc.activeMotions = [])
    (hquiet : ∀ board, gc.board = some board → board.Quiet) : gc.Animated := by
  refine ⟨?_, ?_, ?_, fun _ => hmotions⟩
  · rw [hmotions]
    exact List.nodup_nil
  · intro board _ m hm
    rw [hmotions] at hm
    exact absurd hm List.not_mem_nil
  · intro board hboard position ref hpiece hbusy
    exact absurd (hquiet board hboard position ref hpiece) (by simp [hbusy])

/-- Time that passes changes no mark. -/
theorem elapse (h : gc.Animated) (dtMs : Int) :
    Animated { gc with activeMotions := gc.activeMotions.map (RealTimeArbiter.elapse dtMs) } := by
  refine ⟨?_, ?_, ?_, fun hboard => ?_⟩
  · rw [List.map_map]
    exact h.distinct
  · intro board hboard m' hm'
    obtain ⟨m, hm, rfl⟩ := List.mem_map.mp hm'
    exact h.carried board hboard m hm
  · intro board hboard position ref hpiece hbusy
    obtain ⟨m, hm, href⟩ := h.busy board hboard position ref hpiece hbusy
    exact ⟨_, List.mem_map_of_mem hm, href⟩
  · change gc.activeMotions.map _ = []
    rw [h.boardless hboard, List.map_nil]

/-- An animation goes down. -/
theorem finish (h : gc.Animated) {m : Motion} (hm : m ∈ gc.activeMotions) :
    (gc.finish m).Animated := by
  have hsub : (gc.finish m).activeMotions.Sublist gc.activeMotions := List.erase_sublist
  have hmotions : gc.activeMotions.Nodup := h.distinct.of_map
  have hother : ∀ m' ∈ (gc.finish m).activeMotions, m'.piece ≠ m.piece := by
    intro m' hm' heq
    obtain ⟨hne, hmem⟩ := hmotions.mem_erase_iff.mp hm'
    exact hne (List.inj_on_of_nodup_map h.distinct hmem hm heq)
  -- what stands on a square afterwards stood on the board, or is the piece put down
  have hpieces : ∀ board, (gc.finish m).board = some board → ∃ before, gc.board = some before ∧
      (∀ ref, (board.piece ref).status =
        if ref = m.piece then .idle else (before.piece ref).status) ∧
      ∀ position ref, board.getPiece position = some ref →
        ref = m.piece ∨ before.getPiece position = some ref := by
    intro board hboard
    obtain ⟨before, hbefore, rfl⟩ := Option.map_eq_some_iff.mp hboard
    refine ⟨before, hbefore, fun ref => ?_, fun position ref hpiece => ?_⟩
    · -- it is unmarked, and it leaves its square only if it stands there still
      rw [ClientBoard.piece_setPiece, ClientBoard.status_setStatus]
      split
      · rfl
      · split
        · rw [ClientBoard.piece_setPiece]
        · rfl
    · rw [ClientBoard.getPiece_setPiece] at hpiece
      split at hpiece
      · exact Or.inl (Option.some.inj hpiece).symm
      · rw [ClientBoard.getPiece_setStatus] at hpiece
        split at hpiece
        · rw [ClientBoard.getPiece_setPiece] at hpiece
          split at hpiece
          · cases hpiece
          · exact Or.inr hpiece
        · exact Or.inr hpiece
  refine ⟨h.distinct.sublist (hsub.map _), ?_, ?_, fun hnone => ?_⟩
  · intro board hboard m' hm'
    obtain ⟨before, hbefore, hstatus, -⟩ := hpieces board hboard
    rw [hstatus, if_neg (hother m' hm')]
    exact h.carried before hbefore m' (hsub.subset hm')
  · intro board hboard position ref hpiece hbusy
    obtain ⟨before, hbefore, hstatus, hstood⟩ := hpieces board hboard
    have hne : ref ≠ m.piece := by
      rintro rfl
      rw [hstatus, if_pos rfl] at hbusy
      exact absurd hbusy (by decide)
    rw [hstatus, if_neg hne] at hbusy
    obtain ⟨m', hm', rfl⟩ := h.busy before hbefore position ref
      ((hstood position ref hpiece).resolve_left hne) hbusy
    exact ⟨m', hmotions.mem_erase_iff.mpr ⟨fun heq => hne (heq ▸ rfl), hm'⟩, rfl⟩
  · -- without a board there were no animations to begin with
    have hmotions := h.boardless (Option.map_eq_none_iff.mp hnone)
    change gc.activeMotions.erase m = []
    rw [hmotions, List.erase_nil]

/-- An accepted move begins, unless the piece flies already. -/
theorem startMotion (h : gc.Animated) {board : ClientBoard} (hboard : gc.board = some board)
    (startPos endPos : Position) : (gc.startMotion board startPos endPos).Animated := by
  unfold ChessGameController.startMotion
  split
  · exact h
  next ref hstart =>
  split
  · exact h
  next hidle =>
  have hnew : ∀ m ∈ gc.activeMotions, m.piece ≠ ref := by
    rintro m hm rfl
    rw [h.carried board hboard m hm] at hidle
    exact hidle rfl
  refine ⟨?_, ?_, ?_, fun hnone => by cases hnone⟩
  · -- one animation a piece
    rw [List.map_append, List.nodup_append]
    refine ⟨h.distinct, List.nodup_singleton _, ?_⟩
    rintro ref' href' ref'' href'' rfl
    obtain ⟨m, hm, rfl⟩ := List.mem_map.mp href'
    exact hnew m hm (List.mem_singleton.mp href'')
  · -- every animation has its piece marked
    rintro board' hboard' m hm
    obtain rfl := Option.some.inj hboard'
    rw [ClientBoard.status_setStatus]
    obtain hm | hm := List.mem_append.mp hm
    · rw [if_neg (hnew m hm)]
      exact h.carried board hboard m hm
    · rw [List.mem_singleton.mp hm]
      exact if_pos rfl
  · -- every mark has its animation
    rintro board' hboard' position ref' hpiece hbusy
    obtain rfl := Option.some.inj hboard'
    rw [ClientBoard.status_setStatus] at hbusy
    by_cases href : ref' = ref
    · subst href
      exact ⟨_, List.mem_append_right _ List.mem_cons_self, rfl⟩
    · rw [if_neg href] at hbusy
      obtain ⟨m, hm, heq⟩ := h.busy board hboard position ref' hpiece hbusy
      exact ⟨m, List.mem_append_left _ hm, heq⟩

end Animated

/-! ### The clock -/

section Clock

variable {gc : ChessGameController}

/-- What is put down leaves the animations. -/
theorem activeMotions_foldl_finish (l : List Motion) (gc : ChessGameController) :
    (l.foldl finish gc).activeMotions = gc.activeMotions.diff l := by
  induction l generalizing gc with
  | nil => rfl
  | cons m l ih => rw [List.foldl_cons, ih, List.diff_cons]; rfl

/-- The screen stays the same. -/
theorem screen_foldl_finish (l : List Motion) (gc : ChessGameController) :
    (l.foldl finish gc).screen = gc.screen := by
  induction l generalizing gc with
  | nil => rfl
  | cons m l ih => exact ih (gc.finish m)

/-- One animation after the other goes down. -/
theorem Animated.foldl_finish (h : gc.Animated) {l : List Motion} (hl : l.Nodup)
    (hmem : ∀ m ∈ l, m ∈ gc.activeMotions) : (l.foldl ChessGameController.finish gc).Animated := by
  induction l generalizing gc with
  | nil => exact h
  | cons m l ih =>
    obtain ⟨hnew, hl⟩ := List.nodup_cons.mp hl
    have hm := hmem m List.mem_cons_self
    refine ih (h.finish hm) hl fun m' hm' => ?_
    have hne : m' ≠ m := by
      rintro rfl
      exact hnew hm'
    exact (List.mem_erase_of_ne hne).mpr (hmem m' (List.mem_cons_of_mem _ hm'))

/-- **The clock of the window keeps the invariant.** -/
theorem Animated.updateMotions (h : gc.Animated) (dtMs : Int) : (gc.updateMotions dtMs).Animated := by
  unfold ChessGameController.updateMotions
  split
  · exact h
  · have helapsed := h.elapse dtMs
    exact helapsed.foldl_finish (helapsed.distinct.of_map.filter _)
      fun m hm => (List.mem_filter.mp hm).1

/-- The clock of the window is that of the arbiter. -/
theorem activeMotions_updateMotions (h : gc.Animated) (dtMs : Int) :
    (gc.updateMotions dtMs).activeMotions =
      (advanceTime { activeMotions := gc.activeMotions } dtMs).2.activeMotions := by
  unfold ChessGameController.updateMotions advanceTime
  dsimp only
  split
  · next hnone =>
    -- nothing flies, or there is no board and so nothing flies
    have hmotions : gc.activeMotions = [] :=
      hnone.elim id fun hboard => h.boardless (Option.isNone_iff_eq_none.mp hboard)
    rw [hmotions]
    rfl
  · rw [activeMotions_foldl_finish]
    dsimp only
    rw [(h.elapse dtMs).distinct.of_map.sdiff_eq_filter]
    refine List.filter_congr fun m hm => ?_
    rw [Bool.eq_iff_iff]
    simp [hm]

end Clock

/-! ### Every input -/

section Inputs

variable {gc gc' : ChessGameController}

/-- The pieces of a `state` are not marked. -/
theorem quiet_placePiece {py : Builtins} {board board' : ClientBoard} {raw : Json}
    (h : placePiece py board raw = .ok board') (hquiet : board.Quiet) : board'.Quiet := by
  cases raw with
  | object raw =>
    obtain ⟨rowValue, -, h⟩ := bind_eq_ok.mp h
    obtain ⟨row, -, h⟩ := bind_eq_ok.mp h
    obtain ⟨colValue, -, h⟩ := bind_eq_ok.mp h
    obtain ⟨col, -, h⟩ := bind_eq_ok.mp h
    obtain ⟨color, -, h⟩ := bind_eq_ok.mp h
    obtain ⟨pieceType, -, h⟩ := bind_eq_ok.mp h
    obtain rfl := Except.ok.inj h
    -- a busy status is written as idle, and the other pieces are as before
    intro position ref hpiece
    rw [ClientBoard.piece_createPiece]
    split
    · dsimp only
      split
      · rfl
      · next hidle => exact Bool.eq_false_iff.mpr hidle
    · next hne =>
      rw [ClientBoard.getPiece_createPiece] at hpiece
      split at hpiece
      · exact absurd (Option.some.inj hpiece).symm hne
      · exact hquiet position ref hpiece
  | _ => cases h

/-- No piece of a new board is marked. -/
theorem quiet_boardFromState {py : Builtins} {pieces : Json} {board : ClientBoard}
    (h : boardFromState py pieces = .ok board) : board.Quiet := by
  obtain ⟨raws, -, h⟩ := bind_eq_ok.mp h
  -- by induction on the list of pieces
  have hplaced : ∀ (raws : List Json) (start : ClientBoard), start.Quiet →
      raws.foldlM (placePiece py) start = .ok board → board.Quiet := by
    intro raws
    induction raws with
    | nil => exact fun start hstart h => Except.ok.inj h ▸ hstart
    | cons raw raws ih =>
      intro start hstart h
      rw [List.foldlM_cons] at h
      obtain ⟨next, hnext, h⟩ := bind_eq_ok.mp h
      exact ih next (quiet_placePiece hnext hstart) h
  exact hplaced raws {} (fun _ _ hpiece => by cases hpiece) h

/-- Nor are those of `input.txt`. -/
theorem quiet_loadBoardFromFile {inputTxt : Option (List String)} {board : ClientBoard}
    (h : loadBoardFromFile inputTxt = some board) : board.Quiet := by
  obtain ⟨lines, -, h⟩ := Option.bind_eq_some_iff.mp h
  split at h
  · next parsed hparse =>
    obtain rfl := Option.some.inj h
    intro position ref hpiece
    have hidle := (Parsed.of_parseInitialBoard hparse).idle ref
    change (parsed.piece ref).status.isBusy = false
    rw [hidle]
    rfl
  · cases h

/-- After a `state` nothing is marked and nothing flies. -/
theorem Animated.applyState {py : Builtins} {data : Fields}
    (h : gc.applyState py data = .ok gc') : gc'.Animated := by
  obtain ⟨state, hstate, rfl⟩ := applyState_cases h
  obtain ⟨board, hboard, hrest⟩ := bind_eq_ok.mp hstate
  obtain ⟨white, -, hrest⟩ := bind_eq_ok.mp hrest
  obtain ⟨black, -, hrest⟩ := bind_eq_ok.mp hrest
  obtain rfl := Except.ok.inj hrest
  refine .of_nil rfl fun board' hboard' => ?_
  obtain rfl := Option.some.inj hboard'
  exact quiet_boardFromState hboard

/-- An `ack` is ignored, or begins an animation. -/
theorem Animated.applyAck (h : gc.Animated) {py : Builtins} {data : Fields}
    (hack : gc.applyAck py data = .ok gc') : gc'.Animated := by
  obtain rfl | ⟨board, startPos, endPos, hboard, rfl⟩ := applyAck_cases hack
  · exact h
  · exact h.startMotion hboard startPos endPos

/-- **Every event of the queue keeps the invariant.** -/
theorem Animated.handleEvent (h : gc.Animated) {py : Builtins} {inputTxt : Option (List String)}
    {event : ClientEvent} (hevent : gc.handleEvent py inputTxt event = .ok gc') :
    gc'.Animated := by
  unfold ChessGameController.handleEvent at hevent
  split at hevent
  · exact Except.ok.inj hevent ▸ h.of_eq rfl rfl
  · exact Except.ok.inj hevent ▸ .of_nil rfl fun _ hboard => quiet_loadBoardFromFile hboard
  · exact .applyState hevent
  · exact h.applyAck hevent
  · exact Except.ok.inj hevent ▸ h.of_eq rfl rfl
  · exact Except.ok.inj hevent ▸ h

theorem Animated.backToLobby : gc.backToLobby.Animated := .of_nil rfl fun _ h => by cases h

/-- A login changes no board. -/
theorem Animated.tryLogin (h : gc.Animated) : gc.tryLogin.Animated := by
  unfold ChessGameController.tryLogin
  dsimp only
  split
  · exact h
  split
  · exact h.of_eq rfl rfl
  · exact h

/-- A click changes no piece. -/
theorem Animated.handleBoardClick (h : gc.Animated) (board : ClientBoard) (position : Position) :
    (gc.handleBoardClick board position).Animated := by
  unfold ChessGameController.handleBoardClick
  split
  · -- nothing is selected: the click may select
    split
    · exact h
    split
    · exact h
    split
    · exact h.of_eq rfl rfl
    · exact h
  · -- a piece is selected: dropped, replaced, or sent to the square
    split
    · exact h.of_eq rfl rfl
    split
    · exact h.of_eq rfl rfl
    · exact h.of_eq rfl rfl

/-- **Nor does a click of any kind.** -/
theorem Animated.onMouseClick (h : gc.Animated) (boardWidth x y : Int) :
    (gc.onMouseClick boardWidth x y).Animated := by
  unfold ChessGameController.onMouseClick
  split
  · unfold clickLogin
    split
    · exact h.tryLogin
    split
    · exact h.of_eq rfl rfl
    split
    · exact h.of_eq rfl rfl
    · exact h
  · unfold clickLobby
    split
    · exact h.of_eq rfl rfl
    split
    · exact h.of_eq rfl rfl
    split
    · exact h.of_eq rfl rfl
    split
    · exact h.of_eq rfl rfl
    · exact h
  · unfold clickJoin
    split
    · exact h.of_eq rfl rfl
    · exact h
  · -- the game
    unfold clickGame
    split
    · split
      · exact .backToLobby
      · exact h
    split
    · exact h
    split
    · exact h
    split
    · exact h
    split
    · exact h
    · exact h.handleBoardClick _ _

/-- **Nor does a key.** -/
theorem Animated.handleKey (h : gc.Animated) (key : Nat) : (gc.handleKey key).Animated := by
  unfold ChessGameController.handleKey
  -- the game, the login form, the join form, and the lobby
  split
  · split
    · exact .backToLobby
    · exact h
  · unfold handleLoginKey
    split
    · split
      · exact h.of_eq rfl rfl
      · exact h.tryLogin
    split
    · split <;> exact h.of_eq rfl rfl
    · split <;> exact h.of_eq rfl rfl
  · unfold handleJoinKey
    dsimp only
    split
    · split
      · exact h
      · exact h.of_eq rfl rfl
    · exact h.of_eq rfl rfl
  · exact h

/-- **Whatever happens to the client**, the marks are those of the animations. -/
theorem Animated.step (h : gc.Animated) {py : Builtins} {loads : String → Except LoadError Json}
    {boardWidth : Int} {input : ClientInput}
    (hstep : gc.step py loads boardWidth input = .ok gc') : gc'.Animated := by
  cases input with
  | opened => exact Except.ok.inj hstep ▸ h.of_eq rfl rfl
  | closed => exact Except.ok.inj hstep ▸ h.of_eq rfl rfl
  | frame raw => exact Except.ok.inj hstep ▸ h.of_eq rfl rfl
  | httpLogin login response =>
    -- a thread of a login answers, if there is one
    rw [ChessGameController.step] at hstep
    split at hstep
    · exact Except.ok.inj hstep ▸ h.of_eq rfl rfl
    · exact Except.ok.inj hstep ▸ h
  | poll inputTxt =>
    rw [ChessGameController.step, pollEvent] at hstep
    split at hstep
    · exact Except.ok.inj hstep ▸ h
    · next event events _ =>
      have hnext : Animated { gc with net := { gc.net with events := events } } := h.of_eq rfl rfl
      exact hnext.handleEvent hstep
  | update dtMs =>
    -- only the game screen moves its animations on
    obtain rfl := Except.ok.inj hstep
    split
    · exact h.updateMotions dtMs
    · exact h
  | click x y => exact Except.ok.inj hstep ▸ h.onMouseClick boardWidth x y
  | key key => exact Except.ok.inj hstep ▸ h.handleKey key

end Inputs

/-! ### Every run -/

/-- A piece on the board is marked if and only if an animation carries it, and there is one at
most. -/
def Locks (gc : ChessGameController) : Prop :=
  ∀ board, gc.board = some board → ∀ position ref, board.getPiece position = some ref →
    ((board.piece ref).status.isBusy = true ↔ ∃! m, m ∈ gc.activeMotions ∧ m.piece = ref)

/-- The invariant says that a flying piece cannot be selected. -/
theorem Animated.locks {gc : ChessGameController} (h : gc.Animated) : gc.Locks := by
  intro board hboard position ref hpiece
  constructor
  · intro hbusy
    obtain ⟨m, hm, rfl⟩ := h.busy board hboard position ref hpiece hbusy
    refine ⟨m, ⟨hm, rfl⟩, ?_⟩
    rintro m' ⟨hm', heq⟩
    exact List.inj_on_of_nodup_map h.distinct hm' hm heq
  · rintro ⟨m, ⟨hm, rfl⟩, -⟩
    rw [h.carried board hboard m hm]
    rfl

/-- Updates with nothing between them. -/
theorem updates (py : Builtins) (loads : String → Except LoadError Json) (boardWidth : Int)
    {gc : ChessGameController} (h : gc.Animated) (hscreen : gc.screen = .game) (dt : Nat)
    (dts : List Nat) :
    ∃ gc', gc.run py loads boardWidth ((dt :: dts).map .update) = .ok gc' ∧ gc'.Animated ∧
      gc'.activeMotions =
        (advanceTime { activeMotions := gc.activeMotions } (dt :: dts).sum).2.activeMotions := by
  -- by induction on the updates, the first of which is taken off
  induction dts generalizing gc dt with
  | nil =>
    refine ⟨gc.updateMotions dt, ?_, h.updateMotions dt, ?_⟩
    · exact congrArg Except.ok (if_pos hscreen)
    · rw [activeMotions_updateMotions h, List.sum_singleton]
  | cons dt' dts ih =>
    have hscreen' : (gc.updateMotions dt).screen = .game := by
      unfold ChessGameController.updateMotions
      split
      · exact hscreen
      · rw [screen_foldl_finish]
        exact hscreen
    obtain ⟨gc', hrun, hanimated, hmotions⟩ := ih (h.updateMotions dt) hscreen' dt'
    refine ⟨gc', ?_, hanimated, ?_⟩
    · have hfirst : gc.step py loads boardWidth (.update dt) = .ok (gc.updateMotions dt) :=
        congrArg Except.ok (if_pos hscreen)
      rw [List.map_cons, run, List.foldlM_cons, hfirst]
      exact hrun
    · -- the two parts of the time, one after the other
      have hsum : (((dt :: dt' :: dts).sum : Nat) : Int) = dt + ((dt' :: dts).sum : Nat) := by
        rw [List.sum_cons]
        push_cast
        rfl
      rw [hmotions, activeMotions_updateMotions h, hsum,
        GameEngine.advanceTime_add_snd (Int.natCast_nonneg _)]
      rfl

end ChessGameController

/-- **A piece is locked while it flies**, and no longer. -/
theorem locked_run (py : Builtins) (loads : String → Except LoadError Json) (boardWidth : Int)
    (inputs : List ClientInput) {gc : ChessGameController}
    (hrun : ChessGameController.run py loads boardWidth {} inputs = .ok gc) :
    gc.Locks ∧ (gc.screen = .game → ∀ dts : List Nat, dts ≠ [] →
      ∃ gc', gc.run py loads boardWidth (dts.map .update) = .ok gc' ∧ gc'.Locks ∧
        gc'.activeMotions = (gc.activeMotions.map (elapse dts.sum)).filter
          fun m => !decide (m.remainingTime ≤ 0)) := by
  have hstart : ChessGameController.Animated {} := .of_nil rfl fun _ h => by cases h
  have hanimated := ChessGameController.run_invariant py loads boardWidth
    (fun _ _ _ hstep h => h.step hstep) hrun hstart
  refine ⟨hanimated.locks, fun hscreen dts hne => ?_⟩
  obtain ⟨dt, dts, rfl⟩ := List.exists_cons_of_ne_nil hne
  obtain ⟨gc', hupdates, hanimated', hmotions⟩ :=
    ChessGameController.updates py loads boardWidth hanimated hscreen dt dts
  exact ⟨gc', hupdates, hanimated'.locks, hmotions⟩

/-- The server has accepted Alice's move, and 600 of its 1000 ms have passed. -/
def flyingInputs : List ClientInput :=
  firstMoveInputs ++ [.frame ackFrame, .poll none, .update 600]

/-- After 500 ms in two updates the piece is down, and unlocked. -/
theorem locked_run_flying :
    ∃ gc, ChessGameController.run Small.builtins Small.loads 800 {} flyingInputs = .ok gc ∧
      gc.activeMotions.length = 1 ∧ gc.Locks ∧
      ∃ gc', gc.run Small.builtins Small.loads 800 [.update 300, .update 200] = .ok gc' ∧
        gc'.Locks ∧ gc'.activeMotions = [] := by
  have hflying : ((ChessGameController.run Small.builtins Small.loads 800 {}
      flyingInputs).toOption.map fun gc => (gc.screen, gc.activeMotions.length,
        gc.activeMotions.map Motion.remainingTime)) = some (.game, 1, [400]) := by decide +kernel
  obtain ⟨gc, hrun, hgc⟩ := ChessGameController.exists_of_toOption hflying
  obtain ⟨hscreen, hgc⟩ := Prod.mk.inj hgc
  obtain ⟨hlength, htimes⟩ := Prod.mk.inj hgc
  obtain ⟨hlocks, hupdates⟩ := locked_run Small.builtins Small.loads 800 flyingInputs hrun
  obtain ⟨gc', hrun', hlocks', hmotions⟩ := hupdates hscreen [300, 200] (by decide)
  refine ⟨gc, hrun, hlength, hlocks, gc', hrun', hlocks', ?_⟩
  -- the animation had 400 ms left
  obtain ⟨m, hm⟩ := List.length_eq_one_iff.mp hlength
  rw [hm] at htimes hmotions
  have htime : m.remainingTime = 400 := by simpa using htimes
  rw [hmotions]
  simp [elapse, htime]

end KungFuChess
