import KungFuChess.Server.Pairing
import KungFuChess.Server.Seated

/-!
# The calls that seat users

`create_room`, `create_matched_room` and `join_room` check, write and call the hook that gives
a new room its engine. Each of them ends in one of three ways: it is rejected with a
`ValueError` and has changed nothing; it returns, and its write and the new engine are there;
or the hook has raised something else, and the write is there without an engine
(`BoardFails`).
-/

namespace KungFuChess

open Effect RoomService GameService

/-- A `ValueError`, which the callers catch. -/
def Exn.IsValueError : Exn → Prop
  | .valueError _ => True
  | _ => False

/-- A write that seats users in a room, and the hook after it. -/
structure Opens (a : Action) (roomId : RoomId) (s t : Server) : Prop where
  enabled : a.Enabled s
  seatMap : t.seatMap = a.seats s.seatMap
  engines : ∀ r, t.engines.get? r = s.engines.get? r ∨
    r = roomId ∧ s.engines.get? r = none ∧ ∃ board, t.engines.get? r = some (GameEngine.new board)
  /-- What no call of the room service writes. -/
  others : t = { s with rooms := t.rooms, userRoom := t.userRoom, engines := t.engines }

namespace Opens

variable {a : Action} {roomId r : RoomId} {s t : Server}

/-- The write of the call itself. -/
theorem of_apply (ha : a.Enabled s) (hengines : (a.apply s).engines = s.engines)
    (hothers : a.apply s = { s with
      rooms := (a.apply s).rooms, userRoom := (a.apply s).userRoom, engines := (a.apply s).engines }) :
    Opens a roomId s (a.apply s) :=
  ⟨ha, Action.seatMap_apply ha, fun _ => Or.inl (by rw [hengines]), hothers⟩

/-- The room is started. -/
theorem startGame (h : Opens a roomId s t) :
    Opens a roomId s ((Action.startGame r).apply t) := by
  refine ⟨h.enabled, ?_, h.engines, ?_⟩
  · exact (Action.seatMap_apply (a := .startGame r) trivial).trans h.seatMap
  · conv_lhs => rw [h.others]
    rfl

/-- And gets its engine. -/
theorem setEngine (h : Opens a roomId s t) (hnone : t.engines.get? roomId = none) (board : Board) :
    Opens a roomId s (t.setEngine roomId (GameEngine.new board)) := by
  refine ⟨h.enabled, h.seatMap, fun r => ?_, ?_⟩
  · rw [Server.get?_setEngine]
    split
    · next hr =>
      subst hr
      refine Or.inr ⟨rfl, ?_, board, rfl⟩
      obtain hsame | ⟨-, hs, -⟩ := h.engines r
      · exact hsame.symm.trans hnone
      · exact hs
    · exact h.engines r
  · conv_lhs => rw [h.others]
    rfl

/-- A game that runs before the call runs after it. -/
theorem running (h : Opens a roomId s t) (hrunning : Running s r) : Running t r := by
  intro engine hengine
  obtain hsame | ⟨-, -, board, hnew⟩ := h.engines r
  · exact hrunning engine (hsame ▸ hengine)
  · rw [hnew] at hengine
    cases hengine
    rfl

end Opens

section Specs

variable {env : Env} {s t : Server} {roomId : RoomId} {a : Action}

/-- The hook gives the room an engine, if it has none. -/
theorem onRoomCreated_opens (h : Opens a roomId s t) (hengines : t.engines = s.engines) :
    wp (onRoomCreated env roomId)
      (fun _ u => Opens a roomId s u ∧ u.engines.contains roomId = true ∧
        ¬ BoardFails env s roomId)
      (fun exn u => Opens a roomId s u ∧ BoardFails env s roomId ∧ ¬ exn.IsValueError) t := by
  unfold GameService.onRoomCreated BoardFails
  rw [wp_bind, wp_get, ← hengines]
  split
  · next hengine =>
    exact ⟨h, hengine, fun hfails => absurd (hengine.symm.trans hfails.1) (by simp)⟩
  -- without an engine, the board is read and parsed, and both may fail
  next hnone =>
  have hnone' : t.engines.contains roomId = false := Bool.eq_false_iff.mpr hnone
  unfold GameService.createEngineForRoom InputTxtBoardLoader.load
  rw [wp_bind]
  have hread : wp (perform env (.readInputTxt roomId))
      (fun _ u => u = t ∧ env.raises (.readInputTxt roomId) = false)
      (fun exn u => u = t ∧ env.raises (.readInputTxt roomId) = true ∧ ¬ exn.IsValueError) t := by
    unfold perform
    split
    · next hraises => exact ⟨rfl, hraises, id⟩
    · next hraises => exact ⟨rfl, Bool.eq_false_iff.mpr hraises⟩
  refine wp_call hread ?_ ?_
  · rintro exn u ⟨rfl, hraises, hexn⟩
    exact ⟨h, ⟨hnone', Or.inl hraises⟩, hexn⟩
  rintro _ u ⟨rfl, hraises⟩
  cases hparse : BoardParser.parseInitialBoard
      (InputTxtBoardLoader.boardLines false env.inputTxt) with
  | ok board =>
    refine ⟨h.setEngine (contains_eq_false hnone) board, ?_, ?_⟩
    · exact Dict.contains_iff.mpr ⟨_, Dict.get?_set_self _ _ _⟩
    · rintro ⟨-, hread | ⟨error, herror⟩⟩
      · exact absurd (hraises.symm.trans hread) (by simp)
      · cases herror
  | error error => exact ⟨h, ⟨hnone', Or.inr ⟨error, rfl⟩⟩, id⟩

/-- `create_room`. -/
theorem createRoom_opens (creator : UserId) :
    wp (RoomService.createRoom env creator)
      (fun r t => r = env.tokenHex creator ∧
        Opens (.openRoom (env.tokenHex creator) creator) (env.tokenHex creator) s t ∧
        t.engines.contains (env.tokenHex creator) = true ∧ ¬ BoardFails env s (env.tokenHex creator))
      (fun exn t => exn.IsValueError ∧ s.userRoom.contains creator = true ∧ t = s ∨
        ¬ exn.IsValueError ∧
          Opens (.openRoom (env.tokenHex creator) creator) (env.tokenHex creator) s t ∧
          BoardFails env s (env.tokenHex creator)) s := by
  unfold RoomService.createRoom
  rw [wp_bind, wp_get]
  split
  · next hmapped => exact Or.inl ⟨trivial, hmapped, rfl⟩
  next hfree =>
  -- the room is there before the hook runs
  rw [wp_bind, wp_modify]
  have hopened : Opens (.openRoom (env.tokenHex creator) creator) (env.tokenHex creator) s _ :=
    Opens.of_apply (contains_eq_false hfree) rfl rfl
  refine wp_call (onRoomCreated_opens hopened rfl) ?_ ?_
  · rintro exn u ⟨hu, hfails, hexn⟩
    exact Or.inr ⟨hexn, hu, hfails⟩
  · rintro _ u ⟨hu, hengine, hloads⟩
    exact ⟨rfl, hu.startGame, hengine, hloads⟩

/-- `create_matched_room`, with the identifier that the caller has drawn. -/
theorem createMatchedRoom_opens (userA userB : UserId) (roomId : RoomId) :
    wp (RoomService.createMatchedRoom env userA userB (some roomId))
      (fun r t => r = roomId ∧ Opens (.openMatchedRoom roomId userA userB) roomId s t ∧
        t.engines.contains roomId = true ∧ ¬ BoardFails env s roomId)
      (fun exn t => exn.IsValueError ∧ t = s ∧
          (s.userRoom.contains userA = true ∨ s.userRoom.contains userB = true ∨
            s.rooms.contains roomId = true) ∨
        ¬ exn.IsValueError ∧ Opens (.openMatchedRoom roomId userA userB) roomId s t ∧
          BoardFails env s roomId) s := by
  unfold RoomService.createMatchedRoom
  rw [wp_bind, wp_get]
  -- the three rejections, in their order
  split
  · next hA => exact Or.inl ⟨trivial, rfl, Or.inl hA⟩
  next hA =>
  split
  · next hB => exact Or.inl ⟨trivial, rfl, Or.inr (Or.inl hB)⟩
  next hB =>
  change wp (if s.rooms.contains roomId = true then _ else _) _ _ s
  split
  · next hroom => exact Or.inl ⟨trivial, rfl, Or.inr (Or.inr hroom)⟩
  next hnew =>
  rw [wp_bind, wp_modify]
  have hopened : Opens (.openMatchedRoom roomId userA userB) roomId s _ := Opens.of_apply
    ⟨contains_eq_false hA, contains_eq_false hB, contains_eq_false hnew⟩ rfl rfl
  refine wp_call (onRoomCreated_opens hopened rfl) ?_ ?_
  · rintro exn u ⟨hu, hfails, hexn⟩
    exact Or.inr ⟨hexn, hu, hfails⟩
  · rintro _ u ⟨hu, hengine, hloads⟩
    exact ⟨rfl, hu.startGame, hengine, hloads⟩

/-- The hook runs when a player joins a room that has not been started. -/
def StartsGame (room : Room) : Prop := nextRole room ≠ .viewer ∧ room.gameStarted = false

/-- `join_room`. -/
theorem joinRoom_opens (roomId : RoomId) (userId : UserId) :
    wp (RoomService.joinRoom env roomId userId)
      (fun role t => ∃ room, s.rooms.get? roomId = some room ∧ role = nextRole room ∧
        Opens (.join roomId userId role) roomId s t ∧
        (StartsGame room → ¬ BoardFails env s roomId))
      (fun exn t => exn.IsValueError ∧ t = s ∧
          (s.rooms.get? roomId = none ∨ s.userRoom.contains userId = true) ∨
        ¬ exn.IsValueError ∧ ∃ room, s.rooms.get? roomId = some room ∧
          Opens (.join roomId userId (nextRole room)) roomId s t ∧ StartsGame room ∧
            BoardFails env s roomId) s := by
  unfold RoomService.joinRoom
  rw [wp_bind, wp_get]
  cases hroom : s.rooms.get? roomId with
  | none => exact Or.inl ⟨trivial, rfl, Or.inl rfl⟩
  | some room =>
    dsimp only
    split
    · next hmapped => exact Or.inl ⟨trivial, rfl, Or.inr hmapped⟩
    next hfree =>
    rw [wp_bind, wp_modify]
    have hjoined : Opens (.join roomId userId (nextRole room)) roomId s _ :=
      Opens.of_apply ⟨contains_eq_false hfree, room, hroom, rfl⟩ rfl rfl
    unfold startForPlayer
    -- a second player starts the game; a viewer does not
    split
    · next hstarts =>
      rw [wp_bind]
      have hstart : wp (RoomService.startGame roomId) (fun _ u =>
          Opens (.join roomId userId (nextRole room)) roomId s u ∧ u.engines = s.engines)
          (fun _ _ => False) _ := ⟨hjoined.startGame, rfl⟩
      refine wp_call hstart (fun _ _ h => h.elim) ?_
      rintro _ u ⟨hu, hengines⟩
      refine wp_mono (onRoomCreated_opens hu hengines) ?_ ?_
      · rintro _ v ⟨hv, -, hloads⟩
        exact ⟨room, rfl, rfl, hv, fun _ => hloads⟩
      · rintro exn v ⟨hv, hfails, hexn⟩
        exact Or.inr ⟨hexn, room, rfl, hv, hstarts, hfails⟩
    · next hstarts => exact ⟨room, rfl, rfl, hjoined, fun h => absurd h hstarts⟩

end Specs

end KungFuChess
