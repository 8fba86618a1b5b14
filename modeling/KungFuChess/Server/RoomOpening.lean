import KungFuChess.Server.RoomRoles
import KungFuChess.Server.SeatingCalls

/-!
# Opening a room

`create_room`, `create_matched_room` and `join_room` write the two maps of the room service and
then call the `on_room_created` hook. Two questions about these writes.

What is left of them when the call raises? Nothing, if the call is turned away by its own
checks; everything, if it is the hook that raises, since nobody takes the writes back
(`atomic_iff`). What do they change besides the new room? Nothing, if the identifier of the room
is not in use. `create_matched_room` checks this and `create_room` does not, and then it
writes over the room that has the identifier (`opening_undisturbed`).
-/

namespace KungFuChess

open Effect RoomService GameService

/-! ### Calls that raise -/

namespace RoomCall

/-- If the call raises, the rooms and the map of the users are as before. -/
def Atomic (s : Server) (env : Env) (call : RoomCall) : Prop :=
  wp (call.run env) (fun _ _ => True) (fun _ t => t.rooms = s.rooms ∧ t.userRoom = s.userRoom) s

/-- The call passes its own checks and runs the hook, and the hook raises. -/
def HookFails (s : Server) (env : Env) : RoomCall → Prop
  | .createRoom creator =>
    s.userRoom.get? creator = none ∧ BoardFails env s (env.tokenHex creator)
  | .createMatchedRoom userA userB roomId =>
    (Action.openMatchedRoom (roomId.getD (env.tokenHex userA)) userA userB).Enabled s ∧
      BoardFails env s (roomId.getD (env.tokenHex userA))
  | .joinRoom roomId userId =>
    s.userRoom.get? userId = none ∧
      ∃ room, s.rooms.get? roomId = some room ∧ StartsGame room ∧ BoardFails env s roomId
  | _ => False

/-- A call that returns has not failed in the hook; one that raises has changed nothing, or has
seated a user who was in no room and then the hook has raised. -/
def Ends (s : Server) (env : Env) (call : RoomCall) : Prop :=
  wp (call.run env) (fun _ _ => ¬ call.HookFails s env)
    (fun _ t => ¬ call.HookFails s env ∧ t = s ∨
      call.HookFails s env ∧ ∃ u, s.userRoom.get? u = none ∧ t.userRoom.get? u ≠ none) s

section Ends

variable {s t : Server} {env : Env}

theorem wp_discard {α : Type} {x : ServerM α} {Q : α → Server → Prop} {E : Exn → Server → Prop}
    {P : Prop} (hx : wp x Q E s) (hQ : ∀ a t, Q a t → P) :
    wp (do let _ ← x; pure ()) (fun _ _ => P) E s :=
  wp_call hx (fun _ _ h => h) fun a t h => hQ a t h

/-- Whoever enters a room is mapped to it. -/
theorem mapped_of_opens {a : Action} {roomId : RoomId} {u : UserId} (hopens : Opens a roomId s t)
    (hseated : (a.seats s.seatMap).room u ≠ none) : t.userRoom.get? u ≠ none := by
  rw [← hopens.seatMap] at hseated
  exact hseated

/-- `create_room` ends well, or is turned away, or the hook fails. -/
theorem createRoom_ends (creator : UserId) : (RoomCall.createRoom creator).Ends s env := by
  refine wp_mono (wp_discard (createRoom_opens creator) fun _ _ h hfails => h.2.2.2 hfails.2)
    (fun _ _ h => h) fun exn t h => ?_
  -- it is turned away, or the hook raises
  obtain ⟨-, hcreator, rfl⟩ | ⟨-, hopens, hfails⟩ := h
  · exact Or.inl ⟨fun hfails => Dict.get?_ne_none_of_contains hcreator hfails.1, rfl⟩
  · refine Or.inr ⟨⟨hopens.enabled, hfails⟩, creator, hopens.enabled, mapped_of_opens hopens ?_⟩
    dsimp only [Action.seats, SeatMap.opened]
    rw [roles_openedRoom, if_pos rfl]
    simp

/-- `create_matched_room`, likewise. -/
theorem createMatchedRoom_ends (userA userB : UserId) (roomId? : Option RoomId) :
    (RoomCall.createMatchedRoom userA userB roomId?).Ends s env := by
  -- the identifier is the one given, or one that is drawn
  change wp (do
    let _ ← RoomService.createMatchedRoom env userA userB (some (roomId?.getD (env.tokenHex userA)))
    pure ()) _ _ s
  dsimp only [HookFails]
  generalize roomId?.getD (env.tokenHex userA) = roomId
  refine wp_mono (wp_discard (createMatchedRoom_opens userA userB roomId)
    fun _ _ h hfails => h.2.2.2 hfails.2) (fun _ _ h => h) fun exn t h => ?_
  obtain ⟨-, rfl, hrejected⟩ | ⟨-, hopens, hfails⟩ := h
  · refine Or.inl ⟨fun hfails => ?_, rfl⟩
    obtain ⟨⟨hA, hB, hnew⟩, -⟩ := hfails
    obtain hA' | hB' | hroom := hrejected
    · exact Dict.get?_ne_none_of_contains hA' hA
    · exact Dict.get?_ne_none_of_contains hB' hB
    · exact Dict.get?_ne_none_of_contains hroom hnew
  · refine Or.inr ⟨⟨hopens.enabled, hfails⟩, userB, hopens.enabled.2.1,
      mapped_of_opens hopens ?_⟩
    dsimp only [Action.seats, SeatMap.opened]
    rw [roles_matchedRoom, if_pos rfl]
    simp

/-- `join_room`: the hook runs only if the game starts. -/
theorem joinRoom_ends (roomId : RoomId) (userId : UserId) :
    (RoomCall.joinRoom roomId userId).Ends s env := by
  refine wp_mono (wp_discard (joinRoom_opens roomId userId) fun _ _ h hfails => ?_)
    (fun _ _ h => h) fun exn t h => ?_
  · obtain ⟨room, hroom, -, -, hloads⟩ := h
    obtain ⟨-, room', hroom', hstarts, hfails⟩ := hfails
    obtain rfl := Option.some.inj (hroom.symm.trans hroom')
    exact hloads hstarts hfails
  -- turned away by a check, or the hook has raised behind the seat
  obtain ⟨-, rfl, hrejected⟩ | ⟨-, room, hroom, hopens, hstarts, hfails⟩ := h
  · refine Or.inl ⟨fun hfails => ?_, rfl⟩
    obtain ⟨hfree, room, hroom, -⟩ := hfails
    obtain hnone | huser := hrejected
    · exact absurd (hroom.symm.trans hnone) (by simp)
    · exact Dict.get?_ne_none_of_contains huser hfree
  · refine Or.inr ⟨⟨hopens.enabled.1, room, hroom, hstarts, hfails⟩, userId, hopens.enabled.1,
      mapped_of_opens hopens ?_⟩
    dsimp only [Action.seats, SeatMap.joined]
    rw [Function.update_self]
    simp

/-- **How a call ends.** -/
theorem run_ends (s : Server) (env : Env) (call : RoomCall) : call.Ends s env := by
  cases call with
  | createRoom creator => exact createRoom_ends creator
  | createMatchedRoom userA userB roomId? => exact createMatchedRoom_ends userA userB roomId?
  | joinRoom roomId userId => exact joinRoom_ends roomId userId
  -- the other calls run no hook
  | markDisconnected userId =>
    exact wp_mono (wp_discard (markDisconnected_cases env userId s) fun _ _ _ => id)
      (fun _ _ h => h) fun _ _ h => Or.inl ⟨id, h⟩
  | reconnect userId =>
    exact wp_mono (wp_discard (reconnect_cases userId s) fun _ _ _ => id) (fun _ _ h => h)
      fun _ _ h => h.elim
  | clearDisconnectDeadline roomId userId => exact id
  | markEloUpdated roomId => exact id

end Ends

/-- **A call of the room service is atomic exactly if its hook does not raise.** -/
theorem atomic_iff (s : Server) (env : Env) (call : RoomCall) :
    call.Atomic s env ↔ ¬ call.HookFails s env := by
  constructor
  · -- a hook that raises leaves a user seated who was not
    intro hatomic hfails
    refine wp_elim (wp_and (run_ends s env call) hatomic) (fun _ _ h => h.1 hfails) fun exn t h => ?_
    obtain ⟨⟨hnot, -⟩ | ⟨-, u, hfree, hseated⟩, -, hmap⟩ := h
    · exact hnot hfails
    · rw [hmap] at hseated
      exact hseated hfree
  · intro hnot
    refine wp_mono (run_ends s env call) (fun _ _ _ => trivial) fun exn t h => ?_
    obtain ⟨-, rfl⟩ | ⟨hfails, -⟩ := h
    · exact ⟨rfl, rfl⟩
    · exact absurd hfails hnot

/-- Alice opens a room while `input.txt` has a token that is no piece: the exception leaves her
in a room without an engine. -/
theorem not_atomic_malformedBoard :
    ¬ (RoomCall.createRoom Small.alice).Atomic Small.start (Small.env ["wX . bK"]) := by
  intro hatomic
  have hseated : ∃ exn t, (RoomCall.createRoom Small.alice).run (Small.env ["wX . bK"]) Small.start =
      .error exn t ∧ t.userRoom.contains Small.alice = true ∧
        t.engines.contains Small.room = false := ⟨_, _, rfl, by decide, by decide⟩
  obtain ⟨exn, t, hrun, hmapped, -⟩ := hseated
  unfold Atomic wp at hatomic
  rw [hrun] at hatomic
  rw [hatomic.2] at hmapped
  exact absurd hmapped (by decide)

end RoomCall

/-! ### Calls that return -/

/-- The call has left the other rooms, users and engines alone, and the room has the new engine it
is opened with. -/
structure Undisturbed (env : Env) (roomId : RoomId) (newcomers : List UserId) (s t : Server) :
    Prop where
  rooms : ∀ r room, s.rooms.get? r = some room → t.rooms.get? r = some room
  mapped : ∀ u, u ∉ newcomers → t.userRoom.get? u = s.userRoom.get? u
  engines : ∀ r engine, s.engines.get? r = some engine → t.engines.get? r = some engine
  fresh : s.engines.get? roomId = none ∧ ∃ board,
    BoardParser.parseInitialBoard (InputTxtBoardLoader.boardLines false env.inputTxt) = .ok board ∧
      t.engines.get? roomId = some (GameEngine.new board)

section Opening

variable {env : Env} {s t : Server} {roomId : RoomId}

/-- What the hook does when it returns. -/
theorem onRoomCreated_returns :
    wp (onRoomCreated env roomId)
      (fun _ u => s.engines.contains roomId = true ∧ u = s ∨
        s.engines.get? roomId = none ∧ ∃ board,
          BoardParser.parseInitialBoard (InputTxtBoardLoader.boardLines false env.inputTxt) =
            .ok board ∧ u = s.setEngine roomId (GameEngine.new board))
      (fun _ _ => True) s := by
  unfold onRoomCreated
  rw [wp_bind, wp_get]
  split
  · next hengine => exact Or.inl ⟨hengine, rfl⟩
  next hnone =>
  unfold createEngineForRoom InputTxtBoardLoader.load
  rw [wp_bind]
  refine wp_call (perform_spec _) (fun _ _ _ => trivial) ?_
  rintro _ u ⟨rfl, -⟩
  -- the board of the room is read when it has no engine yet
  cases hparse : BoardParser.parseInitialBoard
      (InputTxtBoardLoader.boardLines false env.inputTxt) with
  | ok board => exact Or.inr ⟨contains_eq_false hnone, board, rfl, rfl⟩
  | error error => trivial

/-- A room that is written over is not as before: it has a member that it had not. -/
theorem Undisturbed.unused {newcomers : List UserId} {room : Room} (hinv : RoomInv s)
    (hfree : ∀ u ∈ newcomers, s.userRoom.get? u = none)
    (hmember : ∃ u ∈ newcomers, room.members.get? u ≠ none)
    (hroom : t.rooms.get? roomId = some room) (h : Undisturbed env roomId newcomers s t) :
    s.rooms.get? roomId = none := by
  by_contra hold
  obtain ⟨old, hold⟩ := Option.ne_none_iff_exists'.mp hold
  obtain ⟨newcomer, hnewcomer, hmember⟩ := hmember
  have hsame : old = room := Option.some.inj ((h.rooms roomId old hold).symm.trans hroom)
  exact hmember (hsame ▸ hinv.not_member (hfree newcomer hnewcomer) hold)

/-- A room with a new identifier disturbs nothing. -/
theorem undisturbed_of_unused {newcomers : List UserId} {board : Board} (hinv : RoomInv s)
    (hnew : s.rooms.get? roomId = none)
    (hrooms : ∀ r, r ≠ roomId → t.rooms.get? r = s.rooms.get? r)
    (hmap : ∀ u, u ∉ newcomers → t.userRoom.get? u = s.userRoom.get? u)
    (hparse : BoardParser.parseInitialBoard (InputTxtBoardLoader.boardLines false env.inputTxt) =
      .ok board)
    (hengines : t.engines = s.engines.set roomId (GameEngine.new board)) :
    Undisturbed env roomId newcomers s t := by
  -- a room that did not exist had no engine
  have hnone : s.engines.get? roomId = none := by
    by_contra hengine
    obtain ⟨engine, hengine⟩ := Option.ne_none_iff_exists'.mp hengine
    obtain ⟨old, hold⟩ := hinv.roomed hengine
    exact absurd (hold.symm.trans hnew) (by simp)
  refine ⟨fun r old hold => ?_, hmap, fun r engine hengine => ?_, hnone, board, hparse, ?_⟩
  · have hne : r ≠ roomId := by
      rintro rfl
      exact absurd (hold.symm.trans hnew) (by simp)
    exact (hrooms r hne).trans hold
  · have hne : r ≠ roomId := by
      rintro rfl
      exact absurd (hengine.symm.trans hnone) (by simp)
    rw [hengines, Dict.get?_set_of_ne _ _ hne]
    exact hengine
  · rw [hengines, Dict.get?_set_self]

/-- A room is opened, the hook runs and the game is started. -/
theorem opening_returns {room : Room} {userRoom : Dict UserId RoomId} (newcomers : List UserId)
    (hinv : RoomInv s) (hmap : ∀ u, u ∉ newcomers → userRoom.get? u = s.userRoom.get? u)
    (hfree : ∀ u ∈ newcomers, s.userRoom.get? u = none)
    (hmember : ∃ u ∈ newcomers, room.members.get? u ≠ none) :
    wp (onRoomCreated env roomId >>= fun _ => startGame roomId >>= fun _ => pure roomId)
      (fun r t => r = roomId ∧ (Undisturbed env roomId newcomers s t ↔ s.rooms.get? roomId = none))
      (fun _ _ => True)
      { s with rooms := s.rooms.set roomId room, userRoom := userRoom } := by
  refine wp_call onRoomCreated_returns (fun _ _ _ => trivial) fun _ u hu => ⟨rfl, ?_⟩
  have hu' : u.rooms = s.rooms.set roomId room ∧ u.userRoom = userRoom := by
    obtain ⟨-, rfl⟩ | ⟨-, board, -, rfl⟩ := hu <;> exact ⟨rfl, rfl⟩
  change Undisturbed env roomId newcomers s
    (u.modifyRoom roomId fun room => { room with gameStarted := true }) ↔ s.rooms.get? roomId = none
  constructor
  · have hmember' : ∃ u ∈ newcomers,
        ({ room with gameStarted := true } : Room).members.get? u ≠ none := hmember
    refine Undisturbed.unused hinv hfree hmember' ?_
    rw [Server.get?_modifyRoom, if_pos rfl, hu'.1, Dict.get?_set_self]
    rfl
  · intro hnew
    -- the hook has found no engine
    obtain ⟨hcontains, -⟩ | ⟨-, board, hparse, rfl⟩ := hu
    · obtain ⟨engine, hengine⟩ := Dict.contains_iff.mp hcontains
      obtain ⟨old, hold⟩ := hinv.roomed hengine
      exact absurd (hold.symm.trans hnew) (by simp)
    refine undisturbed_of_unused hinv hnew (fun r hne => ?_) hmap hparse rfl
    rw [Server.get?_modifyRoom, if_neg hne]
    exact Dict.get?_set_of_ne _ _ hne

/-- `create_room` does not ask whether the identifier is in use. -/
theorem createRoom_undisturbed (hinv : RoomInv s) (creator : UserId) :
    wp (createRoom env creator)
      (fun r t => Undisturbed env r [creator] s t ↔ s.rooms.get? (env.tokenHex creator) = none)
      (fun _ _ => True) s := by
  unfold createRoom
  rw [wp_bind, wp_get]
  -- a mapped creator is refused
  split
  · trivial
  next hfree =>
  rw [wp_bind, wp_modify]
  refine wp_mono (opening_returns [creator] hinv (fun u hu => ?_) (fun u hu => ?_)
    ⟨creator, List.mem_singleton_self creator, ?_⟩) (fun r t ht => ?_) fun _ _ h => h
  · -- the others keep their rooms
    exact Dict.get?_set_of_ne _ _ (List.ne_of_not_mem_cons hu)
  · rw [List.mem_singleton.mp hu]
    exact contains_eq_false hfree
  · unfold openedRoom
    rw [Dict.get?_set_self]
    simp
  · -- here the frame needs that the id is new, which is not checked
    obtain ⟨rfl, h⟩ := ht
    exact h

/-- `create_matched_room` does. -/
theorem createMatchedRoom_undisturbed (hinv : RoomInv s) (userA userB : UserId)
    (roomId? : Option RoomId) :
    wp (createMatchedRoom env userA userB roomId?)
      (fun r t => Undisturbed env r [userA, userB] s t) (fun _ _ => True) s := by
  unfold createMatchedRoom
  rw [wp_bind, wp_get]
  split
  · trivial
  next hA =>
  split
  · trivial
  next hB =>
  dsimp only
  generalize roomId?.getD (env.tokenHex userA) = roomId
  split
  · trivial
  next hnew =>
  rw [wp_bind, wp_modify]
  refine wp_mono (opening_returns [userA, userB] hinv (fun u hu => ?_) (fun u hu => ?_)
    ⟨userB, by simp, ?_⟩) (fun r t ht => ?_) fun _ _ h => h
  · -- the others keep their rooms
    obtain ⟨hneA, hu⟩ := List.ne_and_not_mem_of_not_mem_cons hu
    rw [Dict.get?_set_of_ne _ _ (List.ne_of_not_mem_cons hu), Dict.get?_set_of_ne _ _ hneA]
  · -- neither player was mapped
    obtain rfl | hu := List.mem_cons.mp hu
    · exact contains_eq_false hA
    · rw [List.mem_singleton.mp hu]
      exact contains_eq_false hB
  · unfold matchedRoom
    rw [Dict.get?_set_self]
    simp
  · -- the third check is what the frame needs
    obtain ⟨rfl, h⟩ := ht
    exact h.mpr (contains_eq_false hnew)

/-- **Opening a room disturbs no other room**, in every state of every run, if the identifier
of the room is not in use. Only `create_matched_room` makes sure of that. -/
theorem opening_undisturbed (cfg : Config) (users : Dict UserId User)
    (games : Dict RoomId GameResult) (events : List (Env × Event)) (env : Env) :
    (∀ creator, wp (createRoom env creator)
        (fun r t => Undisturbed env r [creator] ((Server.initial users games).play cfg events) t ↔
          ((Server.initial users games).play cfg events).rooms.get? (env.tokenHex creator) = none)
        (fun _ _ => True) ((Server.initial users games).play cfg events)) ∧
      ∀ userA userB roomId, wp (createMatchedRoom env userA userB roomId)
        (fun r t => Undisturbed env r [userA, userB] ((Server.initial users games).play cfg events) t)
        (fun _ _ => True) ((Server.initial users games).play cfg events) := by
  have hinv := RoomInv.run cfg users games events
  exact ⟨fun creator => createRoom_undisturbed hinv creator,
    fun userA userB roomId => createMatchedRoom_undisturbed hinv userA userB roomId⟩

/-- Bob draws the identifier of the room that Alice has opened. -/
theorem not_undisturbed_sameId :
    ∃ t, createRoom (Small.env ["wR . bK"]) Small.bob
        (Small.start.play Small.config [(Small.env ["wR . bK"], .createRoom Small.alice)]) =
          .ok Small.room t ∧
      ¬ Undisturbed (Small.env ["wR . bK"]) Small.room [Small.bob]
        (Small.start.play Small.config [(Small.env ["wR . bK"], .createRoom Small.alice)]) t := by
  refine ⟨_, rfl, fun h => ?_⟩
  have hroom := h.rooms Small.room _ rfl
  have hmember := congrArg (Option.map fun room => room.members.contains Small.alice) hroom
  exact absurd hmember (by decide)

end Opening

end KungFuChess
