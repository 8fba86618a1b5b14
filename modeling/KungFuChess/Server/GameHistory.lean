import KungFuChess.Server.Pairing
import KungFuChess.Server.RoomInv

/-!
# The history of rated games

`_apply_elo` writes two ratings and then records the game, so the history should explain the
ratings: every write belongs to a row of its own, each row begins where the last games of its two
players ended, and a user's rating is what the last row about the user says (`Explained`). The
process may be restarted in between; the tables survive, the rooms do not (`Lifetime`).

The key of the history is the room, and a second row for a room is ignored. `OpensRecorded` names
the steps that open a room under an identifier which the history has a row for. In a run without
them no room that is still to be rated has a row (`HistoryInv.fresh`), so that every row is
inserted, and the history explains the ratings in every state (`history_explains`).
-/

namespace KungFuChess

open Effect RoomService GameService MatchmakingService

/-! ### What the history says -/

namespace GameResult

/-- The two `set_elo` calls behind a row. -/
def writes (row : GameResult) : List SetEloCall :=
  [⟨row.roomId, row.whiteId, row.whiteEloAfter, false⟩,
    ⟨row.roomId, row.blackId, row.blackEloAfter, false⟩]

/-- The user's rating after the game. -/
def eloOf (row : GameResult) (userId : UserId) : Int :=
  if row.whiteId = userId then row.whiteEloAfter else row.blackEloAfter

end GameResult

/-- The rating of a user after the recorded games: the one after the user's last game, or the
start rating. -/
def eloAfter (rows : List GameResult) (userId : UserId) : Int :=
  ((rows.filter fun row => row.whiteId = userId ∨ row.blackId = userId).getLast?.map
    fun row => row.eloOf userId).getD 1200

/-- The history explains the ratings, and the writes of ratings so far. -/
structure Explained (writes : List SetEloCall) (s : Server) : Prop where
  /-- Every write belongs to a row, and every row is a game of its own. -/
  complete : writes = s.games.values.flatMap GameResult.writes
  /-- A row begins where the last games of its players have ended. -/
  before : ∀ pre row post, s.games.values = pre ++ row :: post →
    row.whiteEloBefore = eloAfter pre row.whiteId ∧ row.blackEloBefore = eloAfter pre row.blackId
  elo : ∀ u user, s.users.get? u = some user → user.elo = eloAfter s.games.values u

/-- The calls that have gone through. -/
def acceptedWrites (calls : List SetEloCall) : List SetEloCall :=
  calls.filter fun call => call.raised = false

section Rows

variable {rows : List GameResult} {row : GameResult} {u : UserId}

/-- A row about others changes nothing for a user. -/
theorem eloAfter_append_of_not (h : ¬ (row.whiteId = u ∨ row.blackId = u)) :
    eloAfter (rows ++ [row]) u = eloAfter rows u := by
  unfold eloAfter
  rw [List.filter_append, List.filter_singleton, decide_eq_false h]
  simp

/-- The last row about a user has the say. -/
theorem eloAfter_append (h : row.whiteId = u ∨ row.blackId = u) :
    eloAfter (rows ++ [row]) u = row.eloOf u := by
  unfold eloAfter
  rw [List.filter_append, List.filter_singleton, decide_eq_true h, cond_true,
    List.getLast?_concat]
  rfl

/-- Nobody has been rated whom no row is about. -/
theorem eloAfter_of_forall_ne (h : ∀ row ∈ rows, row.whiteId ≠ u ∧ row.blackId ≠ u) :
    eloAfter rows u = 1200 := by
  unfold eloAfter
  rw [List.filter_eq_nil_iff.mpr]
  · rfl
  · intro row hrow
    simp [h row hrow]

end Rows

/-! ### One more row -/

section Row

variable {s t : Server} {roomId : RoomId} {whiteId blackId u : UserId} {white black : User}

/-- What a rated game makes of the users. -/
theorem Rated.users_afterRatings (h : Rated s roomId whiteId blackId white black)
    (new : Int × Int) (u : UserId) : (s.afterRatings roomId whiteId blackId new).users.get? u =
      if u = blackId then some { black with elo := new.2 }
      else if u = whiteId then some { white with elo := new.1 }
      else s.users.get? u := by
  have hne : whiteId ≠ blackId := seats_ne h.players
  change ((s.users.modify whiteId _).modify blackId _).get? u = _
  rw [Dict.get?_modify, Dict.get?_modify, Dict.get?_modify, if_neg hne.symm, h.black, h.white]
  rfl

/-- The ratings drop no account. -/
theorem Rated.contains_afterRatings (h : Rated s roomId whiteId blackId white black)
    (new : Int × Int) (hu : s.users.contains u = true) :
    (s.afterRatings roomId whiteId blackId new).users.contains u = true := by
  rw [Dict.contains, h.users_afterRatings]
  split
  · rfl
  · split
    · rfl
    · exact hu

/-- **One more row explains the two ratings of its game.** -/
theorem Explained.append {writes : List SetEloCall} {row : GameResult} (h : Explained writes s)
    (hrated : Rated s row.roomId row.whiteId row.blackId white black)
    (hbefore : row.whiteEloBefore = white.elo ∧ row.blackEloBefore = black.elo)
    (hvalues : t.games.values = s.games.values ++ [row])
    (husers : t.users = (s.afterRatings row.roomId row.whiteId row.blackId
      (row.whiteEloAfter, row.blackEloAfter)).users) : Explained (writes ++ row.writes) t := by
  have hne : row.whiteId ≠ row.blackId := seats_ne hrated.players
  refine ⟨?_, fun pre row' post hsplit => ?_, fun u user huser => ?_⟩
  · -- the writes are the old ones and those of the new row
    rw [hvalues, List.flatMap_append, ← h.complete, List.flatMap_singleton]
  · -- a row before the new one is explained already
    rw [hvalues] at hsplit
    obtain ⟨post', hsplit'⟩ | ⟨hpre, hlast⟩ := split_append_singleton hsplit
    · exact h.before pre row' post' hsplit'
    · -- the ratings of the players were the ones after the rows so far
      rw [← hpre, ← hlast, hbefore.1, hbefore.2]
      exact ⟨h.elo _ _ hrated.white, h.elo _ _ hrated.black⟩
  · -- the rating of a user is read off the row that names them, Black's write being the last
    rw [husers, hrated.users_afterRatings] at huser
    rw [hvalues]
    split at huser
    · next hu =>
      rw [eloAfter_append (Or.inr hu.symm), ← Option.some.inj huser, hu]
      exact (if_neg hne).symm
    next hblack =>
    split at huser
    · next hu =>
      rw [eloAfter_append (Or.inl hu.symm), ← Option.some.inj huser, hu]
      exact (if_pos rfl).symm
    · -- the row is about somebody else
      next hwhite =>
      rw [eloAfter_append_of_not fun hu => hu.elim (fun h => hwhite h.symm) fun h => hblack h.symm]
      exact h.elo u user huser

end Row

/-! ### The invariant of a process -/

/-- The history explains the ratings, and goes on doing so: `past` are the calls of the processes
before. -/
structure HistoryInv (past : List SetEloCall) (s : Server) : Prop where
  explained : Explained (acceptedWrites (past ++ s.setEloCalls)) s
  /-- A room that is still to be rated has no row. -/
  fresh : ∀ roomId room, s.rooms.get? roomId = some room → room.eloUpdated = false →
    s.games.get? roomId = none
  /-- The rows are about users. -/
  known : ∀ row ∈ s.games.values, s.users.contains row.whiteId = true ∧
    s.users.contains row.blackId = true

namespace HistoryInv

variable {past : List SetEloCall} {s t : Server} {roomId : RoomId}

/-- The invariant reads the tables, the calls and the rooms that are still to be rated. -/
theorem of_eq (h : HistoryInv past s) (hgames : t.games = s.games) (husers : t.users = s.users)
    (hcalls : t.setEloCalls = s.setEloCalls)
    (hrooms : ∀ r room, t.rooms.get? r = some room → room.eloUpdated = false →
      t.games.get? r = none) : HistoryInv past t := by
  obtain ⟨⟨hcomplete, hbefore, helo⟩, -, hknown⟩ := h
  refine ⟨⟨?_, ?_, ?_⟩, hrooms, ?_⟩
  · rw [hcalls, hgames]
    exact hcomplete
  · rw [hgames]
    exact hbefore
  · rw [husers, hgames]
    exact helo
  · rw [husers, hgames]
    exact hknown

/-- A write to other fields. -/
theorem aside (h : HistoryInv past s) (hgames : t.games = s.games) (husers : t.users = s.users)
    (hcalls : t.setEloCalls = s.setEloCalls) (hrooms : t.rooms = s.rooms) : HistoryInv past t :=
  h.of_eq hgames husers hcalls (by rw [hrooms, hgames]; exact h.fresh)

/-- A room is changed, but for its mark. -/
theorem modifyRoom (h : HistoryInv past s) {f : Room → Room}
    (hf : ∀ room, (f room).eloUpdated = room.eloUpdated) :
    HistoryInv past (s.modifyRoom roomId f) := by
  refine h.of_eq rfl rfl rfl fun r room hroom hpending => ?_
  rw [Server.get?_modifyRoom] at hroom
  split at hroom
  · next hr =>
    obtain ⟨before, hbefore, rfl⟩ := Option.map_eq_some_iff.mp hroom
    rw [hf] at hpending
    exact hr ▸ h.fresh roomId before hbefore hpending
  · exact h.fresh r room hroom hpending

/-- A user comes into a room, or goes out of it. -/
theorem moved (h : HistoryInv past s) (f : Dict UserId RoomMember → Dict UserId RoomMember)
    (userRoom : Dict UserId RoomId) :
    HistoryInv past { s.modifyRoom roomId fun room => { room with members := f room.members }
      with userRoom := userRoom } :=
  (h.modifyRoom fun _ => by rfl).aside rfl rfl rfl rfl

/-- A room is opened that has no row. -/
theorem opened (h : HistoryInv past s) (new : Room) (userRoom : Dict UserId RoomId)
    (hnew : s.games.get? roomId = none) :
    HistoryInv past { s with rooms := s.rooms.set roomId new, userRoom := userRoom } := by
  refine h.of_eq rfl rfl rfl fun r room hroom hpending => ?_
  change (s.rooms.set roomId new).get? r = some room at hroom
  rw [Dict.get?_set] at hroom
  split at hroom
  · next hr => exact hr ▸ hnew
  · exact h.fresh r room hroom hpending

/-- A user is registered with the start rating. -/
theorem register (h : HistoryInv past s) (user : User)
    (hnew : s.users.get? user.userId = none) (hstart : user.elo = 1200) :
    HistoryInv past { s with users := s.users.set user.userId user } := by
  have hkept : ∀ u, s.users.contains u = true →
      (s.users.set user.userId user).contains u = true := by
    intro u hu
    obtain ⟨before, hbefore⟩ := Dict.contains_iff.mp hu
    have hne : u ≠ user.userId := by
      rintro rfl
      exact absurd (hbefore.symm.trans hnew) (by simp)
    exact Dict.contains_iff.mpr ⟨before, (Dict.get?_set_of_ne _ _ hne).trans hbefore⟩
  refine ⟨⟨h.explained.complete, h.explained.before, fun u user' huser => ?_⟩, h.fresh,
    fun row hrow => ⟨hkept _ (h.known row hrow).1, hkept _ (h.known row hrow).2⟩⟩
  change (s.users.set user.userId user).get? u = some user' at huser
  rw [Dict.get?_set] at huser
  split at huser
  · next hu =>
    -- no row is about the new user
    obtain rfl := Option.some.inj huser
    refine hstart.trans (eloAfter_of_forall_ne fun row hrow => ?_).symm
    have hne : ∀ {v}, s.users.contains v = true → v ≠ u := by
      rintro v hv rfl
      obtain ⟨before, hbefore⟩ := Dict.contains_iff.mp hv
      rw [hu] at hbefore
      exact absurd (hbefore.symm.trans hnew) (by simp)
    exact ⟨hne (h.known row hrow).1, hne (h.known row hrow).2⟩
  · exact h.explained.elo u user' huser

/-- **A game is rated and recorded.** -/
theorem rated (h : HistoryInv past s) (row : GameResult) {white black : User}
    (hrated : Rated s row.roomId row.whiteId row.blackId white black)
    (hpending : isEloUpdated s row.roomId = false)
    (hbefore : row.whiteEloBefore = white.elo ∧ row.blackEloBefore = black.elo) :
    HistoryInv past
      { s.afterRatings row.roomId row.whiteId row.blackId (row.whiteEloAfter, row.blackEloAfter) with
        games := s.games.set row.roomId row } := by
  obtain ⟨room, hroom⟩ := Option.isSome_iff_exists.mp hrated.room
  -- the room is still to be rated, so the row is a new one
  have hnew : s.games.get? row.roomId = none := by
    refine h.fresh row.roomId room hroom ?_
    unfold isEloUpdated at hpending
    rw [hroom] at hpending
    exact hpending
  have hvalues : (s.games.set row.roomId row).values = s.games.values ++ [row] :=
    Dict.values_set_of_get?_eq_none row hnew
  refine ⟨?_, fun r room' hroom' hpending' => ?_, fun row' hrow' => ?_⟩
  · have hcalls : acceptedWrites (past ++ (s.setEloCalls ++
          [⟨row.roomId, row.whiteId, row.whiteEloAfter, false⟩] ++
          [⟨row.roomId, row.blackId, row.blackEloAfter, false⟩])) =
        acceptedWrites (past ++ s.setEloCalls) ++ row.writes := by
      unfold acceptedWrites
      simp [GameResult.writes]
    exact hcalls ▸ h.explained.append hrated hbefore hvalues rfl
  · -- the room that is rated is marked
    change (s.rooms.modify row.roomId _).get? r = some room' at hroom'
    rw [Dict.get?_modify] at hroom'
    change (s.games.set row.roomId row).get? r = none
    split at hroom'
    · obtain ⟨room₀, -, rfl⟩ := Option.map_eq_some_iff.mp hroom'
      exact absurd hpending' (by simp)
    · next hr => exact (Dict.get?_set_of_ne _ _ hr).trans (h.fresh r room' hroom' hpending')
  · change row' ∈ (s.games.set row.roomId row).values at hrow'
    rw [hvalues] at hrow'
    obtain hrow' | hrow' := List.mem_append.mp hrow'
    · exact ⟨hrated.contains_afterRatings _ (h.known row' hrow').1,
        hrated.contains_afterRatings _ (h.known row' hrow').2⟩
    · rw [List.mem_singleton.mp hrow']
      exact ⟨hrated.contains_afterRatings _ (Dict.contains_iff.mpr ⟨white, hrated.white⟩),
        hrated.contains_afterRatings _ (Dict.contains_iff.mpr ⟨black, hrated.black⟩)⟩

end HistoryInv

/-! ### Programs that keep it -/

section Keep

/-- The invariant, and the history is `games`. -/
structure HistoryAt (past : List SetEloCall) (games : Dict RoomId GameResult) (s : Server) : Prop
    where
  inv : HistoryInv past s
  games : s.games = games

variable {past : List SetEloCall} {games : Dict RoomId GameResult} {cfg : Config} {env : Env}

theorem perform_history (call : ExternalCall) : Keeps (HistoryAt past games) (perform env call) :=
  Keeps.ite (Keeps.throw _) (Keeps.pure _)

/-- A write that leaves the tables and the rooms alone. -/
theorem aside_history {f : Server → Server}
    (hf : ∀ s, (f s).games = s.games ∧ (f s).users = s.users ∧ (f s).setEloCalls = s.setEloCalls ∧
      (f s).rooms = s.rooms) : Keeps (HistoryAt past games) (modify f : ServerM PUnit) :=
  keeps_modify fun s hs =>
    ⟨hs.inv.aside (hf s).1 (hf s).2.1 (hf s).2.2.1 (hf s).2.2.2, (hf s).1.trans hs.games⟩

theorem getById_history (lookup : Lookup) (userId : UserId) :
    Keeps (HistoryAt past games) (UserStore.getById env lookup userId) :=
  (perform_history _).bind fun _ => Keeps.get.bind fun _ => Keeps.pure _

theorem modifyMember_history (roomId : RoomId) (userId : UserId) (f : RoomMember → RoomMember) :
    Keeps (HistoryAt past games)
      (modify (fun s => s.modifyMember roomId userId f) : ServerM PUnit) :=
  keeps_modify fun _ hs => ⟨hs.inv.modifyRoom fun _ => rfl, hs.games⟩

theorem startGame_history (roomId : RoomId) : Keeps (HistoryAt past games) (startGame roomId) :=
  keeps_modify fun _ hs => ⟨hs.inv.modifyRoom fun _ => rfl, hs.games⟩

/-- The hook makes an engine, at most. -/
theorem onRoomCreated_history (roomId : RoomId) :
    Keeps (HistoryAt past games) (onRoomCreated env roomId) := by
  unfold onRoomCreated createEngineForRoom InputTxtBoardLoader.load
  refine Keeps.get.bind fun s => Keeps.ite (Keeps.pure _) ?_
  refine Keeps.bind ((perform_history _).bind fun _ => ?_) fun board =>
    aside_history fun _ => ⟨rfl, rfl, rfl, rfl⟩
  split
  · exact Keeps.pure _
  · exact Keeps.throw _

/-- A room is opened by a user who is in none. -/
theorem createRoom_history (env : Env) {s : Server} (h : HistoryAt past games s)
    (creator : UserId)
    (hnew : s.userRoom.contains creator = false → s.games.contains (env.tokenHex creator) = false) :
    wp (RoomService.createRoom env creator) (fun _ => HistoryAt past games)
      (fun _ => HistoryAt past games) s := by
  unfold RoomService.createRoom
  rw [wp_bind, wp_get]
  split
  · exact h
  next hfree =>
  rw [wp_bind, wp_modify]
  -- the id is new to the table, so the room agrees with it
  have hopened := h.inv.opened (openedRoom (env.tokenHex creator) creator)
    (s.userRoom.set creator (env.tokenHex creator))
    (Option.not_isSome_iff_eq_none.mp (Bool.eq_false_iff.mp (hnew (Bool.eq_false_iff.mpr hfree))))
  exact wp_bind_of_keeps (onRoomCreated_history _ _ ⟨hopened, h.games⟩) fun _ =>
    (startGame_history _).bind fun _ => Keeps.pure _

/-- A room is opened for two users who are in none, unless the identifier is a room's. -/
theorem createMatchedRoom_history (env : Env) (roomId? : Option RoomId) {s : Server}
    (h : HistoryAt past games s) {userA userB : UserId}
    (hnew : s.userRoom.contains userA = false → s.userRoom.contains userB = false →
      s.rooms.contains (roomId?.getD (env.tokenHex userA)) = false →
      s.games.contains (roomId?.getD (env.tokenHex userA)) = false) :
    wp (RoomService.createMatchedRoom env userA userB roomId?) (fun _ => HistoryAt past games)
      (fun _ => HistoryAt past games) s := by
  unfold RoomService.createMatchedRoom
  rw [wp_bind, wp_get]
  split
  · exact h
  next hfreeA =>
  split
  · exact h
  next hfreeB =>
  dsimp only
  split
  · exact h
  next hfree =>
  -- the checks have passed: the identifier is new and, by the hypothesis, has no row
  rw [wp_bind, wp_modify]
  have hnone := hnew (Bool.eq_false_iff.mpr hfreeA) (Bool.eq_false_iff.mpr hfreeB)
    (Bool.eq_false_iff.mpr hfree)
  have hopened := h.inv.opened (matchedRoom (roomId?.getD (env.tokenHex userA)) userA userB)
    ((s.userRoom.set userA (roomId?.getD (env.tokenHex userA))).set userB
      (roomId?.getD (env.tokenHex userA)))
    (Option.not_isSome_iff_eq_none.mp (Bool.eq_false_iff.mp hnone))
  exact wp_bind_of_keeps (onRoomCreated_history _ _ ⟨hopened, h.games⟩) fun _ =>
    (startGame_history _).bind fun _ => Keeps.pure _

/-- A user joins a room that stands already. -/
theorem joinRoom_history (roomId : RoomId) (userId : UserId) :
    Keeps (HistoryAt past games) (RoomService.joinRoom env roomId userId) := by
  unfold RoomService.joinRoom startForPlayer
  refine Keeps.get.bind fun s => ?_
  split
  · exact Keeps.throw _
  refine Keeps.ite (Keeps.throw _) (Keeps.bind (keeps_modify fun t ht => ?_) fun _ => ?_)
  · exact ⟨ht.inv.moved (fun members => members.set userId _) _, ht.games⟩
  · refine Keeps.bind (Keeps.ite ?_ (Keeps.pure _)) fun _ => Keeps.pure _
    exact (startGame_history _).bind fun _ => onRoomCreated_history _

/-- An error becomes a reply. -/
theorem onValueError_history (exn : Exn) :
    Keeps (HistoryAt past games) (LobbyService.onValueError exn) := by
  unfold LobbyService.onValueError
  split
  · exact Keeps.pure _
  · exact Keeps.throw _

/-- The keys of a match. -/
theorem bindPlayers_history (roomId : RoomId) (userIds : List UserId) :
    Keeps (HistoryAt past games) (bindPlayers cfg roomId userIds) := by
  unfold bindPlayers
  split
  · exact Keeps.pure _
  · exact aside_history fun _ => ⟨rfl, rfl, rfl, rfl⟩

/-- The key of one player. -/
theorem bindPlayer_history (userId : UserId) (roomId : RoomId) :
    Keeps (HistoryAt past games) (bindPlayer cfg userId roomId) := by
  unfold bindPlayer
  split
  · exact Keeps.pure _
  · exact aside_history fun _ => ⟨rfl, rfl, rfl, rfl⟩

theorem publishOutbound_history (call : ExternalCall) (recipients : List UserId)
    (message : Message) :
    Keeps (HistoryAt past games) (publishOutbound env call recipients message) :=
  (perform_history _).bind fun _ => aside_history fun _ => ⟨rfl, rfl, rfl, rfl⟩

/-- A room is told something. -/
theorem broadcastRoom_history (call : ExternalCall) (roomId : RoomId) (message : Message) :
    Keeps (HistoryAt past games) (broadcastRoom env call roomId message) := by
  unfold broadcastRoom
  refine Keeps.get.bind fun s => ?_
  split
  · exact Keeps.pure _
  · exact (perform_history _).bind fun _ => aside_history fun _ => ⟨rfl, rfl, rfl, rfl⟩

/-- The countdown of a room. -/
theorem broadcastCountdown_history (roomId : RoomId) (userId : UserId) (secondsLeft : Int) :
    Keeps (HistoryAt past games)
      (ServerRuntime.broadcastCountdown env roomId userId secondsLeft) := by
  unfold ServerRuntime.broadcastCountdown
  refine Keeps.get.bind fun s => ?_
  split
  · exact Keeps.pure _
  · exact (perform_history _).bind fun _ => aside_history fun _ => ⟨rfl, rfl, rfl, rfl⟩

/-- A search is cancelled. -/
theorem cancel_history (userId : UserId) :
    Keeps (HistoryAt past games) (LobbyService.cancel cfg userId) := by
  unfold LobbyService.cancel MatchmakingService.cancel
  split
  · refine Keeps.get.bind fun s => Keeps.bind (aside_history fun _ => ?_) fun _ => Keeps.pure _
    exact ⟨rfl, rfl, rfl, rfl⟩
  · exact Keeps.pure _

/-- A user is queued, with the rating that is looked up. -/
theorem play_history (userId : UserId) :
    Keeps (HistoryAt past games) (LobbyService.play cfg env userId) := by
  unfold LobbyService.play LobbyService.enqueue MatchmakingService.enqueue
  refine Keeps.get.bind fun s => Keeps.ite (Keeps.pure _) (Keeps.bind ?_ fun _ => Keeps.pure _)
  split
  · refine Keeps.get.bind fun t => Keeps.ite (Keeps.pure _) (Keeps.bind ?_ fun _ => ?_)
    · exact (getById_history _ _).bind fun _ => Keeps.pure _
    · refine Keeps.bind (aside_history fun _ => ?_) fun _ => Keeps.pure _
      exact ⟨rfl, rfl, rfl, rfl⟩
  · exact Keeps.pure _

/-- A move changes an engine. -/
theorem submitMove_history (userId : UserId) (startPos endPos : Position) :
    Keeps (HistoryAt past games) (submitMove userId startPos endPos) := by
  unfold submitMove handleMove
  refine Keeps.get.bind fun s => ?_
  split
  · exact Keeps.pure _
  split
  · exact Keeps.pure _
  refine Keeps.bind (Keeps.get.bind fun t => ?_) fun moved => ?_
  · split
    · exact Keeps.pure _
    · refine Keeps.bind (aside_history fun _ => ?_) fun _ => Keeps.pure _
      exact ⟨rfl, rfl, rfl, rfl⟩
  · obtain ⟨ok, reason⟩ := moved
    exact Keeps.ite (Keeps.get.bind fun t => Keeps.pure _) (Keeps.pure _)

/-- A player comes back. -/
theorem reconnect_history (userId : UserId) :
    Keeps (HistoryAt past games) (RoomService.reconnect userId) := by
  unfold RoomService.reconnect
  refine Keeps.get.bind fun s => ?_
  split
  · exact Keeps.pure _
  split
  · exact Keeps.pure _
  · exact (modifyMember_history _ _ _).bind fun _ => Keeps.pure _

/-- A connection is lost. -/
theorem onClientDisconnected_history (userId : UserId) :
    Keeps (HistoryAt past games) (ServerRuntime.onClientDisconnected cfg env userId) := by
  unfold ServerRuntime.onClientDisconnected markDisconnected
  refine (cancel_history _).bind fun _ => Keeps.bind (Keeps.get.bind fun s => ?_) fun roomId? => ?_
  · split
    · exact Keeps.pure _
    split
    · exact Keeps.throw _
    -- a viewer leaves the room, a player stays with a deadline
    refine Keeps.ite (Keeps.bind (keeps_modify fun t ht => ?_) fun _ => Keeps.pure _) ?_
    · exact ⟨ht.inv.moved (fun members => members.pop userId) _, ht.games⟩
    · exact (modifyMember_history _ _ _).bind fun _ => Keeps.pure _
  · split
    · exact Keeps.pure _
    · exact broadcastCountdown_history _ _ _

/-- A notice to a user. -/
theorem notifyUser_history (userId : UserId) (message : Message) :
    Keeps (HistoryAt past games) (notifyUser env userId message) := by
  unfold notifyUser
  refine (perform_history _).bind fun _ =>
    Keeps.bind (aside_history fun _ => ⟨rfl, rfl, rfl, rfl⟩) fun _ => ?_
  split
  · refine Keeps.get.bind fun s => ?_
    split
    · exact Keeps.pure _
    · exact aside_history fun _ => ⟨rfl, rfl, rfl, rfl⟩
  · exact Keeps.pure _

/-- A program that leaves the history alone keeps the invariant. -/
theorem keeps_of_historyAt {α : Type} {x : ServerM α} (h : ∀ games, Keeps (HistoryAt past games) x) :
    Keeps (HistoryInv past) x := fun s hs =>
  wp_mono (h s.games s ⟨hs, rfl⟩) (fun _ _ ht => ht.inv) fun _ _ ht => ht.inv

/-- The pairs of a matchmaking tick. -/
theorem matchmakingTick_history {s : Server} (h : HistoryInv past s)
    (hnew : ∀ done pair rest, matchPairs (waiting env s.queue) [] = done ++ pair :: rest →
      ¬ PairTaken env s done pair → s.games.contains (pairRoom env pair) = false) :
    wp (ServerRuntime.matchmakingTick cfg env) (fun _ => HistoryInv past)
      (fun _ => HistoryInv past) s := by
  unfold ServerRuntime.matchmakingTick
  split
  swap
  · exact h
  unfold tick tryMatch
  refine wp_call expireTimeouts_spec ?_ ?_
  · rintro _ t ⟨ht, -⟩
    rw [ht]
    exact h.aside rfl rfl rfl rfl
  rintro _ t ⟨ht, -⟩
  -- the notices of the expired change no table
  have hinv : HistoryAt past s.games t := by
    rw [ht]
    exact ⟨h.aside rfl rfl rfl rfl, rfl⟩
  have hqueue : t.queue = waiting env s.queue := by rw [ht]
  have htaken : ∀ {done pair}, PairTaken env t done pair ↔ PairTaken env s done pair := by
    intro done pair
    rw [ht]
    rfl
  rw [wp_bind, wp_get, hqueue, matchLoop_eq, bind_assoc, wp_bind]
  -- the rooms of the pairs seated so far are the only ones that are new
  refine wp_mono (wp_forM_done
    (I := fun done u => Paired env done t u ∧ HistoryAt past s.games u)
    (E := fun _ _ _ u => HistoryInv past u)
    (fun done pair rest u hsplit ⟨hpaired, hu⟩ => ?_) ⟨Paired.nil t, hinv⟩) ?_ ?_
  · -- one pair: the room is opened under an id that no game has
    have hpair : wp (seatPair env pair.1 pair.2) (fun _ => HistoryAt past s.games)
        (fun _ => HistoryAt past s.games) u := by
      unfold seatPair
      refine wp_bind_of_keeps (createMatchedRoom_history env none hu fun hA hB hroom => ?_)
        fun roomId => (notifyUser_history _ _).bind fun _ => notifyUser_history _ _
      -- neither player nor the id is taken, as the pairing has not been refused
      have hfree : ¬ Taken env u pair.1.userId pair.2.userId := by
        rintro (h' | h' | h')
        · exact absurd (hA.symm.trans h') (by simp)
        · exact absurd (hB.symm.trans h') (by simp)
        · exact absurd (hroom.symm.trans h') (by simp)
      rw [hu.games]
      exact hnew done pair rest hsplit fun h' => hfree (hpaired.taken_iff.mpr (htaken.mpr h'))
    refine wp_mono (wp_and (seatPair_spec pair.1 pair.2) hpair) ?_ fun _ _ hv => hv.2.inv
    rintro _ v ⟨⟨hopened, hfree, -⟩, hv⟩
    exact ⟨hpaired.snoc (fun h' => hfree (hpaired.taken_iff.mpr h')) hopened, hv⟩
  · rintro _ u ⟨-, hu⟩
    exact hu.inv.aside rfl rfl rfl rfl
  · rintro _ u ⟨-, -, -, -, hu⟩
    exact hu

end Keep

/-! ### Results -/

section Results

variable {past : List SetEloCall} {cfg : Config} {env : Env} {roomId : RoomId}

/-- The history is written right after the ratings. -/
theorem announceResult_history {s : Server} {result : GameResult} {white black : User}
    (ratings : List (String × Int)) (h : HistoryInv past s)
    (hstore : env.raises (.record result.roomId) = false)
    (hrated : Rated s result.roomId result.whiteId result.blackId white black)
    (hpending : isEloUpdated s result.roomId = false)
    (hbefore : result.whiteEloBefore = white.elo ∧ result.blackEloBefore = black.elo) :
    wp (announceResult cfg env result ratings) (fun _ => HistoryInv past) (fun _ => HistoryInv past)
      (s.afterRatings result.roomId result.whiteId result.blackId
        (result.whiteEloAfter, result.blackEloAfter)) := by
  have hnew : (s.afterRatings result.roomId result.whiteId result.blackId
      (result.whiteEloAfter, result.blackEloAfter)).games.contains result.roomId = false := by
    obtain ⟨room, hroom⟩ := Option.isSome_iff_exists.mp hrated.room
    unfold isEloUpdated at hpending
    rw [hroom] at hpending
    change (s.games.get? result.roomId).isSome = false
    rw [h.fresh result.roomId room hroom hpending]
    rfl
  unfold announceResult GameHistoryStore.record onGameFinished
  rw [wp_bind, wp_tryCatch]
  -- `INSERT OR IGNORE`: the row goes in because the room has none
  refine wp_call (perform_spec _) ?_ ?_
  · rintro _ t ⟨-, hraises⟩
    exact absurd (hstore.symm.trans hraises) (by simp)
  rintro _ t ⟨rfl, -⟩
  rw [wp_modify, if_neg (Bool.eq_false_iff.mp hnew)]
  -- the row is in; what follows leaves the history alone
  have hrecorded := h.rated { result with endedAt := some (result.endedAt.getD env.now) }
    hrated hpending hbefore
  refine wp_bind_of_keeps (keeps_of_historyAt (fun _ => broadcastRoom_history _ _ _) _ hrecorded)
    fun _ => Keeps.tryCatch (keeps_of_historyAt fun _ => ?_) fun _ => Keeps.pure _
  split
  · exact Keeps.pure _
  · refine (perform_history _).bind fun _ => aside_history fun _ => ?_
    exact ⟨rfl, rfl, rfl, rfl⟩

/-- **An attempt to apply a result.** -/
theorem applyElo_history (engine : GameEngine)
    (hstores : ∀ r u, env.raises (.setElo r u) = false ∧ env.raises (.record r) = false) :
    Keeps (HistoryInv past) (applyElo cfg env roomId engine) := by
  intro s h
  unfold applyElo
  rw [wp_bind, wp_get]
  split
  · exact h
  next hpending =>
  split
  · exact h
  next winner _ =>
  -- an exception before the first write leaves everything as it is
  refine wp_call (getRoomPlayersForElo_spec _ _) ?_ ?_
  · rintro _ t ⟨rfl, -⟩
    exact h
  rintro _ t ⟨rfl, rfl, -⟩
  cases hboth : (t.playersOf roomId).both with
  | none => exact h
  | some both =>
    obtain ⟨whiteId, blackId, whiteName, blackName⟩ := both
    obtain ⟨white, black, hrated⟩ := exists_rated hboth
    dsimp only
    refine wp_call (getById_spec _ _) ?_ ?_
    · rintro _ u ⟨rfl, -⟩
      exact h
    rintro _ u ⟨rfl, rfl, -⟩
    refine wp_call (getById_spec _ _) ?_ ?_
    · rintro _ v ⟨rfl, -⟩
      exact h
    rintro _ v ⟨rfl, rfl, -⟩
    rw [hrated.white, hrated.black]
    dsimp only
    -- the store accepts both writes, so the room is marked
    unfold writeRatings markEloUpdated
    rw [wp_bind]
    refine wp_call (setElo_spec _ _ _) ?_ ?_
    · rintro _ u ⟨-, hraises⟩
      exact absurd ((hstores _ _).1.symm.trans hraises) (by simp)
    rintro _ u ⟨rfl, -⟩
    refine wp_call (setElo_spec _ _ _) ?_ ?_
    · rintro _ u ⟨-, hraises⟩
      exact absurd ((hstores _ _).1.symm.trans hraises) (by simp)
    rintro _ u ⟨rfl, -⟩
    rw [wp_modify]
    exact announceResult_history _ h (hstores roomId whiteId).2 hrated
      (Bool.eq_false_iff.mpr hpending) ⟨rfl, rfl⟩

/-- **The tick of a room keeps the history**, as long as the stores accept. -/
theorem tickRoom_history
    (hstores : ∀ r u, env.raises (.setElo r u) = false ∧ env.raises (.record r) = false) :
    Keeps (HistoryInv past) (tickRoom cfg env roomId) := by
  unfold tickRoom broadcastFinished
  refine Keeps.get.bind fun s => ?_
  split
  · exact Keeps.pure _
  refine Keeps.bind (keeps_of_historyAt fun _ => aside_history fun _ => ⟨rfl, rfl, rfl, rfl⟩)
    fun _ => ?_
  refine Keeps.bind (Keeps.ite ?_ (Keeps.pure _)) fun _ => Keeps.get.bind fun t => ?_
  · exact keeps_of_historyAt fun _ => broadcastRoom_history _ _ _
  · exact Keeps.ite (applyElo_history _ hstores) (Keeps.pure _)

/-- A forfeit, likewise. -/
theorem forceForfeit_history {loser : UserId}
    (hstores : ∀ r u, env.raises (.setElo r u) = false ∧ env.raises (.record r) = false) :
    Keeps (HistoryInv past) (GameService.forceForfeit cfg env roomId loser) := by
  have hname : ∀ lookup userId games,
      Keeps (HistoryAt past games) (usernameOf env lookup userId) := by
    intro lookup userId games
    cases userId with
    | none => exact Keeps.pure _
    | some u => exact (getById_history _ _).bind fun _ => Keeps.pure _
  unfold GameService.forceForfeit getRoomPlayersForElo
  refine Keeps.get.bind fun s => ?_
  split
  · exact Keeps.pure _
  -- the names are looked up first and write nothing, then the result is applied
  refine Keeps.ite (Keeps.pure _) (Keeps.bind (Keeps.get.bind fun t => ?_) fun players => ?_)
  · exact keeps_of_historyAt fun games => (hname _ _ games).bind fun _ =>
      (hname _ _ games).bind fun _ => Keeps.pure _
  · split
    · exact Keeps.pure _
    · refine Keeps.bind (keeps_of_historyAt fun _ => aside_history fun _ => ?_) fun _ =>
        applyElo_history _ hstores
      exact ⟨rfl, rfl, rfl, rfl⟩

/-- The grace, likewise. -/
theorem processDisconnectGrace_history
    (hstores : ∀ r u, env.raises (.setElo r u) = false ∧ env.raises (.record r) = false) :
    Keeps (HistoryInv past) (ServerRuntime.processDisconnectGrace cfg env) := by
  refine processDisconnectGrace_keeps (fun entry => ?_) fun entry => ?_
  · unfold ServerRuntime.sendCountdown
    refine Keeps.get.bind fun s => Keeps.ite (Keeps.pure _) ?_
    refine keeps_of_historyAt fun _ => Keeps.bind (aside_history fun _ => ?_) fun _ =>
      broadcastCountdown_history _ _ _
    exact ⟨rfl, rfl, rfl, rfl⟩
  · unfold ServerRuntime.forfeitExpired clearDisconnectDeadline
    refine (forceForfeit_history hstores).bind fun _ => keeps_of_historyAt fun _ =>
      (modifyMember_history _ _ _).bind fun _ => aside_history fun _ => ?_
    exact ⟨rfl, rfl, rfl, rfl⟩

end Results

/-! ### Events -/

/-- The event opens a room under an identifier that the history has a row for. -/
def OpensRecorded (cfg : Config) (s : Server) (env : Env) : Event → Prop
  | .createRoom userId =>
    s.userRoom.contains userId = false ∧ s.games.contains (env.tokenHex userId) = true
  | .createMatch roomId whiteId blackId =>
    s.userRoom.contains whiteId = false ∧ s.userRoom.contains blackId = false ∧
      s.rooms.contains roomId = false ∧ s.games.contains roomId = true
  | .matchmakingTick =>
    cfg.deployment = .inProcess ∧ ∃ done pair rest,
      matchPairs (waiting env s.queue) [] = done ++ pair :: rest ∧ ¬ PairTaken env s done pair ∧
        s.games.contains (pairRoom env pair) = true
  | _ => False

/-- **An event keeps the invariant**, unless it opens a room that has a row. -/
theorem HistoryInv.event {past : List SetEloCall} {cfg : Config} {env : Env} {s : Server}
    (h : HistoryInv past s) (event : Event)
    (hstores : ∀ r u, env.raises (.setElo r u) = false ∧ env.raises (.record r) = false)
    (hopens : ¬ OpensRecorded cfg s env event) : HistoryInv past (s.step cfg (env, event)) := by
  -- all events but those that open a room keep the games as they are until a result is due
  have hat : HistoryAt past s.games s := ⟨h, rfl⟩
  refine wp_iff_after.mp ?_
  cases event with
  | register userId username =>
    change wp (UserStore.register userId username) _ _ s
    unfold UserStore.register
    rw [wp_modify]
    split
    · exact h
    · -- a user identifier that is in use is not registered again
      next hnew =>
      rw [Bool.or_eq_true, not_or] at hnew
      have hnone := Option.not_isSome_iff_eq_none.mp hnew.1
      exact h.register ⟨userId, username, 1200⟩ hnone rfl
  | play userId =>
    exact keeps_of_historyAt (fun _ => (play_history _).bind fun _ => Keeps.pure _) s h
  | cancelPlay userId =>
    exact keeps_of_historyAt (fun _ => Keeps.bind ((cancel_history _).bind fun _ => Keeps.pure _)
      fun _ => Keeps.pure _) s h
  | createRoom userId =>
    have hroom := createRoom_history env hat userId fun hfree =>
      Bool.eq_false_iff.mpr fun hrow => hopens ⟨hfree, hrow⟩
    refine wp_mono (wp_bind_of_keeps (wp_tryCatch_of_keeps (wp_bind_of_keeps hroom fun _ =>
      Keeps.pure _) onValueError_history) fun outcome => Keeps.ite (bindPlayers_history _ _)
        (Keeps.pure _)) (fun _ _ ht => ht.inv) fun _ _ ht => ht.inv
  | joinRoom userId roomId =>
    refine keeps_of_historyAt (fun _ => Keeps.bind (Keeps.tryCatch ?_ onValueError_history)
      fun outcome => Keeps.ite (bindPlayer_history _ _) (Keeps.pure _)) s h
    exact (joinRoom_history _ _).bind fun _ => Keeps.get.bind fun _ => Keeps.pure _
  | createMatch roomId whiteId blackId =>
    have hroom := createMatchedRoom_history env (some roomId) hat
      fun hwhite hblack hnew => Bool.eq_false_iff.mpr fun hrow =>
        hopens ⟨hwhite, hblack, hnew, hrow⟩
    refine wp_mono (wp_bind_of_keeps hroom fun _ => Keeps.bind (bindPlayers_history _ _) fun _ =>
      (publishOutbound_history _ _ _).bind fun _ => (publishOutbound_history _ _ _).bind fun _ =>
        Keeps.get.bind fun t => ?_) (fun _ _ ht => ht.inv) fun _ _ ht => ht.inv
    split
    · exact Keeps.pure _
    · exact publishOutbound_history _ _ _
  | submitMove userId startPos endPos =>
    exact keeps_of_historyAt (fun _ => (submitMove_history _ _ _).bind fun _ => Keeps.pure _) s h
  | reconnect userId =>
    exact keeps_of_historyAt (fun _ => (reconnect_history _).bind fun _ => Keeps.pure _) s h
  | clientDisconnected userId =>
    exact keeps_of_historyAt (fun _ => onClientDisconnected_history _) s h
  | matchmakingTick =>
    by_cases hin : cfg.deployment = .inProcess
    · refine matchmakingTick_history h fun done pair rest hsplit hfree => ?_
      exact Bool.eq_false_iff.mpr fun hrow => hopens ⟨hin, done, pair, rest, hsplit, hfree, hrow⟩
    · -- a shard does not match
      change wp (ServerRuntime.matchmakingTick cfg env) _ _ s
      unfold ServerRuntime.matchmakingTick
      split
      · next hin' => exact absurd hin' hin
      · exact h
  | tickAll =>
    exact Keeps.get.bind (fun t => Keeps.forM (fun _ => tickRoom_history hstores) _) s h
  | processDisconnectGrace => exact processDisconnectGrace_history hstores s h
  | forceForfeit roomId loser => exact forceForfeit_history hstores s h

/-! ### Restarts -/

/-- A server and its predecessors over the same tables. -/
structure Lifetime where
  server : Server
  /-- The `set_elo` calls of the processes before. -/
  past : List SetEloCall := []

/-- What happens to a server. -/
inductive Occurrence where
  | event (env : Env) (event : Event)
  /-- The process ends and another one starts. -/
  | restart

namespace Lifetime

/-- The first process, over empty tables. -/
def first : Lifetime := { server := .initial Dict.empty Dict.empty }

/-- What happens to a server over its restarts: the rooms are lost, the tables stay. -/
def step (cfg : Config) (l : Lifetime) : Occurrence → Lifetime
  | .event env event => { l with server := l.server.step cfg (env, event) }
  | .restart =>
    { server := .initial l.server.users l.server.games, past := l.past ++ l.server.setEloCalls }

/-- Both stores accept every statement that writes. -/
def StoresAccept : Occurrence → Prop
  | .event env _ => ∀ r u, env.raises (.setElo r u) = false ∧ env.raises (.record r) = false
  | .restart => True

/-- No room is opened under an identifier that the history has a row for. -/
def KeepsKeys (cfg : Config) (l : Lifetime) : Occurrence → Prop
  | .event env event => ¬ OpensRecorded cfg l.server env event
  | .restart => True

/-- The history explains the ratings, and what has been written to them. -/
def HistoryExplains (l : Lifetime) : Prop :=
  Explained (acceptedWrites (l.past ++ l.server.setEloCalls)) l.server

end Lifetime

/-- **The history explains the ratings**, in every state of every run in which no room is opened
under an identifier that the history has a row for. -/
theorem history_explains (cfg : Config) (occurrences : List Occurrence)
    (hstores : ∀ o ∈ occurrences, Lifetime.StoresAccept o)
    (hkeys : Run.Guarded (Lifetime.step cfg) (fun l o _ => l.KeepsKeys cfg o) Lifetime.first
      occurrences) :
    Run.Throughout (Lifetime.step cfg) (fun l _ => l.HistoryExplains) Lifetime.first
      occurrences := by
  have hfirst : HistoryInv Lifetime.first.past Lifetime.first.server :=
    ⟨⟨rfl, fun pre row post h => absurd h (by simp [Lifetime.first, Server.initial, Dict.values,
      Dict.empty]), fun _ _ h => absurd h (by simp [Lifetime.first, Server.initial])⟩,
      fun _ _ h => absurd h (by simp [Lifetime.first, Server.initial]),
      fun _ h => absurd h (by simp [Lifetime.first, Server.initial, Dict.values, Dict.empty])⟩
  -- one occurrence, then the run
  have hstep : ∀ (l : Lifetime) (o : Occurrence), HistoryInv l.past l.server →
      Lifetime.StoresAccept o → l.KeepsKeys cfg o →
      HistoryInv (l.step cfg o).past (l.step cfg o).server := by
    intro l o hl hstore hok
    cases o with
    | event env event => exact hl.event event hstore hok
    | restart =>
      -- the tables stay, the rooms are gone, and the calls become those of the past
      refine ⟨⟨?_, hl.explained.before, hl.explained.elo⟩, fun _ _ h => absurd h ?_, hl.known⟩
      · change acceptedWrites (l.past ++ l.server.setEloCalls ++ []) = _
        rw [List.append_nil]
        exact hl.explained.complete
      · simp [Lifetime.step, Server.initial]
  have hrun := hkeys.throughout
    (P := fun l os => HistoryInv l.past l.server ∧ ∀ o ∈ os, Lifetime.StoresAccept o)
    (fun l o os h hok => ⟨hstep l o h.1 (h.2 o List.mem_cons_self) hok,
      fun o' ho' => h.2 o' (List.mem_cons_of_mem _ ho')⟩) ⟨hfirst, hstores⟩
  exact hrun.imp fun l os hl => hl.1.explained

/-! ### Concrete runs -/

/-- Alice opens a room, Bob joins it and forfeits. -/
def ratedGame (roomId : RoomId) : List Occurrence :=
  [.createRoom Small.alice, .joinRoom Small.bob roomId, .forceForfeit roomId Small.bob].map
    (.event { Small.env ["wR bK"] with tokenHex := fun _ => roomId })

/-- Both users register, and play one game before a restart and one after it. -/
def twoGames (before after : RoomId) : List Occurrence :=
  [.event (Small.env []) (.register Small.alice "Alice"),
    .event (Small.env []) (.register Small.bob "Bob")] ++ ratedGame before ++
    .restart :: ratedGame after

theorem storesAccept_twoGames (before after : RoomId) :
    ∀ o ∈ twoGames before after, Lifetime.StoresAccept o := by
  simp [twoGames, ratedGame, Lifetime.StoresAccept, Small.env]

/-- Two games under two identifiers explain all four writes. -/
theorem history_explains_twoGames :
    Run.Throughout (Lifetime.step Small.config) (fun l _ => l.HistoryExplains) Lifetime.first
      (twoGames Small.room Small.otherRoom) :=
  history_explains Small.config _ (storesAccept_twoGames _ _)
    ⟨id, id, fun h => absurd h.2 (by decide +kernel), id, id, trivial,
      fun h => absurd h.2 (by decide +kernel), id, id, trivial⟩

/-- The second room gets the identifier of the first, and its game is not recorded. -/
theorem not_history_explains_sameId :
    (∀ o ∈ twoGames Small.room Small.room, Lifetime.StoresAccept o) ∧
      ¬ Run.Throughout (Lifetime.step Small.config) (fun l _ => l.HistoryExplains) Lifetime.first
        (twoGames Small.room Small.room) := by
  refine ⟨storesAccept_twoGames _ _, fun h => ?_⟩
  -- four writes, and one row to explain two of them
  exact absurd (congrArg List.length h.last.complete) (by decide +kernel)

end KungFuChess
