import KungFuChess.Server.RatedPlayers
import KungFuChess.Server.Members
import KungFuChess.Server.Results

/-!
# A player who stays away loses

When the socket of a player closes, `mark_disconnected` gives him a deadline, and the runtime loop
forfeits whoever has passed his. The loop goes over all rooms and may be cut short by an exception
anywhere, so a forfeit may have to wait for a later pass; but the deadline is cleared only when the
player comes back, or after the forfeit. So no game hangs on a player who is gone: once the grace is
over, a pass of the loop that returns has ended his game, whatever has happened in between and
however many passes have failed (`absent_loses`).

`Away` is what holds in between. The seats of a room with two players stay theirs, unless the room
is opened again.
-/

namespace KungFuChess

open Effect RoomService GameService

/-- The user is DISCONNECTED with the deadline. -/
def Gone (s : Server) (roomId : RoomId) (userId : UserId) (deadline : ℚ) : Prop :=
  ∃ m, s.memberOf roomId userId = some m ∧ m.status = .disconnected ∧
    m.disconnectDeadline = some deadline

/-- The two players have their seats and their game. -/
structure TwoPlayers (roomId : RoomId) (whiteId blackId : UserId) (s : Server) : Prop where
  inv : RoomInv s
  players : getRoomPlayers s roomId = (some whiteId, some blackId)
  engine : ∃ e, s.engines.get? roomId = some e

/-- The game of the two has ended, or the user is gone. -/
structure Away (roomId : RoomId) (userId whiteId blackId : UserId) (deadline : ℚ) (s : Server) :
    Prop extends TwoPlayers roomId whiteId blackId s where
  gone : gameEnded s roomId = true ∨ Gone s roomId userId deadline

/-! ### Seats and entries -/

section Actions

variable {s t : Server} {roomId r : RoomId} {userId whiteId blackId : UserId} {deadline : ℚ}
  {a : Action}

/-- A room is changed that keeps its seats. -/
theorem getRoomPlayers_modify {f : Room → Room} (hrooms : t.rooms = s.rooms.modify r f)
    (hseats : r = roomId → ∀ room, s.rooms.get? roomId = some room → ∀ role, role ≠ .viewer →
      seatOf (f room) role = seatOf room role) :
    getRoomPlayers t roomId = getRoomPlayers s roomId := by
  by_cases hr : r = roomId
  · unfold getRoomPlayers
    rw [hrooms, hr, Dict.get?_modify_self]
    cases hroom : s.rooms.get? roomId with
    | none => rfl
    | some room =>
      exact Prod.ext (hseats hr room hroom .white (by decide))
        (hseats hr room hroom .black (by decide))
  · refine getRoomPlayers_congr ?_
    rw [hrooms, Dict.get?_modify_of_ne _ _ (Ne.symm hr)]

/-- **Two players keep their seats**: whoever joins them watches. -/
theorem getRoomPlayers_apply (hinv : RoomInv s)
    (hplayers : getRoomPlayers s roomId = (some whiteId, some blackId)) (ha : a.Enabled s)
    (hopen : ∀ creator, a ≠ .openRoom roomId creator) :
    getRoomPlayers (a.apply s) roomId = getRoomPlayers s roomId := by
  -- both seats are filled, so only an opening of this very room could change them
  obtain ⟨room, hroom, hwhite, hblack⟩ := getRoomPlayers_eq_some hplayers
  cases a with
  | openRoom r creator =>
    refine getRoomPlayers_congr (Dict.get?_set_of_ne _ _ ?_)
    rintro rfl
    exact hopen creator rfl
  | openMatchedRoom r userA userB =>
    refine getRoomPlayers_congr (Dict.get?_set_of_ne _ _ ?_)
    rintro rfl
    exact absurd (hroom.symm.trans ha.2.2) (Option.some_ne_none room)
  | startGame r => exact EloFrame.getRoomPlayers_eq (Server.members_modifyRoom fun _ => by rfl)
  | markElo r => exact EloFrame.getRoomPlayers_eq (Server.members_modifyRoom fun _ => by rfl)
  | join r v role =>
    obtain ⟨hfree, room', hroom', rfl⟩ := ha
    refine getRoomPlayers_modify rfl ?_
    rintro rfl _ hsame role hrole
    obtain rfl := Option.some.inj (hsame.symm.trans hroom')
    obtain rfl := Option.some.inj (hsame.symm.trans hroom)
    -- the next role of a full room is that of a viewer
    rw [nextRole_of_seats hwhite hblack]
    exact seatOf_join_viewer (hinv.not_member hfree hroom) hrole
  | leave r v =>
    obtain ⟨-, room', hroom', hviewer⟩ := ha
    refine getRoomPlayers_modify rfl ?_
    rintro rfl _ hsame role hrole
    obtain rfl := Option.some.inj (hsame.symm.trans hroom')
    exact seatOf_leave hviewer hrole
  | connection r v f =>
    exact getRoomPlayers_modify rfl fun _ _ _ _ _ => seatOf_modify ha
  | aside state =>
    refine getRoomPlayers_congr ?_
    change state.rooms.get? roomId = _
    rw [show state = _ from ha]
  | _ => rfl

/-- The entry of a player is written by a change of his connection only. -/
theorem memberOf_apply (hinv : RoomInv s) (hplayer : IsPlayer s roomId userId) (ha : a.Enabled s)
    (hopen : ∀ creator, a ≠ .openRoom roomId creator)
    (hconnection : ∀ f, a ≠ .connection roomId userId f) :
    (a.apply s).memberOf roomId userId = s.memberOf roomId userId := by
  obtain ⟨room, member, hroom, hmember, hrole⟩ := isPlayer_iff.mp hplayer
  have hmapped := hinv.mapped hroom hmember
  cases a with
  | openRoom r creator =>
    rw [memberOf_set (s := s) r (openedRoom r creator) rfl, if_neg]
    rintro rfl
    exact hopen creator rfl
  | openMatchedRoom r userA userB =>
    rw [memberOf_set (s := s) r (matchedRoom r userA userB) rfl, if_neg]
    rintro rfl
    exact absurd (hroom.symm.trans ha.2.2) (Option.some_ne_none room)
  | startGame r => exact memberOf_of_members (Server.members_modifyRoom fun _ => by rfl)
  | markElo r => exact memberOf_of_members (Server.members_modifyRoom fun _ => by rfl)
  | join r v role =>
    -- whoever joins was in no room
    have hne : userId ≠ v := by
      rintro rfl
      exact absurd (hmapped.symm.trans ha.1) (Option.some_ne_none roomId)
    rw [memberOf_modifyRoom (s := s) r (fun room => { room with
      members := room.members.set v { userId := v, role := role } }) rfl]
    split
    · next hr =>
      unfold Server.memberOf
      rw [← hr, hroom, Option.bind_some, Option.bind_some, Dict.get?_set_of_ne _ _ hne]
    · rfl
  | leave r v =>
    -- whoever leaves watches
    have hleft : ((Action.leave r v).apply s).memberOf roomId userId =
        if roomId = r ∧ userId = v then none else s.memberOf roomId userId := memberOf_left
    rw [hleft, if_neg]
    rintro ⟨rfl, rfl⟩
    obtain ⟨-, room', hroom', hviewer⟩ := ha
    obtain rfl := Option.some.inj (hroom.symm.trans hroom')
    exact hrole (hviewer member hmember)
  | connection r v f =>
    have hchanged : ((Action.connection r v f).apply s).memberOf roomId userId = _ :=
      memberOf_modifyMember
    rw [hchanged, if_neg]
    rintro ⟨rfl, rfl⟩
    exact hconnection f rfl
  | aside state =>
    refine memberOf_of_rooms ?_
    change state.rooms = s.rooms
    rw [show state = _ from ha]
  | _ => rfl

/-- A game that has ended stays ended, and a room keeps its engine. -/
theorem engine_apply {e : GameEngine} (he : s.engines.get? roomId = some e) (ha : a.Enabled s) :
    ∃ e', (a.apply s).engines.get? roomId = some e' ∧ (e.gameOver = true → e'.gameOver = true) := by
  -- an engine is made only where there is none, and a call keeps an ended game ended
  cases a with
  | createEngine r board =>
    have hne : roomId ≠ r := by
      rintro rfl
      exact absurd (he.symm.trans ha.1) (Option.some_ne_none e)
    exact ⟨e, (Server.get?_setEngine _).trans ((if_neg hne).trans he), fun h => h⟩
  | engine r before call =>
    by_cases hr : roomId = r
    · subst hr
      obtain rfl := Option.some.inj (he.symm.trans ha)
      refine ⟨call.apply e, (Server.get?_setEngine _).trans (if_pos rfl), fun hover => ?_⟩
      rw [EngineCall.apply_of_gameOver hover]
      exact hover
    · exact ⟨e, (Server.get?_setEngine _).trans ((if_neg hr).trans he), fun h => h⟩
  | aside state =>
    refine ⟨e, ?_, fun h => h⟩
    change state.engines.get? roomId = _
    rw [show state = _ from ha]
    exact he
  | _ => exact ⟨e, he, fun h => h⟩

/-- A game that has ended stays ended. -/
theorem gameEnded_apply (hended : gameEnded s roomId = true) (ha : a.Enabled s) :
    gameEnded (a.apply s) roomId = true := by
  obtain ⟨e, he, hover⟩ := gameEnded_iff.mp hended
  obtain ⟨e', he', hkept⟩ := engine_apply he ha
  exact gameEnded_iff.mpr ⟨e', he', hkept hover⟩

/-- The two players stay, and so does their game. -/
theorem TwoPlayers.apply (h : TwoPlayers roomId whiteId blackId s) (ha : a.Enabled s)
    (hopen : ∀ creator, a ≠ .openRoom roomId creator) :
    TwoPlayers roomId whiteId blackId (a.apply s) := by
  obtain ⟨e, he⟩ := h.engine
  obtain ⟨e', he', -⟩ := engine_apply he ha
  exact ⟨h.inv.step ha, (getRoomPlayers_apply h.inv h.players ha hopen).trans h.players, e', he'⟩

/-- **One action**, unless it opens the room again or changes the connection of the user. -/
theorem Away.apply (h : Away roomId userId whiteId blackId deadline s)
    (huser : userId = whiteId ∨ userId = blackId) (ha : a.Enabled s)
    (hopen : ∀ creator, a ≠ .openRoom roomId creator)
    (hconnection : gameEnded s roomId = true ∨ ∀ f, a ≠ .connection roomId userId f) :
    Away roomId userId whiteId blackId deadline (a.apply s) := by
  refine ⟨h.toTwoPlayers.apply ha hopen, ?_⟩
  by_cases hended : gameEnded s roomId = true
  · exact Or.inl (gameEnded_apply hended ha)
  · have hmember := memberOf_apply h.inv (isPlayer_of_seat h.players huser) ha hopen
      (hconnection.resolve_left hended)
    obtain ⟨m, hm, hgone⟩ := h.gone.resolve_left hended
    exact Or.inr ⟨m, hmember.trans hm, hgone⟩

end Actions

/-! ### The pass of the loop -/

/-- The action neither opens the room nor changes the connection of the user. -/
def Action.Elsewhere (roomId : RoomId) (userId : UserId) (a : Action) : Prop :=
  (∀ creator, a ≠ .openRoom roomId creator) ∧ ∀ f, a ≠ .connection roomId userId f

section Programs

variable {cfg : Config} {env : Env} {s : Server} {roomId : RoomId}
  {userId whiteId blackId : UserId} {deadline : ℚ}

theorem keeps_away (huser : userId = whiteId ∨ userId = blackId) {α : Type} {x : ServerM α}
    (hx : Does (Action.Elsewhere roomId userId) x) :
    Keeps (Away roomId userId whiteId blackId deadline) x := by
  intro s hs
  have hacts : ∀ t, Acts (Action.Elsewhere roomId userId) s t →
      Away roomId userId whiteId blackId deadline t := fun t ht =>
    ht.invariant (fun a u ha hu h => h.apply huser hu ha.1 (Or.inr ha.2)) hs
  exact wp_mono (hx.wp s) (fun _ t ht => hacts t ht) fun _ t ht => hacts t ht

/-- An ended game stays so in any program. -/
theorem keeps_gameEnded {allowed : Action → Prop} {α : Type} {x : ServerM α}
    (hx : Does allowed x) : Keeps (fun t => gameEnded t roomId = true) x := by
  intro s hs
  have hacts : ∀ t, Acts allowed s t → gameEnded t roomId = true := fun t ht =>
    ht.invariant (P := fun t => gameEnded t roomId = true)
      (fun a u _ hu h => gameEnded_apply h hu) hs
  exact wp_mono (hx.wp s) (fun _ t ht => hacts t ht) fun _ t ht => hacts t ht

theorem elsewhere_aside (t : Server) : (Action.aside t).Elsewhere roomId userId :=
  ⟨fun _ => Action.noConfusion, fun _ => Action.noConfusion⟩

/-- A forfeit is no return. -/
theorem forceForfeit_elsewhere (r : RoomId) (loser : UserId) :
    Does (Action.Elsewhere roomId userId) (GameService.forceForfeit cfg env r loser) :=
  forceForfeit_does elsewhere_aside
    (fun _ _ => ⟨fun _ => Action.noConfusion, fun _ => Action.noConfusion⟩)
    (fun _ _ _ => ⟨fun _ => Action.noConfusion, fun _ => Action.noConfusion⟩)
    ⟨fun _ => Action.noConfusion, fun _ => Action.noConfusion⟩

/-- **The forfeit of a player of the room**: if it returns, the game has ended. -/
theorem forceForfeit_ends (huser : userId = whiteId ∨ userId = blackId)
    (h : TwoPlayers roomId whiteId blackId s) :
    wp (GameService.forceForfeit cfg env roomId userId) (fun _ t => gameEnded t roomId = true)
      (fun _ _ => True) s := by
  obtain ⟨e, he⟩ := h.engine
  have hplayers : (s.playersOf roomId).whiteId = some whiteId ∧
      (s.playersOf roomId).blackId = some blackId :=
    ⟨congrArg Prod.fst h.players, congrArg Prod.snd h.players⟩
  -- one of the two wins
  obtain ⟨winner, hwinner⟩ : ∃ winner, forfeitWinner (s.playersOf roomId) userId = some winner := by
    unfold forfeitWinner
    rw [hplayers.1, hplayers.2]
    obtain rfl | rfl := huser
    · exact ⟨.b, if_pos rfl⟩
    · split
      · exact ⟨.b, rfl⟩
      · exact ⟨.w, if_pos rfl⟩
  unfold GameService.forceForfeit
  rw [wp_bind, wp_get, he]
  dsimp only
  split
  · next hover => exact gameEnded_iff.mpr ⟨e, he, hover⟩
  refine wp_call (getRoomPlayersForElo_spec _ _) (fun _ _ _ => trivial) ?_
  rintro _ t ⟨rfl, rfl, -⟩
  rw [hwinner]
  dsimp only
  rw [wp_bind, wp_modify]
  refine wp_mono (applyElo_cases _ _ _ _ _) (fun _ t ht => ?_) fun _ _ _ => trivial
  refine gameEnded_iff.mpr ⟨e.forceForfeit winner, ?_, gameOver_forceForfeit e winner⟩
  rw [ht.frame.engines, Server.get?_setEngine, if_pos rfl]

/-- **The turn of the user in the loop.** -/
theorem forfeitExpired_ends (huser : userId = whiteId ∨ userId = blackId)
    (h : Away roomId userId whiteId blackId deadline s) :
    wp (ServerRuntime.forfeitExpired cfg env (roomId, userId))
      (fun _ t => Away roomId userId whiteId blackId deadline t ∧ gameEnded t roomId = true)
      (fun _ => Away roomId userId whiteId blackId deadline) s := by
  unfold ServerRuntime.forfeitExpired
  refine wp_call (wp_and (keeps_away huser (forceForfeit_elsewhere roomId userId) s h)
    (forceForfeit_ends huser h.toTwoPlayers)) (fun _ _ ht => ht.1) ?_
  rintro _ t ⟨ht, hended⟩
  -- the deadline of a player whose game has ended is not needed
  let clear : Action := .connection roomId userId fun member =>
    { member with disconnectDeadline := none }
  have hclear : clear.Enabled t := fun _ => rfl
  have hcleared := ht.apply huser hclear (fun _ => Action.noConfusion) (Or.inl hended)
  have hended' := gameEnded_apply hended hclear
  unfold clearDisconnectDeadline
  rw [wp_bind, wp_modify, wp_modify]
  let forget : Action := .aside { clear.apply t with
    lastCountdownSent := (clear.apply t).lastCountdownSent.pop (roomId, userId) }
  have hforget : forget.Enabled (clear.apply t) := rfl
  exact ⟨hcleared.apply huser hforget (fun _ => Action.noConfusion) (Or.inl hended'),
    gameEnded_apply hended' hforget⟩

/-- The turn of anybody else. -/
theorem forfeitExpired_elsewhere {entry : RoomId × UserId} (hne : entry ≠ (roomId, userId)) :
    Does (Action.Elsewhere roomId userId) (ServerRuntime.forfeitExpired cfg env entry) := by
  have hconnection : ∀ f, (Action.connection entry.1 entry.2 f).Elsewhere roomId userId := by
    refine fun f => ⟨fun _ => Action.noConfusion, fun f' heq => hne ?_⟩
    obtain ⟨hr, hu, -⟩ := Action.connection.inj heq
    exact Prod.ext hr hu
  unfold ServerRuntime.forfeitExpired
  refine (forceForfeit_elsewhere _ _).bind fun _ => ?_
  refine (connection_does (hconnection _) fun _ => by rfl).bind fun _ => ?_
  exact Does.aside elsewhere_aside fun _ => by rfl

theorem keeps_sendCountdown (huser : userId = whiteId ∨ userId = blackId)
    (entry : RoomId × UserId × Int) : Keeps (Away roomId userId whiteId blackId deadline)
      (ServerRuntime.sendCountdown env entry) :=
  keeps_away huser (sendCountdown_does elsewhere_aside entry)

theorem keeps_processDisconnectGrace (huser : userId = whiteId ∨ userId = blackId) :
    Keeps (Away roomId userId whiteId blackId deadline)
      (ServerRuntime.processDisconnectGrace cfg env) := by
  refine processDisconnectGrace_keeps (keeps_sendCountdown huser) fun entry => ?_
  by_cases hentry : entry = (roomId, userId)
  · subst hentry
    exact fun s hs => wp_mono (forfeitExpired_ends huser hs) (fun _ _ ht => ht.1) fun _ _ ht => ht
  · exact keeps_away huser (forfeitExpired_elsewhere hentry)

/-- A player who has passed his deadline is on the list. -/
theorem Gone.mem_expiredDisconnects {now : ℚ} (h : Gone s roomId userId deadline)
    (hplayer : IsPlayer s roomId userId) (hdue : deadline ≤ now) :
    (roomId, userId) ∈ expiredDisconnects s now := by
  obtain ⟨room, member, hroom, hmember, hrole⟩ := isPlayer_iff.mp hplayer
  obtain ⟨m, hm, hstatus, hdeadline⟩ := h
  -- the entry of the player is the one with the deadline
  unfold Server.memberOf at hm
  rw [hroom, Option.bind_some, hmember] at hm
  obtain rfl := Option.some.inj hm
  refine List.mem_flatMap.mpr ⟨(roomId, room), Dict.mem_entries_iff.mpr hroom, ?_⟩
  refine List.mem_map.mpr ⟨(userId, member), List.mem_filter.mpr ⟨?_, ?_⟩, rfl⟩
  · exact Dict.mem_entries_iff.mpr hmember
  · rw [decide_eq_true_eq]
    refine ⟨hstatus, ?_, hrole⟩
    rw [hdeadline]
    exact decide_eq_true hdue

/-- **A pass after the deadline**: if it returns, the game has ended. -/
theorem processDisconnectGrace_ends (huser : userId = whiteId ∨ userId = blackId)
    (h : Away roomId userId whiteId blackId deadline s) (hdue : deadline ≤ env.now) :
    wp (ServerRuntime.processDisconnectGrace cfg env) (fun _ t => gameEnded t roomId = true)
      (fun _ _ => True) s := by
  unfold ServerRuntime.processDisconnectGrace
  rw [wp_bind, wp_get]
  refine wp_call (Keeps.forM (keeps_sendCountdown huser) _ s h) (fun _ _ _ => trivial) ?_
  intro _ t ht
  rw [wp_bind, wp_get]
  -- the game has ended before the loop, or in it
  have hloop := wp_forM_done (f := ServerRuntime.forfeitExpired cfg env)
    (l := expiredDisconnects t env.now) (s := t)
    (I := fun done u => Away roomId userId whiteId blackId deadline u ∧
      (gameEnded t roomId = true ∨ (roomId, userId) ∈ done → gameEnded u roomId = true))
    (E := fun _ _ _ _ => True) (fun done entry rest u _ ⟨hu, hdone⟩ => ?_)
    ⟨ht, fun hended => hended.resolve_right List.not_mem_nil⟩
  · refine wp_mono hloop (fun _ u hu => hu.2 (ht.gone.imp_right fun hgone => ?_))
      fun _ _ _ => trivial
    exact hgone.mem_expiredDisconnects (isPlayer_of_seat ht.players huser) hdue
  · by_cases hentry : entry = (roomId, userId)
    · subst hentry
      exact wp_mono (forfeitExpired_ends huser hu) (fun _ v hv => ⟨hv.1, fun _ => hv.2⟩)
        fun _ _ _ => trivial
    · have hdoes : Does (Action.Elsewhere roomId userId)
          (ServerRuntime.forfeitExpired cfg env entry) := forfeitExpired_elsewhere hentry
      by_cases hended : gameEnded u roomId = true
      · exact wp_mono (wp_and (keeps_away huser hdoes u hu) (keeps_gameEnded hdoes u hended))
          (fun _ v hv => ⟨hv.1, fun _ => hv.2⟩) fun _ _ _ => trivial
      · refine wp_mono (keeps_away huser hdoes u hu) (fun _ v hv => ⟨hv, fun hmem => ?_⟩)
          fun _ _ _ => trivial
        obtain hbefore | hmem := hmem
        · exact absurd (hdone (Or.inl hbefore)) hended
        · obtain hmem | hmem := List.mem_append.mp hmem
          · exact absurd (hdone (Or.inr hmem)) hended
          · exact absurd (List.mem_singleton.mp hmem).symm hentry

/-! ### The closed socket -/

/-- The search that is cancelled first. -/
theorem cancel_twoPlayers (h : TwoPlayers roomId whiteId blackId s) (u : UserId) :
    wp (LobbyService.cancel cfg u) (fun _ => TwoPlayers roomId whiteId blackId)
      (fun _ _ => False) s := by
  unfold LobbyService.cancel
  split
  · unfold MatchmakingService.cancel
    rw [wp_bind, wp_get, wp_bind, wp_modify, wp_pure]
    exact h.apply (a := .setQueue _) trivial fun _ => Action.noConfusion
  · exact h

/-- A player whose socket closes gets his deadline. -/
theorem markDisconnected_away (huser : userId = whiteId ∨ userId = blackId)
    (h : TwoPlayers roomId whiteId blackId s) :
    wp (markDisconnected env userId)
      (fun _ => Away roomId userId whiteId blackId (env.now + disconnectGraceSeconds))
      (fun _ _ => False) s := by
  -- the player is a member, and no viewer, so the entry is marked
  obtain ⟨room, member, hroom, hmember, hrole⟩ := isPlayer_iff.mp (isPlayer_of_seat h.players huser)
  unfold markDisconnected
  rw [wp_bind, wp_get, h.inv.mapped hroom hmember]
  dsimp only
  rw [hroom]
  dsimp only
  rw [hmember, if_neg (by simpa using hrole), wp_bind, wp_modify, wp_pure]
  let mark : Action := .connection roomId userId fun member =>
    { member with
      status := .disconnected
      disconnectDeadline := some (env.now + disconnectGraceSeconds) }
  have hmark : mark.Enabled s := fun _ => rfl
  refine ⟨h.apply hmark fun _ => Action.noConfusion, Or.inr ?_⟩
  have hentry : s.memberOf roomId userId = some member := by
    unfold Server.memberOf
    rw [hroom]
    exact hmember
  refine ⟨{ member with
    status := .disconnected
    disconnectDeadline := some (env.now + disconnectGraceSeconds) }, ?_, rfl, rfl⟩
  rw [memberOf_modifyMember, if_pos ⟨rfl, rfl⟩, hentry]
  rfl

/-- The whole handler of a closed socket. -/
theorem clientDisconnected_away (huser : userId = whiteId ∨ userId = blackId)
    (h : TwoPlayers roomId whiteId blackId s) :
    Away roomId userId whiteId blackId (env.now + disconnectGraceSeconds)
      (s.step cfg (env, .clientDisconnected userId)) := by
  refine wp_iff_after.mp ?_
  change wp (ServerRuntime.onClientDisconnected cfg env userId) _ _ s
  unfold ServerRuntime.onClientDisconnected
  refine wp_call (cancel_twoPlayers h userId) (fun _ _ ht => ht.elim) ?_
  intro _ t ht
  refine wp_call (markDisconnected_away huser ht) (fun _ _ hu => hu.elim) ?_
  intro roomId? u hu
  split
  · exact hu
  · exact keeps_away huser (broadcastCountdown_does elsewhere_aside _ _ _) u hu

/-! ### Events -/

/-- **An event** that does not open the room again and is not about the user's socket. -/
theorem Away.step {event : Env × Event} (h : Away roomId userId whiteId blackId deadline s)
    (huser : userId = whiteId ∨ userId = blackId) (hopened : ¬ Reopens s roomId event)
    (hstays : event.2 ≠ .reconnect userId ∧ event.2 ≠ .clientDisconnected userId) :
    Away roomId userId whiteId blackId deadline (s.step cfg event) := by
  obtain ⟨env, event⟩ := event
  -- most events change no connection
  have hacts : (∀ r u f, ¬ (Action.connection r u f).Of (env, event)) →
      Away roomId userId whiteId blackId deadline (s.step cfg (env, event)) := by
    intro hconnection
    have hrun := (s.step_acts cfg (env, event)).invariant
      (P := fun t => Away roomId userId whiteId blackId deadline t ∧
        ¬ Reopens t roomId (env, event)) (fun a t hof ha ht => ?_) ⟨h, hopened⟩
    · exact hrun.1
    · refine ⟨ht.1.apply huser ha ?_ (Or.inr ?_), Reopens.not_apply ha hof ht.2⟩
      · rintro creator rfl
        obtain ⟨hcreate, htoken⟩ := hof
        obtain ⟨room, hroom, -⟩ := getRoomPlayers_eq_some ht.1.players
        exact ht.2 ⟨creator, hcreate, htoken.symm, ha, by rw [hroom]; rfl⟩
      · rintro f rfl
        exact hconnection _ _ _ hof
  have hother : ∀ {v}, v ≠ userId → ∀ r f, (Action.connection r v f).Elsewhere roomId userId :=
    fun hv r f => ⟨fun _ => Action.noConfusion, fun f' heq => hv (Action.connection.inj heq).2.1⟩
  cases event with
  | reconnect v =>
    have hv : v ≠ userId := fun hv => hstays.1 (hv ▸ rfl)
    exact wp_iff_after.mp (keeps_away huser
      ((reconnect_does (hother hv)).bind fun _ => Does.pure _) s h)
  | clientDisconnected v =>
    have hv : v ≠ userId := fun hv => hstays.2 (hv ▸ rfl)
    exact wp_iff_after.mp (keeps_away huser (onClientDisconnected_does elsewhere_aside
      (fun _ => ⟨fun _ => Action.noConfusion, fun _ => Action.noConfusion⟩)
      (fun _ => ⟨fun _ => Action.noConfusion, fun _ => Action.noConfusion⟩) (hother hv)) s h)
  | processDisconnectGrace => exact wp_iff_after.mp (keeps_processDisconnectGrace huser s h)
  | _ => exact hacts fun _ _ _ hof => hof

end Programs

/-- The pass of the grace in which Bob's name cannot be looked up. -/
def failedPass : List (Env × Event) :=
  [({ Small.env ["wR bK"] with now := 20, raises := fun call => call = .getById .forfeitName Small.bob },
    .processDisconnectGrace)]

end KungFuChess
