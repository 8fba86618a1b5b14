import KungFuChess.Server.AllocatorKeys
import KungFuChess.Split.OneSeat

/-!
# The directory of the deployment

The keys of the allocator lead from a user to a room and from the room to a shard. A shard
writes them when it seats a user (`KeysAfter`) and deletes them when it applies a result
(`KeysReleased`); the matchmaker claims rooms, and a gateway whose `reconnect` has been
refused deletes the key of the user (`DirectoryStep`).

`Routed` says that the keys lead every user who is in a running game to the shard of that
game. It survives a step that deletes the key of nobody who is in one, and that concerns no
user and no room of another shard (`Apart`, `routed_step`).
-/

namespace KungFuChess

open Effect RoomService GameService

/-! ### Rooms and engines -/

/-- Every room has an engine. -/
def Furnished (s : Server) : Prop :=
  ∀ r, s.rooms.get? r ≠ none → s.engines.get? r ≠ none

/-- The writes that do not open a room. -/
def Action.Opens : Action → Prop
  | .openRoom _ _ | .openMatchedRoom _ _ _ => True
  | _ => False

section Rooms

variable {s t : Server} {a : Action} {r : RoomId}

/-- Changing a room opens none. -/
theorem rooms_modifyRoom {roomId : RoomId} {f : Room → Room} :
    (s.modifyRoom roomId f).rooms.get? r ≠ none ↔ s.rooms.get? r ≠ none := by
  rw [Server.get?_modifyRoom]
  split
  · next hr =>
    subst hr
    simp
  · rfl

/-- A room that exists after an action that opens none has existed before. -/
theorem Action.rooms_of_apply (ha : a.Enabled s) (hopens : ¬ a.Opens)
    (h : (a.apply s).rooms.get? r ≠ none) : s.rooms.get? r ≠ none := by
  cases a with
  | openRoom | openMatchedRoom => exact absurd trivial hopens
  | startGame | join | leave | connection | markElo => exact rooms_modifyRoom.mp h
  | createEngine | engine | setElo | register | setQueue => exact h
  | aside state =>
    change state.rooms.get? r ≠ none at h
    rw [show state = _ from ha] at h
    exact h

/-- Engines are never dropped. -/
theorem Action.engines_apply (ha : a.Enabled s) (h : s.engines.get? r ≠ none) :
    (a.apply s).engines.get? r ≠ none := by
  have hset : ∀ {room : RoomId} {engine : GameEngine},
      (s.setEngine room engine).engines.get? r ≠ none := by
    intro room engine
    rw [Server.get?_setEngine]
    split
    · simp
    · exact h
  -- only these two write an engine, and neither removes one
  cases a with
  | createEngine | engine => exact hset
  | openRoom | openMatchedRoom | startGame | join | leave | connection | setElo | markElo
  | register | setQueue => exact h
  | aside state => exact (show state = _ from ha) ▸ h

/-- The events that open rooms. -/
theorem Action.Of.opens {env : Env} {event : Event} (hof : Action.Of (env, event) a)
    (h : a.Opens) : (∃ u, event = .createRoom u) ∨ (∃ r whiteId blackId,
      event = .createMatch r whiteId blackId) ∨ event = .matchmakingTick := by
  cases a with
  | openRoom roomId creator => exact Or.inl ⟨creator, hof.1⟩
  | openMatchedRoom roomId userA userB =>
    obtain ⟨htick, -⟩ | hmatch := hof
    · exact Or.inr (Or.inr htick)
    · exact Or.inr (Or.inl ⟨_, _, _, hmatch⟩)
  | _ => exact h.elim

/-- What does not open a room leaves every room with an engine. -/
theorem Furnished.of_acts {allowed : Action → Prop} (hallowed : ∀ a, allowed a → ¬ a.Opens)
    (h : Acts allowed s t) :
    (∀ r, t.rooms.get? r ≠ none → s.rooms.get? r ≠ none) ∧ (Furnished s → Furnished t) := by
  have hboth : (∀ r, t.rooms.get? r ≠ none → s.rooms.get? r ≠ none) ∧
      ∀ r, s.engines.get? r ≠ none → t.engines.get? r ≠ none :=
    h.invariant (P := fun u => (∀ r, u.rooms.get? r ≠ none → s.rooms.get? r ≠ none) ∧
        ∀ r, s.engines.get? r ≠ none → u.engines.get? r ≠ none)
      (fun a u ha henabled hu =>
        ⟨fun r hr => hu.1 r (Action.rooms_of_apply henabled (hallowed a ha) hr),
          fun r hr => Action.engines_apply henabled (hu.2 r hr)⟩)
      ⟨fun _ hr => hr, fun _ hr => hr⟩
  exact ⟨hboth.1, fun hfurnished r hr => hboth.2 r (hfurnished r (hboth.1 r hr))⟩

/-- A call that seats users in a room changes no other room. -/
theorem Opens.rooms_of {roomId : RoomId} (h : Opens a roomId s t)
    (hseats : ∀ r, r ≠ roomId → (a.seats s.seatMap).members r = s.seatMap.members r)
    (hr : t.rooms.get? r ≠ none) : s.rooms.get? r ≠ none ∨ r = roomId := by
  by_cases hne : r = roomId
  · exact Or.inr hne
  have hsame : (t.rooms.get? r).map Room.roles = (s.rooms.get? r).map Room.roles := by
    have hmembers := hseats r hne
    rw [← h.seatMap] at hmembers
    exact hmembers
  refine Or.inl fun hnone => hr ?_
  rw [hnone] at hsame
  exact Option.map_eq_none_iff.mp hsame

/-- It leaves the engines that there are. -/
theorem Opens.engines_of {roomId : RoomId} (h : Opens a roomId s t)
    (hr : s.engines.get? r ≠ none) : t.engines.get? r ≠ none := by
  obtain hsame | ⟨-, -, board, hnew⟩ := h.engines r
  · rw [hsame]
    exact hr
  · rw [hnew]
    simp

/-- Opening a room keeps the server furnished, since an engine is written with it. -/
theorem OpensRoom.furnished {env : Env} {roomId : RoomId} (h : OpensRoom env a roomId s t)
    (hseats : ∀ r, r ≠ roomId → (a.seats s.seatMap).members r = s.seatMap.members r)
    (hfurnished : Furnished s) : Furnished t := by
  intro r hr
  obtain hold | rfl := h.opens.rooms_of hseats hr
  · exact h.opens.engines_of (hfurnished r hold)
  · obtain ⟨engine, hengine⟩ := Dict.contains_iff.mp h.engine
    rw [hengine]
    simp

end Rooms

/-! ### What a handler does to the keys -/

/-- A user joins a room that is there. -/
def Event.Joins : Event → Prop
  | .joinRoom _ _ => True
  | _ => False

/-- The keys after a command or a match that has not ended the process: those of the users whom
it seats lead to their room and to this shard, and the others are as they were. -/
structure KeysAfter (shardId : String) (s : Server) (env : Env) (event : Event) (t : Server) :
    Prop where
  user : ∀ u, t.allocator.userRoom.get? u = s.allocator.userRoom.get? u ∨
    ∃ r role, Seats s env r u role event ∧ ¬ Breaks s env event
  room : ∀ r, t.allocator.roomShard.get? r = s.allocator.roomShard.get? r ∨
    t.allocator.roomShard.get? r = some shardId ∧
      ∃ u role, Seats s env r u role event ∧ ¬ Breaks s env event ∧ ¬ event.Joins
  bound : ∀ {r u role}, Seats s env r u role event → t.allocator.userRoom.get? u = some r
  rooms : ∀ r, t.rooms.get? r ≠ none →
    s.rooms.get? r ≠ none ∨ t.allocator.roomShard.get? r = some shardId
  furnished : Furnished s → Furnished t

section Handlers

variable {cfg : Config} {env : Env} {s t : Server} {shardId : String}

/-- Nobody is seated, and no key is touched. -/
theorem KeysAfter.of_kept {event : Event} (hallocator : t.allocator = s.allocator)
    (hseats : ∀ r u role, ¬ Seats s env r u role event)
    (hrooms : (∀ r, t.rooms.get? r ≠ none → s.rooms.get? r ≠ none) ∧ (Furnished s → Furnished t)) :
    KeysAfter shardId s env event t where
  user _ := Or.inl (by rw [hallocator])
  room _ := Or.inl (by rw [hallocator])
  bound h := absurd h (hseats _ _ _)
  rooms r hr := Or.inl (hrooms.1 r hr)
  furnished := hrooms.2

/-- `room_create` binds the user to a new room, and the room to this shard. -/
theorem roomCreate_keys (hshard : cfg.deployment = .gameShard shardId) (userId : UserId) :
    wp (handleCommand cfg env (.roomCreate userId))
      (fun _ t => KeysAfter shardId s env (.createRoom userId) t)
      (fun _ t => t.allocator = s.allocator) s := by
  refine wp_mono (handleCommand_roomCreate hshard userId) ?_ fun _ t ht => by rw [ht.opens.others]
  rintro reply t (⟨-, hmapped, rfl⟩ | ⟨-, u, hu, rfl⟩)
  -- a refused command seats nobody; otherwise one key of each kind is written
  · refine .of_kept rfl ?_ ⟨fun _ hr => hr, id⟩
    rintro r u role ⟨-, -, -, hfree⟩
    exact absurd hmapped (by simp [Dict.contains, hfree])
  have hallocator : u.allocator = s.allocator := by rw [hu.opens.others]
  have hmembers : ∀ r, r ≠ env.tokenHex userId →
      ((Action.openRoom (env.tokenHex userId) userId).seats s.seatMap).members r =
        s.seatMap.members r := fun r hr => Function.update_of_ne hr _ _
  have hseats : Seats s env (env.tokenHex userId) userId .white (.createRoom userId) :=
    ⟨rfl, rfl, rfl, hu.opens.enabled⟩
  -- one key of the user, one key of the room
  refine ⟨fun v => ?_, fun r => ?_, ?_, fun r hr => ?_, hu.furnished hmembers⟩
  · change ((u.allocator.userRoom.set userId _).get? v = _) ∨ _
    rw [Dict.get?_set]
    split
    · next hv =>
      rw [hv]
      exact Or.inr ⟨_, _, hseats, hu.board⟩
    · exact Or.inl (by rw [hallocator])
  · change ((u.allocator.roomShard.set _ shardId).get? r = _) ∨
      (u.allocator.roomShard.set _ shardId).get? r = _ ∧ _
    rw [Dict.get?_set]
    split
    · next hr =>
      rw [hr]
      exact Or.inr ⟨rfl, _, _, hseats, hu.board, id⟩
    · exact Or.inl (by rw [hallocator])
  · rintro r v role ⟨rfl, rfl, -, -⟩
    exact Dict.get?_set_self _ _ _
  · refine (hu.opens.rooms_of hmembers hr).imp_right ?_
    rintro rfl
    exact Dict.get?_set_self _ _ _

/-- `room_join` binds the user to the room. -/
theorem roomJoin_keys (hshard : cfg.deployment = .gameShard shardId) (userId : UserId)
    (roomId : RoomId) :
    wp (handleCommand cfg env (.roomJoin userId roomId))
      (fun _ t => KeysAfter shardId s env (.joinRoom userId roomId) t)
      (fun _ t => t.allocator = s.allocator) s := by
  refine wp_mono (handleCommand_roomJoin hshard userId roomId) ?_ ?_
  · rintro reply t (⟨-, rfl, hreason⟩ | ⟨-, room, u, hroom, hu, hloads, rfl⟩)
    -- who joins is bound to the room; whose shard it is has been written when it was opened
    · refine .of_kept rfl ?_ ⟨fun _ hr => hr, id⟩
      rintro r u role ⟨rfl, rfl, hfree, room, hroom, -⟩
      exact absurd hreason (by simp [Dict.contains, hfree, hroom])
    have hallocator : u.allocator = s.allocator := by rw [hu.others]
    have hmembers : ∀ r, r ≠ roomId →
        ((Action.join roomId userId (nextRole room)).seats s.seatMap).members r =
          s.seatMap.members r := fun r hr => Function.update_of_ne hr _ _
    have hexists : s.rooms.get? roomId ≠ none := by
      rw [hroom]
      simp
    have hrooms : ∀ r, u.rooms.get? r ≠ none → s.rooms.get? r ≠ none := by
      intro r hr
      obtain hold | rfl := hu.rooms_of hmembers hr
      · exact hold
      · exact hexists
    -- the engine has been created, so the board of the start has been read
    have hboard : ¬ Breaks s env (.joinRoom userId roomId) := by
      rintro ⟨room', hroom', hstarts, hfails⟩
      obtain rfl := Option.some.inj (hroom.symm.trans hroom')
      exact hloads hstarts hfails
    refine ⟨fun v => ?_, fun r => Or.inl (by rw [← hallocator]; rfl), ?_,
      fun r hr => Or.inl (hrooms r hr), fun h r hr => hu.engines_of (h r (hrooms r hr))⟩
    · change ((u.allocator.userRoom.set userId roomId).get? v = _) ∨ _
      rw [Dict.get?_set]
      split
      · next hv =>
        exact Or.inr ⟨roomId, nextRole room, ⟨hv, rfl, hu.enabled.1, room, hroom, rfl⟩, hboard⟩
      · exact Or.inl (by rw [hallocator])
    · rintro r v role ⟨rfl, rfl, -⟩
      exact Dict.get?_set_self _ _ _
  · rintro _ t ⟨room, -, hu, -⟩
    rw [hu.others]

/-- A match binds both users to its room, and the room to this shard. -/
theorem onCreateMatch_keys (hshard : cfg.deployment = .gameShard shardId) (roomId : RoomId)
    (whiteId blackId : UserId) :
    wp (onCreateMatch cfg env.overRedis roomId whiteId blackId)
      (fun _ t => KeysAfter shardId s env.overRedis (.createMatch roomId whiteId blackId) t)
      (fun _ t => t.allocator = s.allocator) s := by
  refine wp_mono (onCreateMatch_spec hshard roomId whiteId blackId) ?_
    fun _ t ht => by rw [ht.opens.others]
  rintro _ t (⟨rfl, hrejected⟩ | ⟨u, hu, ht, -⟩)
  -- a rejected match seats nobody; otherwise both users are bound to the new room
  · refine .of_kept rfl ?_ ⟨fun _ hr => hr, id⟩
    rintro r u role ⟨rfl, -, hwhite, hblack, hnew⟩
    exact absurd hrejected (by simp [MatchRejected, Dict.contains, hwhite, hblack, hnew])
  have hallocator : u.allocator = s.allocator := by rw [hu.opens.others]
  have hrooms : t.rooms = u.rooms := by rw [ht]
  have hengines : t.engines = u.engines := by rw [ht]
  have huser : t.allocator.userRoom =
      (u.allocator.userRoom.set whiteId roomId).set blackId roomId := by
    rw [ht]
    rfl
  have hroom : t.allocator.roomShard = u.allocator.roomShard.set roomId shardId := by
    rw [ht]
    rfl
  have hmembers : ∀ r, r ≠ roomId →
      ((Action.openMatchedRoom roomId whiteId blackId).seats s.seatMap).members r =
        s.seatMap.members r := fun r hr => Function.update_of_ne hr _ _
  obtain ⟨hwhite, hblack, hnew⟩ := hu.opens.enabled
  -- both are seated, and one user on both sides is black
  have hseats : ∀ {v}, v = blackId ∨ v = whiteId → ∃ role,
      Seats s env.overRedis roomId v role (.createMatch roomId whiteId blackId) := by
    intro v hv
    by_cases hvb : v = blackId
    · exact ⟨.black, rfl, Or.inl ⟨hvb, rfl⟩, hwhite, hblack, hnew⟩
    · exact ⟨.white, rfl, Or.inr ⟨hv.resolve_left hvb, hvb, rfl⟩, hwhite, hblack, hnew⟩
  -- the keys of users, the keys of rooms, the seats, the rooms and the engines
  refine ⟨fun v => ?_, fun r => ?_, ?_, fun r hr => ?_, fun h r hr => ?_⟩
  · by_cases hv : v = blackId ∨ v = whiteId
    · obtain ⟨role, hseats⟩ := hseats hv
      exact Or.inr ⟨_, role, hseats, hu.board⟩
    · push Not at hv
      left
      rw [huser, Dict.get?_set, if_neg hv.1, Dict.get?_set, if_neg hv.2, hallocator]
  · rw [hroom, Dict.get?_set]
    split
    · next hr =>
      obtain ⟨role, hseats⟩ := hseats (Or.inr rfl)
      rw [hr]
      exact Or.inr ⟨rfl, _, role, hseats, hu.board, id⟩
    · exact Or.inl (by rw [hallocator])
  · rintro r v role ⟨rfl, hv, -⟩
    rw [huser, Dict.get?_set]
    split
    · rfl
    · next hvb =>
      obtain ⟨rfl, -⟩ | ⟨rfl, -⟩ := hv
      · exact absurd rfl hvb
      · exact Dict.get?_set_self _ _ _
  · rw [hrooms] at hr
    refine (hu.opens.rooms_of hmembers hr).imp_right ?_
    rintro rfl
    rw [hroom]
    exact Dict.get?_set_self _ _ _
  · rw [hrooms] at hr
    rw [hengines]
    exact hu.furnished hmembers h r hr

/-- The key of a user who disconnects stays for the grace. -/
theorem clientDisconnected_allocator (hshard : cfg.deployment = .gameShard shardId)
    (userId : UserId) :
    wp (ServerRuntime.onClientDisconnected cfg env userId) (fun _ t => t.allocator = s.allocator)
      (fun _ t => t.allocator = s.allocator) s := by
  have hmark : wp (markDisconnected env userId) (fun _ t => t.allocator = s.allocator)
      (fun _ t => t.allocator = s.allocator) s := by
    refine wp_mono (markDisconnected_cases env userId s) (fun _ t ht => ?_) ?_
    · cases ht <;> rfl
    · rintro _ _ rfl
      rfl
  have hcancel : LobbyService.cancel cfg userId = pure false := by
    unfold LobbyService.cancel
    rw [hshard]
  unfold ServerRuntime.onClientDisconnected
  rw [hcancel, pure_bind]
  -- a deadline is written into the member, and a countdown is sent to the room
  refine wp_call hmark (fun _ _ ht => ht) fun roomId? t ht => ?_
  split
  · exact ht
  unfold ServerRuntime.broadcastCountdown
  rw [wp_bind, wp_get]
  split
  · exact ht
  refine wp_call (perform_allocator _ t) ?_ ?_
  · rintro _ u rfl
    exact ht
  · rintro _ u rfl
    exact ht

/-- Coming back touches no key. -/
theorem reconnect_allocator (userId : UserId) :
    wp (RoomService.reconnect userId) (fun _ t => t.allocator = s.allocator)
      (fun _ t => t.allocator = s.allocator) s := by
  refine wp_mono (reconnect_cases userId s) (fun _ t ht => ?_) nofun
  cases ht <;> rfl

/-- The commands that seat nobody touch no key. -/
theorem allocator_after_handleCommand (hshard : cfg.deployment = .gameShard shardId)
    {command : GameCommand} (hcreate : ∀ u, command ≠ .roomCreate u)
    (hjoin : ∀ u r, command ≠ .roomJoin u r) :
    (after (handleCommand cfg env command) s).allocator = s.allocator := by
  cases command with
  | roomCreate userId => exact absurd rfl (hcreate userId)
  | roomJoin userId roomId => exact absurd rfl (hjoin userId roomId)
  -- a move writes an engine, or nothing
  | move userId startPos endPos =>
    refine (wp_iff_after (P := fun t : Server => t.allocator = s.allocator)).mp ?_
    refine wp_mono (handleCommand_move userId startPos endPos) ?_ fun _ _ h => h.elim
    rintro reply t (⟨-, -, ht, -⟩ | ⟨-, roomId, color, engine, -, -, rfl⟩)
    · rw [ht]
    · rfl
  -- a look at the state writes nothing
  | getState roomId => rw [after_handleCommand]; rfl
  | playerDisconnected userId =>
    -- the grace is a matter of the members
    rw [after_handleCommand]
    exact (wp_iff_after (P := fun t : Server => t.allocator = s.allocator)).mp
      (clientDisconnected_allocator hshard userId)
  | playerReconnect userId =>
    rw [after_handleCommand]
    change (after (RoomService.reconnect userId >>= fun _ => pure ()) s).allocator = s.allocator
    rw [after_bind_pure]
    exact (wp_iff_after (P := fun t : Server => t.allocator = s.allocator)).mp
      (reconnect_allocator userId)

/-- **What a command does to the keys.** -/
theorem handleCommand_keys (hshard : cfg.deployment = .gameShard shardId) {command : GameCommand}
    {event : Event} (hevent : command.event? = some event) :
    wp (handleCommand cfg env command) (fun _ t => KeysAfter shardId s env event t)
      (fun _ t => t.allocator = s.allocator) s := by
  have hquiet : (∀ u, command ≠ .roomCreate u) → (∀ u r, command ≠ .roomJoin u r) →
      wp (handleCommand cfg env command) (fun _ t => KeysAfter shardId s env event t)
        (fun _ t => t.allocator = s.allocator) s := by
    intro hcreate hjoin
    have hallocator : (after (handleCommand cfg env command) s).allocator = s.allocator :=
      allocator_after_handleCommand hshard hcreate hjoin
    -- no other command opens a room
    have hopens : ∀ a, Action.Of (env, event) a → ¬ a.Opens := by
      intro a hof hopens
      obtain ⟨u, rfl⟩ | ⟨r, whiteId, blackId, rfl⟩ | rfl := hof.opens hopens
      · cases command <;> cases hevent
        exact hcreate _ rfl
      · cases command <;> cases hevent
      · cases command <;> cases hevent
    -- nor does it seat anybody
    have hseats : ∀ r u role, ¬ Seats s env r u role event := by
      intro r u role hseats
      cases command with
      | roomCreate userId => exact hcreate userId rfl
      | roomJoin userId roomId => exact hjoin userId roomId rfl
      | getState => cases hevent
      | move | playerDisconnected | playerReconnect =>
        cases hevent
        exact hseats
    have hkeys : KeysAfter shardId s env event (after (handleCommand cfg env command) s) := by
      refine .of_kept hallocator hseats ?_
      rw [after_handleCommand, hevent]
      exact Furnished.of_acts hopens (s.step_acts cfg (env, event))
    have hall := (wp_iff_after (x := handleCommand cfg env command)
      (P := fun t : Server => KeysAfter shardId s env event t ∧ t.allocator = s.allocator)).mpr
      ⟨hkeys, hallocator⟩
    exact wp_mono hall (fun _ _ h => h.1) fun _ _ h => h.2
  cases command with
  | roomCreate userId =>
    cases hevent
    exact roomCreate_keys hshard userId
  | roomJoin userId roomId =>
    cases hevent
    exact roomJoin_keys hshard userId roomId
  | move | getState | playerDisconnected | playerReconnect => exact hquiet (by simp) (by simp)

end Handlers

section Seats

variable {s t : Server} {r : RoomId}

theorem Running.of_sameServices (h : Running t r) (hsame : SameServices s t) : Running s r := by
  unfold Running at h ⊢
  rw [← hsame.engines]
  exact h

theorem Furnished.of_sameServices (h : Furnished s) (hsame : SameServices s t) :
    Furnished t := by
  unfold Furnished at h ⊢
  rw [hsame.rooms, hsame.engines]
  exact h

theorem running_of_acts {allowed : Action → Prop} (hacts : Acts allowed s t) (h : Running t r) :
    Running s r :=
  hacts.invariant (P := fun u => Running u r → Running s r)
    (fun _ _ _ ha hs hrunning => hs (Action.running_of_apply ha hrunning)) (fun hs => hs) h

/-- Who is seated by a call was in no room of the shard. -/
theorem unmapped_of_seats {env : Env} {event : Event} {u : UserId} {role : PlayerRole}
    (h : Seats s env r u role event) : s.userRoom.get? u = none := by
  cases event with
  | createRoom creator =>
    obtain ⟨rfl, -, -, hfree⟩ := h
    exact hfree
  | joinRoom user room =>
    obtain ⟨rfl, -, hfree, -⟩ := h
    exact hfree
  | createMatch room whiteId blackId =>
    obtain ⟨-, ⟨rfl, -⟩ | ⟨rfl, -⟩, hwhite, hblack, -⟩ := h
    · exact hblack
    · exact hwhite
  | _ => exact h.elim

end Seats

namespace Cluster

/-! ### What a step does to the directory -/

/-- The services of a process are as they were, and it is as alive as before. -/
structure SameShard (c c' : Cluster) (shardId : String) : Prop where
  services : SameServices (c.load shardId) (c'.load shardId)
  crashed : (c'.shards shardId).crashed = (c.shards shardId).crashed

/-- What a step does to the keys, and to the rooms of the shards. -/
inductive DirectoryStep (cfg : ClusterConfig) (c c' : Cluster) : Input → Prop where
  | kept (i : Input) (hshards : ∀ id, SameShard c c' id) (hallocator : c'.allocator = c.allocator) :
      DirectoryStep cfg c c' i
  | unbound (requestId : Nat) (userId : UserId)
      (hcall : c.calls[requestId]? = some ⟨.reconnect userId, .refused⟩)
      (hshards : ∀ id, SameShard c c' id)
      (hallocator : c'.allocator = c.allocator.unbindPlayer userId) :
      DirectoryStep cfg c c' (.advance requestId)
  | claimed (roomId drawn : RoomId) (shardId : String)
      (hworker : ∃ later used whiteId blackId, (c.matchmaker.step cfg.shards (.work drawn)).worker =
        .allocated later used roomId whiteId blackId shardId)
      (hshards : ∀ id, SameShard c c' id)
      (hallocator : c'.allocator = c.allocator.claimRoom roomId shardId) :
      DirectoryStep cfg c c' (.matchmaker (.work drawn))
  | handled (i : Input) (shardId : String) (env : Env) (event : Event)
      (hhandles : Handles c shardId i [(env, event)])
      (halive : (c'.shards shardId).crashed = false)
      (hothers : ∀ id, id ≠ shardId → SameShard c c' id)
      (hkeys : KeysAfter shardId (c.load shardId) env event (c'.load shardId)) :
      DirectoryStep cfg c c' i
  | ended (i : Input) (shardId : String) (hcrashed : (c'.shards shardId).crashed = true)
      (hothers : ∀ id, id ≠ shardId → SameShard c c' id) (hallocator : c'.allocator = c.allocator) :
      DirectoryStep cfg c c' i
  | passed (shardId : String) (env : Env) (hready : (c.shards shardId).Ready)
      (hothers : ∀ id, id ≠ shardId → SameShard c c' id)
      (hkeys : KeysReleased (c.load shardId) (c'.load shardId))
      (hfurnished : Furnished (c.load shardId) → Furnished (c'.load shardId)) :
      DirectoryStep cfg c c' (.runOnce shardId env)

section Steps

variable {cfg : ClusterConfig} {c : Cluster} {shardId : String}

theorem SameShard.refl {id : String} : SameShard c c id := ⟨.refl _, rfl⟩

/-- A step that no handler of the shard takes leaves the shard alone. -/
theorem sameShard_step {i : Input} (hne : i.shardId? ≠ some shardId) :
    SameShard c (c.step cfg i) shardId :=
  have hsame : SameProcess (c.shards shardId) ((c.step cfg i).shards shardId) :=
    sameProcess_of_ne cfg hne
  ⟨sameServices_of_server hsame.server, hsame.crashed⟩

theorem sameShard_others {i : Input} (hid : i.shardId? = some shardId) {id : String}
    (hne : id ≠ shardId) : SameShard c (c.step cfg i) id :=
  sameShard_step fun h => hne (Option.some.inj (h.symm.trans hid))

/-- A handler whose program returns or ends the process. -/
theorem runShard_keys {α : Type} {x : ServerM α} {f : Option α → Shard → Shard} {i : Input}
    {env : Env} {event : Event} (hstep : c.step cfg i = c.runShard shardId x f)
    (hhandles : Handles c shardId i [(env, event)]) (halive : (c.shards shardId).crashed = false)
    (hf : ∀ a shard, (f a shard).server = shard.server)
    (hcrashed : ∀ a shard, (f a shard).crashed = shard.crashed)
    (h : wp x (fun _ t => KeysAfter shardId (c.load shardId) env event t)
      (fun _ t => t.allocator = c.allocator) (c.load shardId)) :
    DirectoryStep cfg c (c.step cfg i) i := by
  have hothers : ∀ id, id ≠ shardId → SameShard c (c.step cfg i) id :=
    fun id => sameShard_others hhandles.shardId_eq
  obtain ⟨hsame, -, hkeys⟩ | ⟨hdown, -, hallocator⟩ := runShard_spec hf hcrashed h
  · rw [← hstep] at hsame hkeys
    exact .handled i shardId env event hhandles (hsame.trans halive) hothers hkeys
  · rw [← hstep] at hdown hallocator
    exact .ended i shardId hdown hothers hallocator

/-- A handler that only looks. -/
theorem runShard_kept {α : Type} {x : ServerM α} {f : Option α → Shard → Shard}
    (hf : ∀ a shard, (f a shard).server = shard.server)
    (hcrashed : ∀ a shard, (f a shard).crashed = shard.crashed)
    (hkept : after x (c.load shardId) = c.load shardId)
    (hspec : wp x (fun _ _ => True) (fun _ _ => False) (c.load shardId)) :
    SameShard c (c.runShard shardId x f) shardId ∧
      (c.runShard shardId x f).allocator = c.allocator := by
  have hload : (c.runShard shardId x f).load shardId = c.load shardId :=
    (load_runShard x hf).trans hkept
  refine ⟨⟨hload ▸ .refl _, ?_⟩, congrArg Server.allocator hload⟩
  obtain ⟨hsame, -⟩ | ⟨-, -, hno⟩ := runShard_spec hf hcrashed hspec
  · exact hsame
  · exact hno.elim

/-- The next command of a shard. -/
theorem execute_keys {env : Env} (hready : (c.shards shardId).Ready) :
    DirectoryStep cfg c (c.step cfg (.execute shardId env)) (.execute shardId env) := by
  cases hcommands : (c.shards shardId).commands with
  | nil =>
    have hstep : c.step cfg (.execute shardId env) = c := by
      simp only [step, if_pos hready, execute, hcommands]
    rw [hstep]
    exact .kept _ (fun _ => .refl) rfl
  | cons head rest =>
    obtain ⟨requestId, command⟩ := head
    have hstep : c.step cfg (.execute shardId env) = c.runShard shardId
        (handleCommand (config cfg shardId) env.overRedis command) fun reply? shard =>
          { shard with
            commands := rest
            answer := reply?.map fun reply => (requestId, reply)
            log := shard.log ++ [⟨requestId, command, c.load shardId, shard.server⟩] } := by
      simp only [step, if_pos hready, execute, hcommands]
    -- either the command is an event of the server, or it only looks
    cases hevent : command.event? with
    | some event =>
      exact runShard_keys hstep (.command env requestId command rest event hready hcommands hevent)
        hready.1 (fun _ _ => rfl) (fun _ _ => rfl) (handleCommand_keys rfl hevent)
    | none =>
      -- a look at a state
      have hspec : wp (handleCommand (config cfg shardId) env.overRedis command) (fun _ _ => True)
          (fun _ _ => False) (c.load shardId) := by
        cases command with
        | getState roomId =>
          unfold handleCommand
          rw [wp_bind, wp_get]
          split
          · trivial
          · trivial
        | _ => cases hevent
      have hkept : after (handleCommand (config cfg shardId) env.overRedis command)
          (c.load shardId) = c.load shardId := by
        rw [after_handleCommand, hevent]
      have hsame : SameShard c (c.step cfg (.execute shardId env)) shardId ∧
          (c.step cfg (.execute shardId env)).allocator = c.allocator := by
        rw [hstep]
        exact runShard_kept (fun _ _ => rfl) (fun _ _ => rfl) hkept hspec
      refine .kept _ (fun id => ?_) hsame.2
      by_cases hid : id = shardId
      · subst hid
        exact hsame.1
      · exact sameShard_others rfl hid

/-- The next event of the matchmaker. -/
theorem deliver_keys {env : Env} (hready : (c.shards shardId).Ready) :
    DirectoryStep cfg c (c.step cfg (.deliver shardId env)) (.deliver shardId env) := by
  have hpassed : ∀ {c' : Cluster}, c.step cfg (.deliver shardId env) = c' →
      SameShard c c' shardId → c'.allocator = c.allocator →
      DirectoryStep cfg c (c.step cfg (.deliver shardId env)) (.deliver shardId env) := by
    intro c' hstep hsame hallocator
    rw [← hstep] at hsame hallocator
    refine .kept _ (fun id => ?_) hallocator
    by_cases hid : id = shardId
    · -- an event that is passed over is counted, nothing else
      subst hid
      exact hsame
    · exact sameShard_others rfl hid
  have hskipped : SameShard c (c.modifyShard shardId fun shard =>
      { shard with seen := shard.seen + 1 }) shardId := by
    refine ⟨sameServices_of_server ?_, ?_⟩
    · unfold modifyShard
      dsimp only
      rw [Function.update_self]
    · unfold modifyShard
      dsimp only
      rw [Function.update_self]
  have hstep : c.step cfg (.deliver shardId env) = c.deliver cfg shardId env := if_pos hready
  cases hevent : c.matchmaker.events[(c.shards shardId).seen]? with
  -- nothing to take, a timeout, a match for another shard, a match for this one
  | none => exact hpassed (hstep.trans (by rw [deliver, hevent])) .refl rfl
  | some event =>
    cases event with
    | matchTimeout userId reason =>
      exact hpassed (hstep.trans (by rw [deliver, hevent])) hskipped rfl
    | createMatch roomId whiteId blackId target =>
      by_cases htarget : target = shardId
      · subst htarget
        have hrun : c.step cfg (.deliver target env) = c.runShard target
            (onCreateMatch (config cfg target) env.overRedis roomId whiteId blackId)
            fun _ shard => { shard with seen := shard.seen + 1 } := by
          rw [hstep, deliver, hevent]
          exact if_pos rfl
        exact runShard_keys hrun (.createMatch env roomId whiteId blackId hready hevent) hready.1
          (fun _ _ => rfl) (fun _ _ => rfl) (onCreateMatch_keys rfl roomId whiteId blackId)
      · refine hpassed (hstep.trans ?_) hskipped rfl
        rw [deliver, hevent]
        exact if_neg htarget

/-- A pass of the runtime of a shard. -/
theorem runOnce_keys {env : Env} (hready : (c.shards shardId).Ready) :
    DirectoryStep cfg c (c.step cfg (.runOnce shardId env)) (.runOnce shardId env) := by
  have hload : (c.step cfg (.runOnce shardId env)).load shardId =
      after (ServerRuntime.runOnce (config cfg shardId) env.overRedis) (c.load shardId) := by
    simp only [step, if_pos hready]
    exact load_runShard _ fun _ _ => rfl
  have hopens : ∀ {event : Event}, event = .tickAll ∨ event = .processDisconnectGrace →
      ∀ a, Action.Of (env.overRedis, event) a → ¬ a.Opens := by
    intro event hevent a hof hopens
    obtain ⟨u, rfl⟩ | ⟨r, whiteId, blackId, rfl⟩ | rfl := hof.opens hopens <;> simp at hevent
  -- neither part of a pass opens a room
  have hfurnished : ∀ (s : Server) (event : Event),
      event = .tickAll ∨ event = .processDisconnectGrace → Furnished s →
        Furnished (s.step (config cfg shardId) (env.overRedis, event)) :=
    fun s event hevent => (Furnished.of_acts (hopens hevent) (s.step_acts _ _)).2
  have htick := tickAll_keys (config cfg shardId) env.overRedis (c.load shardId)
  -- the clock, and the grace if the clock has not raised
  refine .passed shardId env hready (fun id => sameShard_others rfl) ?_ ?_
  · rw [hload]
    obtain h | h := @after_runOnce (config cfg shardId) env.overRedis (c.load shardId) shardId rfl
    · rw [h]
      exact htick
    · rw [h]
      exact htick.trans (processDisconnectGrace_keys _ _ _)
  · rw [hload]
    intro hs
    obtain h | h := @after_runOnce (config cfg shardId) env.overRedis (c.load shardId) shardId rfl
    · rw [h]
      exact hfurnished _ .tickAll (Or.inl rfl) hs
    · rw [h]
      exact hfurnished _ .processDisconnectGrace (Or.inr rfl)
        (hfurnished _ .tickAll (Or.inl rfl) hs)

/-- A gateway call deletes a key when its `reconnect` has been refused. -/
theorem advance_keys (requestId : Nat) :
    DirectoryStep cfg c (c.step cfg (.advance requestId)) (.advance requestId) := by
  have hshards : ∀ id, SameShard c (c.step cfg (.advance requestId)) id :=
    fun id => sameShard_step (by simp [Input.shardId?])
  -- all but one of the commands of a call leave the keys alone
  have hkept : (c.advance cfg requestId).allocator = c.allocator →
      DirectoryStep cfg c (c.step cfg (.advance requestId)) (.advance requestId) :=
    fun h => .kept _ hshards h
  cases hcall : c.calls[requestId]? with
  | none =>
    refine hkept ?_
    rw [advance, hcall]
  | some call =>
    obtain ⟨request, phase⟩ := call
    cases phase with
    | begun =>
      refine hkept ?_
      rw [advance, hcall]
      dsimp only
      unfold route
      split <;> rfl
    | located | addressed =>
      refine hkept ?_
      rw [advance, hcall]
      rfl
    | waiting id =>
      refine hkept ?_
      rw [advance, hcall]
      dsimp only
      split <;> rfl
    | refused =>
      -- the only Redis command of a call that writes a key
      cases hrequest : request.reconnects with
      | none =>
        refine hkept ?_
        rw [advance, hcall]
        dsimp only
        rw [hrequest]
      | some userId =>
        have hreconnect : request = .reconnect userId := by
          cases request <;> cases hrequest
          rfl
        subst hreconnect
        refine .unbound requestId userId hcall hshards ?_
        simp only [step, advance, hcall]
        rfl
    | returned =>
      refine hkept ?_
      rw [advance, hcall]

/-- **What a step does to the directory.** -/
theorem directoryStep (cfg : ClusterConfig) (c : Cluster) (i : Input) :
    DirectoryStep cfg c (c.step cfg i) i := by
  cases i with
  -- the gateway writes no key here
  | register | call | expire =>
    exact .kept _ (fun id => sameShard_step (by simp [Input.shardId?])) rfl
  | advance requestId => exact advance_keys requestId
  | timeout requestId =>
    refine .kept _ (fun id => sameShard_step (by simp [Input.shardId?])) ?_
    simp only [step, timeout]
    split <;> rfl
  | reply id =>
    refine .kept _ (fun id => sameShard_step (by simp [Input.shardId?])) ?_
    simp only [step, reply]
    split <;> rfl
  | matchmaker input =>
    have hshards : ∀ id, SameShard c (c.step cfg (.matchmaker input)) id :=
      fun id => sameShard_step (by simp [Input.shardId?])
    cases input with
    -- the worker claims a room for the shard it has chosen
    | work drawn =>
      cases hworker : (c.matchmaker.step cfg.shards (.work drawn)).worker with
      | allocated later used roomId whiteId blackId target =>
        refine .claimed roomId drawn target ⟨later, used, whiteId, blackId, hworker⟩ hshards ?_
        simp only [step, matchmake, hworker]
      | _ =>
        refine .kept _ hshards ?_
        simp only [step, matchmake, hworker]
    | enqueue | write | cancel | tick => exact .kept _ hshards rfl
  | execute id env =>
    by_cases hready : (c.shards id).Ready
    · exact execute_keys hready
    · rw [show c.step cfg (.execute id env) = c from if_neg hready]
      exact .kept _ (fun _ => .refl) rfl
  | deliver id env =>
    by_cases hready : (c.shards id).Ready
    · exact deliver_keys hready
    · rw [show c.step cfg (.deliver id env) = c from if_neg hready]
      exact .kept _ (fun _ => .refl) rfl
  | runOnce id env =>
    by_cases hready : (c.shards id).Ready
    · exact runOnce_keys hready
    · rw [show c.step cfg (.runOnce id env) = c from if_neg hready]
      exact .kept _ (fun _ => .refl) rfl

/-- A process that is up has an engine for every room. -/
theorem furnished_step {i : Input}
    (h : ∀ id, (c.shards id).crashed = false → Furnished (c.load id)) (id : String)
    (halive : ((c.step cfg i).shards id).crashed = false) : Furnished ((c.step cfg i).load id) := by
  -- a shard that is the same is still furnished
  have hsame : SameShard c (c.step cfg i) id → Furnished ((c.step cfg i).load id) :=
    fun hs => (h id (hs.crashed.symm.trans halive)).of_sameServices hs.services
  have hbefore : Furnished (c.load id) := h id (alive_of_step halive)
  cases directoryStep cfg c i with
  | kept i hshards hallocator => exact hsame (hshards id)
  | unbound requestId userId hcall hshards hallocator => exact hsame (hshards id)
  | claimed roomId drawn shardId hworker hshards hallocator => exact hsame (hshards id)
  -- the shard that has handled an event has written its own keys
  | handled i shardId env event hhandles halive' hothers hkeys =>
    by_cases hid : id = shardId
    · subst hid
      exact hkeys.furnished hbefore
    · exact hsame (hothers id hid)
  -- a process that has ended is not up
  | ended i shardId hcrashed hothers hallocator =>
    refine hsame (hothers id ?_)
    rintro rfl
    exact absurd (halive.symm.trans hcrashed) (by simp)
  | passed shardId env hready hothers hkeys hfurnished =>
    by_cases hid : id = shardId
    · subst hid
      exact hfurnished hbefore
    · exact hsame (hothers id hid)

end Steps

/-! ### The way to a game -/

/-- A game of the shard that is not over. -/
structure Hosts (c : Cluster) (shardId : String) (roomId : RoomId) : Prop where
  alive : (c.shards shardId).crashed = false
  room : (c.load shardId).rooms.get? roomId ≠ none
  running : Running (c.load shardId) roomId

/-- The shard makes the user a member of a room, whose game may be over. -/
def Enters (c : Cluster) (i : Input) (shardId : String) (roomId : RoomId) (userId : UserId)
    (event : Event) : Prop :=
  ∃ env role, Handles c shardId i [(env, event)] ∧
    KungFuChess.Seats (c.load shardId) env roomId userId role event ∧
      ¬ Breaks (c.load shardId) env event

/-- The matchmaker claims a room for a shard. -/
def Claims (cfg : ClusterConfig) (c : Cluster) (i : Input) (roomId : RoomId) (shardId : String) :
    Prop :=
  ∃ drawn later used whiteId blackId, i = .matchmaker (.work drawn) ∧
    (c.matchmaker.step cfg.shards (.work drawn)).worker =
      .allocated later used roomId whiteId blackId shardId

/-- A pass of the runtime of a shard, when the game of a room is over and its result due. -/
def Releases (c : Cluster) (i : Input) (shardId : String) (roomId : RoomId) : Prop :=
  (∃ env, i = .runOnce shardId env) ∧ (c.shards shardId).Ready ∧
    ResultDue (c.load shardId) roomId ∧ ¬ Running (c.load shardId) roomId

/-- A gateway deletes the key of the user, whose `reconnect` has been refused. -/
def Unbinds (c : Cluster) (i : Input) (userId : UserId) : Prop :=
  ∃ requestId, i = .advance requestId ∧ c.calls[requestId]? = some ⟨.reconnect userId, .refused⟩

/-- The user is a member of no room whose game is not over. -/
def Unseated (c : Cluster) (userId : UserId) : Prop :=
  ∀ shardId roomId role, ¬ Seated c shardId roomId userId role

/-- If the user is a member of such a room, the shard has it. -/
def SeatedOnly (c : Cluster) (shardId : String) (userId : UserId) : Prop :=
  ∀ {id r role}, Seated c id r userId role → id = shardId

/-- If a game of that name is not over, the shard has it. -/
def HostedOnly (c : Cluster) (shardId : String) (roomId : RoomId) : Prop :=
  ∀ {id}, Hosts c id roomId → id = shardId

/-- The step concerns no user and no room of another shard. -/
structure Apart (cfg : ClusterConfig) (c : Cluster) (i : Input) : Prop where
  enters : ∀ {id r u event}, c.Enters i id r u event → c.SeatedOnly id u
  opens : ∀ {id r u event}, c.Enters i id r u event → ¬ event.Joins → c.HostedOnly id r
  claims : ∀ {r id}, c.Claims cfg i r id → c.HostedOnly id r
  releases : ∀ {id r}, c.Releases i id r →
    (∀ u, IsPlayer (c.load id) r u → c.SeatedOnly id u) ∧ c.HostedOnly id r

/-- The keys lead to the games that are not over, and their members to their game. -/
structure Routed (c : Cluster) : Prop where
  user : ∀ {id r u role}, Seated c id r u role → c.allocator.userRoom.get? u = some r
  room : ∀ {id r}, Hosts c id r → c.allocator.roomShard.get? r = some id

section Routed

variable {cfg : ClusterConfig} {c c' : Cluster} {i : Input} {id shardId : String} {r : RoomId}
  {u : UserId} {role : PlayerRole}

/-- Who is seated is a member of a room. -/
theorem Seated.room (h : Seated c id r u role) : ∃ room member,
    (c.load id).rooms.get? r = some room ∧ room.members.get? u = some member := by
  obtain ⟨member, hmember, -⟩ := Option.map_eq_some_iff.mp h.seated.member
  obtain ⟨room, hroom, hmember⟩ := Option.bind_eq_some_iff.mp hmember
  exact ⟨room, member, hroom, hmember⟩

/-- Who is seated sits in a room that the shard hosts. -/
theorem Seated.hosts (h : Seated c id r u role) : Hosts c id r := by
  obtain ⟨room, -, hroom, -⟩ := h.room
  refine ⟨h.alive, ?_, h.seated.running⟩
  rw [hroom]
  simp

theorem Seated.mapped (hrooms : RoomInv (c.load id)) (h : Seated c id r u role) :
    (c.load id).userRoom.get? u = some r := by
  obtain ⟨room, member, hroom, hmember⟩ := h.room
  exact hrooms.mapped hroom hmember

theorem Seated.of_sameShard (h : Seated c' id r u role) (hsame : SameShard c c' id) :
    Seated c id r u role :=
  ⟨hsame.crashed.symm.trans h.alive, h.seated.of_sameServices hsame.services.symm⟩

theorem Hosts.of_sameShard (h : Hosts c' id r) (hsame : SameShard c c' id) : Hosts c id r := by
  refine ⟨hsame.crashed.symm.trans h.alive, ?_, h.running.of_sameServices hsame.services⟩
  rw [← hsame.services.rooms]
  exact h.room

/-- A game that is not over has not been over before. -/
theorem running_of_step (h : Running ((c.step cfg i).load id) r) : Running (c.load id) r := by
  obtain ⟨events, -, hsame⟩ := load_step cfg c i id
  have hplay : Running ((c.load id).play (config cfg id) events) r := h.of_sameServices hsame
  exact Run.stable (P := fun s => Running s r → Running (c.load id) r)
    (fun s event hs hrunning => hs (running_of_acts (s.step_acts _ event) hrunning))
    (fun hs => hs) hplay

/-- A room that is hosted after a step, and was there before, has been hosted before. -/
theorem Hosts.of_step (h : Hosts (c.step cfg i) id r)
    (hroom : (c.load id).rooms.get? r ≠ none) : Hosts c id r :=
  ⟨alive_of_step h.alive, hroom, running_of_step h.running⟩

/-- A shard handles one event. -/
theorem Handles.pair_eq {pair pair' : Env × Event} (h : Handles c id i [pair])
    (h' : Handles c id i [pair']) : pair = pair' := by
  -- the input says which of the three it is
  cases h with
  | command env requestId command rest event hready hcommands hevent =>
    cases h' with
    | command _ _ _ _ event' _ hcommands' hevent' =>
      cases hcommands.symm.trans hcommands'
      cases hevent.symm.trans hevent'
      rfl
  | createMatch env roomId whiteId blackId hready hevent =>
    cases h' with
    | createMatch _ _ _ _ _ hevent' =>
      cases hevent.symm.trans hevent'
      rfl
  | clock =>
    cases h' with
    | clock => rfl

/-- Where nothing has happened to the keys of the games that are left, they lead to them. -/
theorem Routed.of_same (hrouted : Routed c) (hshards : ∀ id, SameShard c c' id)
    (huser : ∀ {id r u role}, Seated c id r u role →
      c'.allocator.userRoom.get? u = c.allocator.userRoom.get? u)
    (hroom : ∀ {id r}, Hosts c id r → c'.allocator.roomShard.get? r = c.allocator.roomShard.get? r ∨
      c'.allocator.roomShard.get? r = some id) : Routed c' where
  user h := by
    have hold := h.of_sameShard (hshards _)
    exact (huser hold).trans (hrouted.user hold)
  room h := by
    have hold := h.of_sameShard (hshards _)
    obtain hsame | hsome := hroom hold
    · exact hsame.trans (hrouted.room hold)
    · exact hsome

/-- A handler of a shard. -/
theorem routed_handled (hrooms : ∀ id, RoomInv (c.load id)) (hrouted : Routed c)
    (hapart : Apart cfg c i) {env : Env} {event : Event}
    (hhandles : Handles c shardId i [(env, event)])
    (hothers : ∀ id, id ≠ shardId → SameShard c (c.step cfg i) id)
    (hkeys : KeysAfter shardId (c.load shardId) env event ((c.step cfg i).load shardId)) :
    Routed (c.step cfg i) where
  user {id r u role} h := by
    by_cases hid : id = shardId
    · subst hid
      obtain hold | ⟨env', event', hnew⟩ := seated_step h
      · obtain hsame | ⟨r', role', hseats, -⟩ := hkeys.user u
        · exact hsame.trans (hrouted.user hold)
        · -- a member of a room of the shard is not seated by it
          have hmapped := hold.mapped (hrooms id)
          exact absurd ((unmapped_of_seats hseats).symm.trans hmapped) (by simp)
      · cases hnew.handles.pair_eq hhandles
        exact hkeys.bound hnew.seats
    · -- a user of another shard is not concerned by the handler
      have hold := h.of_sameShard (hothers id hid)
      obtain hsame | ⟨r', role', hseats, hboard⟩ := hkeys.user u
      · exact hsame.trans (hrouted.user hold)
      · exact absurd (hapart.enters ⟨env, role', hhandles, hseats, hboard⟩ hold) hid
  -- and so for the rooms
  room {id r} h := by
    by_cases hid : id = shardId
    · subst hid
      -- the room has been there, or has been opened and claimed
      obtain hroom | hclaimed := hkeys.rooms r h.room
      · obtain hsame | ⟨hclaimed, -⟩ := hkeys.room r
        · exact hsame.trans (hrouted.room (h.of_step hroom))
        · exact hclaimed
      · exact hclaimed
    · have hold := h.of_sameShard (hothers id hid)
      obtain hsame | ⟨-, u, role, hseats, hboard, hjoins⟩ := hkeys.room r
      · exact hsame.trans (hrouted.room hold)
      · exact absurd (hapart.opens ⟨env, role, hhandles, hseats, hboard⟩ hjoins hold) hid

/-- A pass of the runtime of a shard. -/
theorem routed_passed (hrooms : ∀ id, RoomInv (c.load id)) (hrouted : Routed c) {env : Env}
    (hapart : Apart cfg c (.runOnce shardId env)) (hready : (c.shards shardId).Ready)
    (hothers : ∀ id, id ≠ shardId → SameShard c (c.step cfg (.runOnce shardId env)) id)
    (hkeys : KeysReleased (c.load shardId) ((c.step cfg (.runOnce shardId env)).load shardId)) :
    Routed (c.step cfg (.runOnce shardId env)) := by
  -- a pass opens no room
  have hroom : ∀ {r}, ((c.step cfg (.runOnce shardId env)).load shardId).rooms.get? r ≠ none →
      (c.load shardId).rooms.get? r ≠ none := by
    intro r hroom hnone
    have hsame : (((c.step cfg (.runOnce shardId env)).load shardId).rooms.get? r).map Room.roles =
        ((c.load shardId).rooms.get? r).map Room.roles :=
      congrFun (congrArg SeatMap.members hkeys.seatMap) r
    rw [hnone] at hsame
    exact hroom (Option.map_eq_none_iff.mp hsame)
  -- the keys lead to one shard only
  have hrouted_eq : ∀ {id r}, Hosts c id r → Hosts c shardId r → id = shardId := fun h h' =>
    Option.some.inj ((hrouted.room h).symm.trans (hrouted.room h'))
  have hreleases : ∀ {r}, ResultDue (c.load shardId) r → ¬ Running (c.load shardId) r →
      Releases c (.runOnce shardId env) shardId r :=
    fun hdue hnot => ⟨⟨env, rfl⟩, hready, hdue, hnot⟩
  constructor
  · intro id r u role h
    have hold : Seated c id r u role := by
      obtain hold | ⟨env', event, hnew⟩ := seated_step h
      · exact hold
      · -- the clock seats nobody
        have hseats := hnew.seats
        cases hnew.handles with
        | clock => exact hseats.elim
    obtain hsame | ⟨released, hplayer, hdue, hnot⟩ := hkeys.user u
    · exact hsame.trans (hrouted.user hold)
    -- the key of a player of a game that is over now has been deleted
    have helsewhere : id ≠ shardId ∨ r ≠ released := by
      by_contra hboth
      push Not at hboth
      obtain ⟨rfl, rfl⟩ := hboth
      exact hnot h.seated.running
    -- the game was running until this pass, or was over already
    by_cases hrunning : Running (c.load shardId) released
    · obtain ⟨role', hmember⟩ : ∃ role', memberRole (c.load shardId) released u = some role' :=
        hplayer.elim (fun hwhite => ⟨_, hwhite⟩) fun hblack => ⟨_, hblack⟩
      have hseated : Seated c shardId released u role' := ⟨hready.1, hmember, hrunning⟩
      obtain rfl : r = released :=
        Option.some.inj ((hrouted.user hold).symm.trans (hrouted.user hseated))
      exact absurd (hrouted_eq hold.hosts hseated.hosts) (helsewhere.resolve_right fun h => h rfl)
    · obtain rfl : id = shardId := (hapart.releases (hreleases hdue hrunning)).1 u hplayer hold
      have hmapped := (hrooms id).mapped_of_isPlayer hplayer
      exact absurd (Option.some.inj ((hold.mapped (hrooms id)).symm.trans hmapped))
        (helsewhere.resolve_left fun h => h rfl)
  · -- the key of a room
    intro id r h
    have hold : Hosts c id r := by
      by_cases hid : id = shardId
      · subst hid
        exact h.of_step (hroom h.room)
      · exact h.of_sameShard (hothers id hid)
    obtain hsame | ⟨hdue, hnot⟩ := hkeys.room r
    · exact hsame.trans (hrouted.room hold)
    have helsewhere : id ≠ shardId := by
      rintro rfl
      exact hnot h.running
    by_cases hrunning : Running (c.load shardId) r
    · refine absurd (hrouted_eq hold ⟨hready.1, hroom ?_, hrunning⟩) helsewhere
      -- a game that is over has an engine, and so a room
      unfold Running at hnot
      push Not at hnot
      obtain ⟨engine, hengine, -⟩ := hnot
      obtain ⟨room, hget⟩ := (roomInv_step _ hrooms shardId).roomed hengine
      rw [hget]
      simp
    · exact absurd ((hapart.releases (hreleases hdue hrunning)).2 hold) helsewhere

/-- **The keys lead to the games that are not over** after a step that deletes nobody's who is
in one, and concerns no user and no room of another shard. -/
theorem routed_step (hrooms : ∀ id, RoomInv (c.load id)) (hrouted : Routed c)
    (hapart : Apart cfg c i) (hunbinds : ∀ {u}, c.Unbinds i u → c.Unseated u) :
    Routed (c.step cfg i) := by
  cases directoryStep cfg c i with
  -- nothing is written
  | kept i hshards hallocator =>
    exact hrouted.of_same hshards (fun _ => by rw [hallocator]) fun _ => Or.inl (by rw [hallocator])
  | unbound requestId userId hcall hshards hallocator =>
    have hunseated := hunbinds ⟨requestId, rfl, hcall⟩
    refine hrouted.of_same hshards (fun {id r u role} h => ?_) fun _ =>
      Or.inl (by rw [hallocator]; rfl)
    -- the key of a user who is in a game is another one
    rw [hallocator]
    change (c.allocator.userRoom.pop userId).get? u = _
    rw [Dict.get?_pop, if_neg]
    rintro rfl
    exact hunseated id r role h
  | claimed roomId drawn shardId hworker hshards hallocator =>
    obtain ⟨later, used, whiteId, blackId, hworker⟩ := hworker
    -- a room that runs under the claimed name runs on the shard it is claimed for
    refine hrouted.of_same hshards (fun _ => by rw [hallocator]; rfl) fun {id r} h => ?_
    rw [hallocator]
    change (c.allocator.roomShard.set roomId shardId).get? r = _ ∨
      (c.allocator.roomShard.set roomId shardId).get? r = _
    rw [Dict.get?_set]
    split
    · next hr =>
      subst hr
      have hid := hapart.claims ⟨drawn, later, used, whiteId, blackId, rfl, hworker⟩ h
      exact Or.inr (congrArg some hid.symm)
    · exact Or.inl rfl
  -- a shard has handled a command or a match
  | handled i shardId env event hhandles halive hothers hkeys =>
    exact routed_handled hrooms hrouted hapart hhandles hothers hkeys
  -- a process that ends writes no key, and hosts nothing from now on
  | ended i shardId hcrashed hothers hallocator =>
    have hne : ∀ {id}, ((c.step cfg i).shards id).crashed = false → id ≠ shardId := by
      rintro id halive rfl
      exact absurd (halive.symm.trans hcrashed) (by simp)
    constructor
    · intro id r u role h
      rw [hallocator]
      exact hrouted.user (h.of_sameShard (hothers id (hne h.alive)))
    · intro id r h
      rw [hallocator]
      exact hrouted.room (h.of_sameShard (hothers id (hne h.alive)))
  | passed shardId env hready hothers hkeys hfurnished =>
    exact routed_passed hrooms hrouted hapart hready hothers hkeys

end Routed

end Cluster

end KungFuChess
