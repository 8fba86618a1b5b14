import KungFuChess.Server.RoomInv

/-!
# Who is rated

Ratings should change only for users who were players of the room when its game ended
(`PlayedAtEnd`). The code reads the seats when it applies the result, at whatever later
tick both are filled: a room whose game has ended stays open, `join_room` fills its free
seats, and `create_room` puts a new room in the place of an old one if it draws its
identifier, with the old engine. `SeatsLate` names the steps that seat a user in a room whose
game has ended; a run without them rates only those who played (`rated_played`).

The proof carries a statement about the history: whoever plays in a room whose game has
ended played there when it ended. Inside one event the clock and the forfeits seat nobody
(`Clocked`), and everything else ends no game and rates nobody (`Seating`).
-/

namespace KungFuChess

open RoomService GameService

/-! ### The condition and the property -/

/-- The room has an engine, and its game has ended. -/
def gameEnded (s : Server) (roomId : RoomId) : Bool :=
  (s.engines.get? roomId).any GameEngine.gameOver

/-- The room has an engine, and its game is running. -/
def gameRunning (s : Server) (roomId : RoomId) : Bool :=
  (s.engines.get? roomId).any fun engine => !engine.gameOver

/-- The step seats a user in a room whose game has ended: someone joins onto a free seat, or
someone opens a room under the identifier of such a room. -/
def SeatsLate (s : Server) (event : Env × Event) : Prop :=
  match event.2 with
  | .joinRoom userId roomId =>
    s.userRoom.get? userId = none ∧ gameEnded s roomId = true ∧
      (s.rooms.get? roomId).any (fun room => nextRole room ≠ .viewer) = true
  | .createRoom userId =>
    s.userRoom.get? userId = none ∧ gameEnded s (event.1.tokenHex userId) = true
  | _ => False

/-- The condition is read off the state and the event. -/
instance (s : Server) (event : Env × Event) : Decidable (SeatsLate s event) := by
  unfold SeatsLate
  split <;> infer_instance

/-- Some event of the run ended the game of the room, and the user was a player of the room
when it did. -/
def PlayedAtEnd (cfg : Config) (s : Server) (events : List (Env × Event)) (roomId : RoomId)
    (userId : UserId) : Prop :=
  ∃ n < events.length, gameRunning (s.play cfg (events.take n)) roomId = true ∧
    gameEnded (s.play cfg (events.take (n + 1))) roomId = true ∧
    IsPlayer (s.play cfg (events.take n)) roomId userId

/-! ### Players and engines -/

section Players

variable {s t : Server} {roomId r : RoomId} {userId u : UserId}

theorem gameEnded_iff : gameEnded s roomId = true ↔
    ∃ engine, s.engines.get? roomId = some engine ∧ engine.gameOver = true := by
  unfold gameEnded
  rw [Option.any_eq_true]

/-- A room with an engine has a game that runs or has ended. -/
theorem gameEnded_or_gameRunning (h : s.engines.contains roomId = true) :
    gameEnded s roomId = true ∨ gameRunning s roomId = true := by
  obtain ⟨engine, hengine⟩ := Dict.contains_iff.mp h
  unfold gameEnded gameRunning
  rw [hengine]
  cases hover : engine.gameOver with
  | true => exact Or.inl hover
  | false => exact Or.inr (by simp [hover])

/-- A change of one room makes a player of nobody who was none. -/
theorem IsPlayer.of_modify {f : Room → Room} (hrooms : t.rooms = s.rooms.modify roomId f)
    (hf : ∀ room v member, s.rooms.get? roomId = some room →
      (f room).members.get? v = some member → member.role ≠ .viewer →
      ∃ member', room.members.get? v = some member' ∧ member'.role = member.role)
    (h : IsPlayer t r u) : IsPlayer s r u := by
  obtain ⟨room, member, hroom, hmember, hrole⟩ := isPlayer_iff.mp h
  rw [hrooms, Dict.get?_modify] at hroom
  refine isPlayer_iff.mpr ?_
  split at hroom
  · next hr =>
    obtain ⟨room', hroom', rfl⟩ := Option.map_eq_some_iff.mp hroom
    obtain ⟨member', hmember', hsame⟩ := hf room' u member hroom' hmember hrole
    exact ⟨room', member', hr ▸ hroom', hmember', hsame ▸ hrole⟩
  · exact ⟨room, member, hroom, hmember, hrole⟩

/-- A connection says nothing about the seat. -/
theorem IsPlayer.of_connection {f : RoomMember → RoomMember}
    (hrole : ∀ member, (f member).role = member.role)
    (h : IsPlayer (s.modifyMember roomId userId f) r u) : IsPlayer s r u := by
  refine IsPlayer.of_modify rfl (fun room v member hroom hmember hviewer => ?_) h
  change (room.members.modify userId f).get? v = some member at hmember
  rw [Dict.get?_modify] at hmember
  split at hmember
  · next hv =>
    obtain ⟨member', hmember', rfl⟩ := Option.map_eq_some_iff.mp hmember
    exact ⟨member', hv ▸ hmember', (hrole member').symm⟩
  · exact ⟨member, hmember, rfl⟩

/-- A move ends no game. -/
theorem gameOver_tryPlayerMove (e : GameEngine) (color : Color) (startPos endPos : Position) :
    (e.tryPlayerMove color startPos endPos).1.gameOver = e.gameOver := by
  have hmove : (e.handleMoveRequest startPos endPos
      (GameEngine.chebyshevDurationMs startPos endPos)).1.gameOver = e.gameOver := by
    -- the request only adds a motion
    unfold GameEngine.handleMoveRequest
    split
    · rfl
    · dsimp only
      split <;> rfl
  unfold GameEngine.tryPlayerMove
  split
  · rfl
  split
  · rfl
  dsimp only
  split
  · rfl
  split <;> exact hmove

end Players

/-! ### Inside one event -/

/-- The events that advance the clocks or forfeit games. -/
def Event.isClock : Event → Bool
  | .tickAll | .processDisconnectGrace | .forceForfeit _ _ => true
  | _ => false

/-- What the clock and the forfeits keep, from the state before the event: they seat nobody,
create no engine, and rate players only. -/
structure Clocked (s t : Server) : Prop where
  players : ∀ {r u}, IsPlayer t r u → IsPlayer s r u
  engines : ∀ {r}, t.engines.contains r = true → s.engines.contains r = true
  calls : ∀ call ∈ t.setEloCalls, call ∈ s.setEloCalls ∨
    IsPlayer s call.roomId call.userId ∧ s.engines.contains call.roomId = true

theorem Clocked.refl (s : Server) : Clocked s s :=
  ⟨fun h => h, fun h => h, fun _ h => Or.inl h⟩

/-- **Step lemma** for the clock: no seat is taken, and who is rated plays now. -/
theorem Clocked.step {event : Env × Event} (hclock : event.2.isClock = true) {s t : Server}
    (h : Clocked s t) {a : Action} (hof : a.Of event) (ha : a.Enabled t) :
    Clocked s (a.apply t) := by
  obtain ⟨env, event⟩ := event
  cases a with
  | openRoom | openMatchedRoom | createEngine | startGame | join | leave | register | setQueue =>
    -- the clock takes none of these actions
    cases event <;> simp [Event.isClock, Action.Of] at hclock hof
  | connection roomId userId f =>
    exact ⟨fun hplayer => h.players (hplayer.of_connection ha), h.engines, h.calls⟩
  | engine roomId before call =>
    refine ⟨h.players, fun {r} hr => h.engines ?_, h.calls⟩
    obtain ⟨engine, hengine⟩ := Dict.contains_iff.mp hr
    change (t.setEngine roomId (call.apply before)).engines.get? r = some engine at hengine
    rw [Server.get?_setEngine] at hengine
    split at hengine
    · next hroom => exact Dict.contains_iff.mpr ⟨before, hroom ▸ ha⟩
    · exact Dict.contains_iff.mpr ⟨engine, hengine⟩
  | setElo roomId userId elo raised =>
    -- the rated users sit on the seats, and the engine is there
    refine ⟨h.players, h.engines, fun call hcall => ?_⟩
    obtain hcall | hcall := List.mem_append.mp hcall
    · exact h.calls call hcall
    · obtain ⟨whiteId, blackId, happ, huser⟩ := ha
      obtain ⟨engine, hengine, -⟩ := happ.ended
      rw [List.mem_singleton.mp hcall]
      exact Or.inr ⟨h.players (isPlayer_of_seat happ.players huser),
        h.engines (Dict.contains_iff.mpr ⟨engine, hengine⟩)⟩
  | markElo roomId =>
    refine ⟨fun hplayer => h.players (hplayer.of_members_eq ?_), h.engines, h.calls⟩
    exact Server.members_modifyRoom fun _ => by rfl
  | aside state =>
    change state = _ at ha
    change Clocked s state
    rw [ha]
    exact ⟨fun hplayer => h.players hplayer, h.engines, h.calls⟩

/-- What every other event keeps when it seats nobody late: no game ends, nobody is rated, and
a room whose game has ended gets no new player. The last field holds what the room looks like
as long as the user who opens or joins one has not been mapped. -/
structure Seating (s : Server) (event : Event) (t : Server) : Prop where
  inv : RoomInv t
  ended : ∀ {r}, gameEnded t r = true → gameEnded s r = true
  players : ∀ {r u}, gameEnded t r = true → IsPlayer t r u → IsPlayer s r u
  calls : t.setEloCalls = s.setEloCalls
  unseated : ∀ {u}, (event = .createRoom u ∨ ∃ r, event = .joinRoom u r) →
    t.userRoom.get? u = none → s.userRoom.get? u = none ∧
      ∀ r, (t.rooms.get? r).map Room.members = (s.rooms.get? r).map Room.members

namespace Seating

variable {s t : Server} {env : Env} {event : Event} {roomId : RoomId} {userId : UserId}

theorem refl (h : RoomInv s) (event : Event) : Seating s event s :=
  ⟨h, fun h => h, fun _ h => h, rfl, fun _ h => ⟨h, fun _ => rfl⟩⟩

/-- The writes that leave the engines, the members of the rooms and the map alone. -/
theorem aside (h : Seating s event t) {t' : Server} (hinv : RoomInv t')
    (hengines : t'.engines = t.engines) (hcalls : t'.setEloCalls = t.setEloCalls)
    (huserRoom : t'.userRoom = t.userRoom)
    (hmembers : ∀ r, (t'.rooms.get? r).map Room.members = (t.rooms.get? r).map Room.members) :
    Seating s event t' := by
  have hended : ∀ {r}, gameEnded t' r = true → gameEnded t r = true := by
    intro r hr
    unfold gameEnded at hr ⊢
    rwa [hengines] at hr
  refine ⟨hinv, fun hr => h.ended (hended hr),
    fun hr hplayer => h.players (hended hr) (hplayer.of_members_eq (hmembers _)),
    hcalls.trans h.calls, fun hevent hu => ?_⟩
  obtain ⟨hfree, hsame⟩ := h.unseated hevent (huserRoom ▸ hu)
  exact ⟨hfree, fun r => (hmembers r).trans (hsame r)⟩

/-- A room that is opened anew is empty, and its old game, if any, has not ended. -/
theorem openRoom (h : Seating s (.createRoom userId) t)
    (hlate : ¬ SeatsLate s (env, .createRoom userId))
    (huser : t.userRoom.get? userId = none) :
    Seating s (.createRoom userId) ((Action.openRoom (env.tokenHex userId) userId).apply t) := by
  refine ⟨h.inv.openRoom huser, h.ended, fun {r u} hr hplayer => ?_, h.calls, fun {u} hevent hu => ?_⟩
  · by_cases hroom : r = env.tokenHex userId
    · -- the new room has no engine whose game has ended
      have hfree := (h.unseated (Or.inl rfl) huser).1
      exact absurd ⟨hfree, hroom ▸ h.ended hr⟩ hlate
    · refine h.players hr (hplayer.of_members_eq ?_)
      exact congrArg _ (Dict.get?_set_of_ne _ _ hroom)
  · -- the user who opens the room is mapped now
    obtain hevent | ⟨_, hevent⟩ := hevent
    · cases hevent
      exact absurd ((Dict.get?_set_self t.userRoom userId _).symm.trans hu) (by simp)
    · cases hevent

/-- A user who joins, where no game has ended. -/
theorem join {room : Room} (h : Seating s (.joinRoom userId roomId) t)
    (hlate : ¬ SeatsLate s (env, .joinRoom userId roomId))
    (huser : t.userRoom.get? userId = none) (hroom : t.rooms.get? roomId = some room) :
    Seating s (.joinRoom userId roomId)
      ((Action.join roomId userId (nextRole room)).apply t) := by
  refine ⟨h.inv.join huser hroom, h.ended, fun {r u} hr hplayer => ?_, h.calls,
    fun {u} hevent hu => ?_⟩
  · by_cases hr' : r = roomId
    · subst hr'
      -- the game has ended, so nobody may take a seat: the user is a viewer
      obtain ⟨hfree, hmembers⟩ := h.unseated (Or.inr ⟨r, rfl⟩) huser
      have hviewer : nextRole room = .viewer := by
        by_contra hseat
        refine hlate ⟨hfree, h.ended hr, ?_⟩
        have hsame := hmembers r
        rw [hroom, Option.map_some] at hsame
        obtain ⟨room', hroom', hsame'⟩ := Option.map_eq_some_iff.mp hsame.symm
        rw [hroom', Option.any_some, decide_eq_true_eq]
        unfold nextRole Room.players at hseat ⊢
        rwa [hsame']
      refine h.players hr (hplayer.of_modify rfl fun room' v member hroom' hmember hrole => ?_)
      change (room'.members.set userId _).get? v = some member at hmember
      rw [Dict.get?_set] at hmember
      split at hmember
      · rw [← Option.some.inj hmember] at hrole
        exact absurd hviewer hrole
      · exact ⟨member, hmember, rfl⟩
    · refine h.players hr (hplayer.of_members_eq ?_)
      exact congrArg _ (Dict.get?_modify_of_ne _ _ hr')
  · obtain hevent | ⟨_, hevent⟩ := hevent
    · cases hevent
    · cases hevent
      exact absurd ((Dict.get?_set_self t.userRoom userId _).symm.trans hu) (by simp)

/-- An engine is written whose game has not ended, unless the old one's had. -/
theorem wroteEngine (h : Seating s event t) {engine : GameEngine}
    (hinv : RoomInv (t.setEngine roomId engine))
    (hover : engine.gameOver = true → gameEnded t roomId = true) :
    Seating s event (t.setEngine roomId engine) := by
  have hended : ∀ {r}, gameEnded (t.setEngine roomId engine) r = true →
      gameEnded t r = true := by
    -- an ended game afterwards was an ended game before
    intro r hr
    obtain ⟨e, he, hend⟩ := gameEnded_iff.mp hr
    rw [Server.get?_setEngine] at he
    split at he
    · next hroom =>
      cases he
      exact hroom ▸ hover hend
    · exact gameEnded_iff.mpr ⟨e, he, hend⟩
  exact ⟨hinv, fun hr => h.ended (hended hr), fun hr hplayer => h.players (hended hr) hplayer,
    h.calls, h.unseated⟩

/-- The matchmaker opens a room under an unused identifier. -/
theorem openMatchedRoom (h : Seating s event t) {userA userB : UserId}
    (ha : (Action.openMatchedRoom roomId userA userB).Enabled t)
    (hevent : ∀ u, event ≠ .createRoom u ∧ ∀ r, event ≠ .joinRoom u r) :
    Seating s event ((Action.openMatchedRoom roomId userA userB).apply t) := by
  refine ⟨h.inv.openMatchedRoom ha.1 ha.2.1, h.ended, fun {r u} hr hplayer => ?_, h.calls,
    fun {u} hjoin _ => ?_⟩
  · by_cases hroom : r = roomId
    · -- there was no room, hence no engine
      obtain ⟨engine, hengine, -⟩ := gameEnded_iff.mp hr
      obtain ⟨room, hroom'⟩ := h.inv.roomed hengine
      exact absurd ((hroom ▸ hroom').symm.trans ha.2.2) (by simp)
    · refine h.players hr (hplayer.of_members_eq ?_)
      exact congrArg _ (Dict.get?_set_of_ne _ _ hroom)
  · exact hjoin.elim (fun h => absurd h (hevent u).1) fun ⟨r, h⟩ => absurd h ((hevent u).2 r)

/-- A viewer leaves. -/
theorem leave (h : Seating s (.clientDisconnected userId) t)
    (ha : (Action.leave roomId userId).Enabled t) :
    Seating s (.clientDisconnected userId) ((Action.leave roomId userId).apply t) := by
  refine ⟨h.inv.step ha, h.ended, fun {r u} hr hplayer => h.players hr ?_, h.calls,
    fun {u} hjoin _ => ?_⟩
  · refine hplayer.of_modify rfl fun room v member _ hmember _ => ⟨member, ?_, rfl⟩
    change (room.members.pop userId).get? v = some member at hmember
    rw [Dict.get?_pop] at hmember
    split at hmember
    · exact absurd hmember (by simp)
    · exact hmember
  · obtain h | ⟨r, h⟩ := hjoin
    · exact absurd h (by simp)
    · exact absurd h (by simp)

/-- **An event that is not the clock's and seats nobody late.** -/
theorem step (hclock : event.isClock = false) (hlate : ¬ SeatsLate s (env, event))
    (h : Seating s event t) {a : Action} (hof : a.Of (env, event)) (ha : a.Enabled t) :
    Seating s event (a.apply t) := by
  cases a with
  | openRoom roomId creator =>
    obtain ⟨rfl, rfl⟩ := hof
    exact h.openRoom hlate ha
  | openMatchedRoom roomId userA userB =>
    refine h.openMatchedRoom ha fun u => ?_
    obtain ⟨rfl, -⟩ | rfl := hof
    · exact ⟨nofun, fun _ => nofun⟩
    · exact ⟨nofun, fun _ => nofun⟩
  -- a new engine has no game that is over
  | createEngine roomId board => exact h.wroteEngine (h.inv.step ha) fun hover => nomatch hover
  | startGame roomId =>
    exact h.aside h.inv.startGame rfl rfl rfl fun r => Server.members_modifyRoom fun _ => by rfl
  | join roomId userId role =>
    obtain rfl := hof
    obtain ⟨huser, room, hroom, rfl⟩ := ha
    exact h.join hlate huser hroom
  | leave roomId userId =>
    obtain rfl := hof
    exact h.leave ha
  | connection roomId userId f =>
    refine ⟨h.inv.step ha, h.ended, fun hr hplayer => h.players hr (hplayer.of_connection ha),
      h.calls, fun {u} hjoin => ?_⟩
    -- nobody opens or joins a room in such an event
    obtain rfl | ⟨r, rfl⟩ := hjoin <;> exact hof.elim
  | engine roomId before call =>
    refine h.wroteEngine (h.inv.step ha) fun hover => ?_
    cases call with
    -- the refused request leaves the engine, the accepted one needs a running game
    | move color startPos endPos =>
      have hbefore : before.gameOver = true := by
        rw [← gameOver_tryPlayerMove before color startPos endPos]
        exact hover
      exact gameEnded_iff.mpr ⟨before, ha, hbefore⟩
    | tick =>
      obtain rfl := hof
      -- the ticks are left out here
      exact nomatch hclock
    | forfeit winner => cases event <;> simp [Event.isClock, Action.Of] at hclock hof
  | setElo | markElo => cases event <;> simp [Event.isClock, Action.Of] at hclock hof
  | register | setQueue => exact h.aside (h.inv.step ha) rfl rfl rfl fun _ => rfl
  | aside state =>
    have hinv := h.inv.step ha
    change state = _ at ha
    change RoomInv state at hinv
    change Seating s event state
    refine h.aside hinv ?_ ?_ ?_ fun r => ?_ <;> rw [ha]

end Seating

/-! ### The history -/

section History

variable {cfg : Config} {start : Server} {pre : List (Env × Event)} {event : Env × Event}
  {roomId : RoomId} {userId : UserId}

/-- Who played at the end of a game keeps having played. -/
theorem PlayedAtEnd.append (h : PlayedAtEnd cfg start pre roomId userId) :
    PlayedAtEnd cfg start (pre ++ [event]) roomId userId := by
  obtain ⟨n, hn, hrunning, hended, hplayer⟩ := h
  refine ⟨n, by rw [List.length_append]; omega, ?_, ?_, ?_⟩
  · rwa [List.take_append_of_le_length (by omega)]
  · rwa [List.take_append_of_le_length (by omega)]
  · rwa [List.take_append_of_le_length (by omega)]

/-- The last event ends the game. -/
theorem PlayedAtEnd.last (hrunning : gameRunning (start.play cfg pre) roomId = true)
    (hended : gameEnded (start.play cfg (pre ++ [event])) roomId = true)
    (hplayer : IsPlayer (start.play cfg pre) roomId userId) :
    PlayedAtEnd cfg start (pre ++ [event]) roomId userId := by
  have htake : (pre ++ [event]).take pre.length = pre := List.take_left
  have hall : (pre ++ [event]).take (pre.length + 1) = pre ++ [event] :=
    List.take_of_length_le (by simp)
  exact ⟨pre.length, by simp, by rwa [htake], by rwa [hall], by rwa [htake]⟩

/-- What the history says: whoever plays in a room whose game has ended, and whoever has been
rated, played there when the game ended. -/
structure Deserved (cfg : Config) (start : Server) (pre : List (Env × Event)) : Prop where
  inv : RoomInv (start.play cfg pre)
  players : ∀ {r u}, gameEnded (start.play cfg pre) r = true →
    IsPlayer (start.play cfg pre) r u → PlayedAtEnd cfg start pre r u
  calls : ∀ call ∈ (start.play cfg pre).setEloCalls,
    PlayedAtEnd cfg start pre call.roomId call.userId

/-- **Step lemma** for the history. -/
theorem Deserved.step (h : Deserved cfg start pre)
    (hlate : ¬ SeatsLate (start.play cfg pre) event) : Deserved cfg start (pre ++ [event]) := by
  have hacts := (start.play cfg pre).step_acts cfg event
  -- the rooms keep their invariant by any event
  have hinv : RoomInv (start.play cfg (pre ++ [event])) := by
    rw [Server.play_append]
    exact hacts.invariant (fun a u _ => fun ha hu => hu.step ha) h.inv
  by_cases hclock : event.2.isClock = true
  · -- the clock: the players are who they were, and a game may end
    have hclocked : Clocked (start.play cfg pre) (start.play cfg (pre ++ [event])) := by
      rw [Server.play_append]
      exact hacts.invariant (fun a u hof ha hu => hu.step hclock hof ha) (Clocked.refl _)
    have hplayed : ∀ {r u}, gameEnded (start.play cfg (pre ++ [event])) r = true →
        IsPlayer (start.play cfg pre) r u → (start.play cfg pre).engines.contains r = true →
        PlayedAtEnd cfg start (pre ++ [event]) r u := by
      intro r u hended hplayer hengine
      obtain hbefore | hrunning := gameEnded_or_gameRunning hengine
      · exact (h.players hbefore hplayer).append
      · exact .last hrunning hended hplayer
    refine ⟨hinv, fun {r u} hended hplayer => ?_, fun call hcall => ?_⟩
    · obtain ⟨engine, hengine, -⟩ := gameEnded_iff.mp hended
      exact hplayed hended (hclocked.players hplayer)
        (hclocked.engines (Dict.contains_iff.mpr ⟨engine, hengine⟩))
    · obtain hold | ⟨hplayer, hengine⟩ := hclocked.calls call hcall
      · exact (h.calls call hold).append
      · exact hplayed (gameEnded_iff.mpr (hinv.calls call hcall)) hplayer hengine
  · -- anything else: no game ends, and nobody takes a seat of an ended one
    have hseating : Seating (start.play cfg pre) event.2 (start.play cfg (pre ++ [event])) := by
      rw [Server.play_append]
      exact hacts.invariant
        (fun a u hof ha hu => hu.step (Bool.eq_false_iff.mpr hclock) hlate hof ha)
        (Seating.refl h.inv event.2)
    refine ⟨hinv, fun {r u} hended hplayer => ?_, fun call hcall => ?_⟩
    · exact (h.players (hseating.ended hended) (hseating.players hended hplayer)).append
    · exact (h.calls call (hseating.calls ▸ hcall)).append

end History

/-- **Only who played is rated**, in every run that seats nobody late. -/
theorem rated_played (cfg : Config) (users : Dict UserId User) (games : Dict RoomId GameResult)
    (events : List (Env × Event))
    (hlate : Run.Guarded (Server.step cfg) (fun s event _ => ¬ SeatsLate s event)
      (Server.initial users games) events) :
    ∀ call ∈ ((Server.initial users games).play cfg events).setEloCalls,
      PlayedAtEnd cfg (Server.initial users games) events call.roomId call.userId := by
  have hstart : Deserved cfg (Server.initial users games) [] :=
    ⟨RoomInv.initial users games, fun h => absurd h (by simp [Server.play, Server.initial, gameEnded]),
      fun _ h => absurd h List.not_mem_nil⟩
  exact (Run.Guarded.history (P := Deserved cfg (Server.initial users games)) hstart
    (fun _ _ h hok => h.step hok) hlate).calls

/-- Bob joins while the game is running, and forfeits it. -/
def punctualRun : List (Env × Event) :=
  [.createRoom Small.alice, .joinRoom Small.bob Small.room,
    .forceForfeit Small.room Small.bob].map fun event => (Small.env ["wR bK"], event)

theorem rated_played_punctualRun :
    PlayedAtEnd Small.config Small.start punctualRun Small.room Small.bob :=
  rated_played Small.config _ _ punctualRun (by decide +kernel) ⟨Small.room, Small.bob, 1184, false⟩
    (by decide +kernel)

/-- Alice is alone in her room and disconnects. The grace expires and the game ends by forfeit;
then Bob joins, and the next tick rates both. -/
def lateRun : List (Env × Event) :=
  [(Small.env ["wR bK"], .createRoom Small.alice),
    (Small.env ["wR bK"], .clientDisconnected Small.alice),
    ({ Small.env ["wR bK"] with now := 20 }, .processDisconnectGrace),
    (Small.env ["wR bK"], .joinRoom Small.bob Small.room),
    (Small.env ["wR bK"], .tickAll)]

/-- Bob joins after the forfeit, and is rated for a game he has not played. -/
theorem not_playedAtEnd_lateRun :
    (∃ call ∈ (Small.start.play Small.config lateRun).setEloCalls,
      call.roomId = Small.room ∧ call.userId = Small.bob ∧ call.raised = false) ∧
      ((Small.start.play Small.config lateRun).users.get? Small.bob).map User.elo = some 1216 ∧
      ¬ PlayedAtEnd Small.config Small.start lateRun Small.room Small.bob := by
  unfold PlayedAtEnd
  decide +kernel

end KungFuChess
