import KungFuChess.Server.Seated

/-!
# What a shard does to the keys of the allocator

The runtime of a shard deletes keys when it applies the result of a game: the key of the
room, and those of its two players. So a key that is gone after a pass of the runtime
belonged to a room whose game is over and whose result had not been applied before
(`KeysReleased`). Moves, disconnects and reconnects touch no key.
-/

namespace KungFuChess

open Effect RoomService GameService

/-! ### One result -/

section Result

variable {cfg : Config} {env : Env} {s t : Server} {roomId : RoomId}

/-- The keys of the room and of its two players are gone, and the result was due before. -/
structure ReleasedBy (s : Server) (roomId : RoomId) (whiteId blackId : UserId) (t : Server) :
    Prop where
  pending : isEloUpdated s roomId = false
  players : getRoomPlayers s roomId = (some whiteId, some blackId)
  allocator : t.allocator = s.allocator.releaseMatch roomId [whiteId, blackId]

/-- The keys are as they were, or the game of the room has been released. -/
def KeysOf (s : Server) (roomId : RoomId) (t : Server) : Prop :=
  t.allocator = s.allocator ∨ ∃ whiteId blackId, ReleasedBy s roomId whiteId blackId t

/-- A call that may raise, with nothing written. -/
theorem perform_allocator (call : ExternalCall) (s : Server) :
    wp (perform env call) (fun _ t => t = s) (fun _ t => t = s) s :=
  wp_mono (perform_spec call) (fun _ _ h => h.1) fun _ _ h => h.1

/-- A message reaches no key. -/
theorem broadcastRoom_allocator (call : ExternalCall) (roomId : RoomId) (message : Message)
    (s : Server) :
    wp (broadcastRoom env call roomId message) (fun _ t => t.allocator = s.allocator)
      (fun _ t => t.allocator = s.allocator) s := by
  have hbroadcast : (s.broadcast roomId message).allocator = s.allocator := by
    unfold Server.broadcast
    split <;> rfl
  refine wp_mono (broadcastRoom_spec call roomId message) ?_ ?_
  · rintro _ t ⟨rfl, -⟩
    exact hbroadcast
  · rintro _ t ⟨rfl, -⟩
    rfl

/-- The announcement deletes the keys, if it comes that far. -/
theorem announceResult_allocator (result : GameResult) (ratings : List (String × Int)) (s : Server) :
    wp (announceResult cfg env result ratings)
      (fun _ t => t.allocator = s.allocator ∨
        t.allocator = s.allocator.releaseMatch result.roomId [result.whiteId, result.blackId])
      (fun _ t => t.allocator = s.allocator) s := by
  have hrecord : wp (tryCatch (GameHistoryStore.record env result) fun _ => pure ())
      (fun _ t => t.allocator = s.allocator) (fun _ _ => False) s := by
    rw [wp_tryCatch]
    unfold GameHistoryStore.record
    refine wp_call (perform_allocator _ s) ?_ ?_
    · rintro _ t rfl
      rfl
    · rintro _ t rfl
      rw [wp_modify]
      split <;> rfl
  unfold announceResult
  -- the release comes last, and before it an exception leaves the keys as they are
  refine wp_call hrecord (fun _ _ h => h.elim) fun _ t ht => ?_
  refine wp_call (broadcastRoom_allocator _ _ _ t) (fun _ u hu => hu.trans ht) fun _ u hu => ?_
  rw [wp_tryCatch]
  unfold onGameFinished
  split
  · exact Or.inl (hu.trans ht)
  · refine wp_call (perform_allocator _ u) ?_ ?_
    · rintro _ v rfl
      exact Or.inl (hu.trans ht)
    · rintro _ v rfl
      rw [wp_modify, ← ht, ← hu]
      exact Or.inr rfl

/-- An attempt to apply the result of a room. -/
theorem applyElo_keys (engine : GameEngine) (s : Server) :
    wp (applyElo cfg env roomId engine) (fun _ t => KeysOf s roomId t)
      (fun _ t => KeysOf s roomId t) s := by
  have hsame : ∀ {u : Server}, u.allocator = s.allocator → KeysOf s roomId u := Or.inl
  unfold applyElo
  rw [wp_bind, wp_get]
  -- every way out before the announcement leaves the keys alone
  split
  · exact hsame rfl
  next hpending =>
  split
  · exact hsame rfl
  next winner _ =>
  refine wp_call (getRoomPlayersForElo_spec _ _) ?_ ?_
  · rintro _ t ⟨rfl, -⟩
    exact hsame rfl
  rintro _ t ⟨rfl, rfl, -⟩
  cases hboth : (t.playersOf roomId).both with
  | none => exact hsame rfl
  | some both =>
    obtain ⟨whiteId, blackId, whiteName, blackName⟩ := both
    obtain ⟨white, black, hrated⟩ := exists_rated hboth
    dsimp only
    refine wp_call (getById_spec _ _) ?_ ?_
    · rintro _ u ⟨rfl, -⟩
      exact hsame rfl
    rintro _ u ⟨rfl, rfl, -⟩
    refine wp_call (getById_spec _ _) ?_ ?_
    · rintro _ v ⟨rfl, -⟩
      exact hsame rfl
    rintro _ v ⟨rfl, rfl, -⟩
    rw [hrated.white, hrated.black]
    dsimp only
    -- the ratings are written and the room is marked; only then are the keys deleted
    unfold writeRatings
    rw [wp_bind]
    refine wp_call (setElo_spec _ _ _) ?_ ?_
    · rintro _ u ⟨rfl, -⟩
      exact hsame rfl
    rintro _ u ⟨rfl, -⟩
    refine wp_call (setElo_spec _ _ _) ?_ ?_
    · rintro _ u ⟨rfl, -⟩
      exact hsame rfl
    rintro _ u ⟨rfl, -⟩
    unfold markEloUpdated
    rw [wp_modify]
    refine wp_mono (announceResult_allocator _ _ _) ?_ fun _ u hu => hsame hu
    rintro _ u (hu | hu)
    · exact hsame hu
    · exact Or.inr ⟨whiteId, blackId, Bool.eq_false_iff.mpr hpending, hrated.players, hu⟩

/-- The keys are as they were, or a game that is over has been released. -/
def KeysStep (s t : Server) : Prop :=
  t.allocator = s.allocator ∨
    ∃ r whiteId blackId, ReleasedBy s r whiteId blackId t ∧ ¬ Running t r

/-- The attempt comes after other writes, which have left rooms and keys alone. -/
theorem KeysOf.keysStep {u : Server} (h : KeysOf u roomId t) (hrooms : u.rooms = s.rooms)
    (hallocator : u.allocator = s.allocator) (hover : ¬ Running t roomId) : KeysStep s t := by
  obtain hsame | ⟨whiteId, blackId, hreleased⟩ := h
  · exact Or.inl (hsame.trans hallocator)
  · refine Or.inr ⟨roomId, whiteId, blackId, ⟨?_, ?_, ?_⟩, hover⟩
    · rw [← hreleased.pending]
      exact isEloUpdated_congr (by rw [hrooms])
    · rw [← hreleased.players]
      exact getRoomPlayers_congr (by rw [hrooms])
    · rw [hreleased.allocator, hallocator]

/-- An attempt for a game that is over. -/
theorem applyElo_keysStep {u : Server} {engine : GameEngine} (hrooms : u.rooms = s.rooms)
    (hallocator : u.allocator = s.allocator) (hengine : u.engines.get? roomId = some engine)
    (hover : engine.gameOver = true) :
    wp (applyElo cfg env roomId engine) (fun _ t => KeysStep s t) (fun _ t => KeysStep s t) u := by
  have hend : ∀ {t raised}, EloAttempt cfg env roomId engine u raised t → ¬ Running t roomId := by
    intro t raised h hrunning
    rw [← h.frame.engines] at hengine
    exact absurd ((hrunning engine hengine).symm.trans hover) (by simp)
  refine wp_mono (wp_and (applyElo_keys engine u) (applyElo_cases cfg env roomId engine u)) ?_ ?_
  · exact fun _ t h => h.1.keysStep hrooms hallocator (hend h.2)
  · exact fun _ t h => h.1.keysStep hrooms hallocator (hend h.2)

/-- One pass of the clock loop. -/
theorem tickRoom_keysStep (cfg : Config) (env : Env) (roomId : RoomId) (s : Server) :
    wp (tickRoom cfg env roomId) (fun _ t => KeysStep s t) (fun _ t => KeysStep s t) s := by
  unfold tickRoom
  rw [wp_bind, wp_get]
  cases hengine : s.engines.get? roomId with
  | none => exact Or.inl rfl
  | some engine =>
    dsimp only
    rw [wp_bind, wp_modify]
    -- the clock has ticked, and the attempt is made for the engine after it
    have hbroadcast : wp (broadcastFinished env roomId engine (engine.updateGameClock tickMs))
        (fun _ u => u.rooms = s.rooms ∧ u.allocator = s.allocator ∧
          u.engines.get? roomId = some (engine.updateGameClock tickMs))
        (fun _ u => u.allocator = s.allocator)
        (s.setEngine roomId (engine.updateGameClock tickMs)) := by
      have hset : (s.setEngine roomId (engine.updateGameClock tickMs)).engines.get? roomId =
          some (engine.updateGameClock tickMs) := by rw [Server.get?_setEngine, if_pos rfl]
      unfold broadcastFinished
      split
      · refine wp_mono (broadcastRoom_spec _ _ _) ?_ ?_
        · rintro _ u ⟨rfl, -⟩
          unfold Server.broadcast
          split
          · exact ⟨rfl, rfl, hset⟩
          · exact ⟨rfl, rfl, hset⟩
        · rintro _ u ⟨rfl, -⟩
          rfl
      · exact ⟨rfl, rfl, hset⟩
    refine wp_call hbroadcast (fun _ u hu => Or.inl hu) ?_
    rintro _ u ⟨hrooms, hallocator, hengine'⟩
    rw [wp_bind, wp_get]
    split
    · next hdue => exact applyElo_keysStep hrooms hallocator hengine' hdue.1
    · exact Or.inl hallocator

/-- A forfeit, down to the keys its result releases. -/
theorem forceForfeit_keysStep (cfg : Config) (env : Env) (roomId : RoomId) (loser : UserId)
    (s : Server) :
    wp (forceForfeit cfg env roomId loser) (fun _ t => KeysStep s t) (fun _ t => KeysStep s t) s := by
  unfold GameService.forceForfeit
  rw [wp_bind, wp_get]
  cases hengine : s.engines.get? roomId with
  | none => exact Or.inl rfl
  | some engine =>
    dsimp only
    split
    · exact Or.inl rfl
    refine wp_call (getRoomPlayersForElo_spec _ _) ?_ ?_
    · rintro _ t ⟨rfl, -⟩
      exact Or.inl rfl
    -- the names raise before anything is written, and the result comes after the engine is ended
    rintro _ t ⟨rfl, rfl, -⟩
    split
    · exact Or.inl rfl
    · next winner _ =>
      rw [wp_bind, wp_modify]
      refine applyElo_keysStep (by rfl) (by rfl) ?_ (gameOver_forceForfeit engine winner)
      rw [Server.get?_setEngine, if_pos rfl]

end Result

/-! ### A pass of the runtime -/

/-- The result of the room has not been applied, and both seats are taken. -/
structure ResultDue (s : Server) (roomId : RoomId) : Prop where
  pending : isEloUpdated s roomId = false
  players : ∃ whiteId blackId, getRoomPlayers s roomId = (some whiteId, some blackId)

/-- What has happened to the keys since `s`: those that are gone belong to games that are over
and whose result was due in `s`. -/
structure KeysReleased (s t : Server) : Prop where
  seatMap : t.seatMap = s.seatMap
  players : ∀ r, getRoomPlayers t r = getRoomPlayers s r
  marked : ∀ r, isEloUpdated s r = true → isEloUpdated t r = true
  running : ∀ r, Running t r → Running s r
  user : ∀ u, t.allocator.userRoom.get? u = s.allocator.userRoom.get? u ∨
    ∃ r, IsPlayer s r u ∧ ResultDue s r ∧ ¬ Running t r
  room : ∀ r, t.allocator.roomShard.get? r = s.allocator.roomShard.get? r ∨
    ResultDue s r ∧ ¬ Running t r

/-- The writes of the runtime: none of them seats anybody. -/
def Action.Settles : Action → Prop
  | .engine _ _ _ | .setElo _ _ _ _ | .markElo _ | .connection _ _ _ | .aside _ => True
  | _ => False

section Runtime

variable {s t u : Server}

/-- A mark that is set stays while rooms are changed in other ways. -/
theorem isEloUpdated_modifyRoom {f : Room → Room} {roomId r : RoomId}
    (hf : ∀ room : Room, room.eloUpdated = true → (f room).eloUpdated = true)
    (h : isEloUpdated s r = true) : isEloUpdated (s.modifyRoom roomId f) r = true := by
  unfold isEloUpdated at h ⊢
  rw [Server.get?_modifyRoom]
  split
  · next hr =>
    subst hr
    cases hroom : s.rooms.get? r with
    | none => simp [hroom] at h
    | some room =>
      rw [hroom] at h
      exact hf room h
  · exact h

/-- Nobody is seated or unseated. -/
theorem Action.Settles.seatMap {a : Action} (h : a.Settles) (ha : a.Enabled s) :
    (a.apply s).seatMap = s.seatMap := by
  rw [Action.seatMap_apply ha]
  cases a with
  | engine | setElo | markElo | connection | aside => rfl
  | _ => exact h.elim

/-- The seats do not depend on connections. -/
theorem getRoomPlayers_modifyMember {f : RoomMember → RoomMember} {roomId r : RoomId}
    {userId : UserId} (hf : ∀ member, (f member).role = member.role) :
    getRoomPlayers (s.modifyMember roomId userId f) r = getRoomPlayers s r := by
  unfold getRoomPlayers Server.modifyMember
  rw [Server.get?_modifyRoom]
  -- one room is changed, and in it the entry of one member
  by_cases hr : r = roomId
  · subst hr
    rw [if_pos rfl]
    cases s.rooms.get? r with
    | none => rfl
    | some room =>
      rw [Option.map_some]
      dsimp only
      rw [seatOf_modify hf, seatOf_modify hf]
  · rw [if_neg hr]

/-- So the players stay. -/
theorem Action.Settles.players {a : Action} (h : a.Settles) (ha : a.Enabled s) (r : RoomId) :
    getRoomPlayers (a.apply s) r = getRoomPlayers s r := by
  cases a with
  | engine | setElo => rfl
  | markElo roomId => exact EloFrame.getRoomPlayers_eq (Server.members_modifyRoom fun _ => by rfl)
  | connection roomId userId f => exact getRoomPlayers_modifyMember ha
  | aside state =>
    change getRoomPlayers state r = _
    rw [show state = _ from ha]
    rfl
  | _ => exact h.elim

/-- And so do the marks. -/
theorem Action.Settles.marked {a : Action} (h : a.Settles) (ha : a.Enabled s) {r : RoomId}
    (hmarked : isEloUpdated s r = true) : isEloUpdated (a.apply s) r = true := by
  cases a with
  | engine | setElo => exact hmarked
  | markElo roomId => exact isEloUpdated_modifyRoom (fun _ _ => rfl) hmarked
  | connection roomId userId f => exact isEloUpdated_modifyRoom (fun _ hroom => hroom) hmarked
  | aside state =>
    rw [← hmarked]
    refine isEloUpdated_congr ?_
    change state.rooms.get? r = s.rooms.get? r
    rw [show state = _ from ha]
  | _ => exact h.elim

namespace KeysReleased

theorem refl (s : Server) : KeysReleased s s :=
  ⟨rfl, fun _ => rfl, fun _ h => h, fun _ h => h, fun _ => Or.inl rfl, fun _ => Or.inl rfl⟩

/-- Writes of the runtime that touch no key, or release one game. -/
theorem of_acts (hacts : Acts Action.Settles s t) (hkeys : KeysStep s t) : KeysReleased s t := by
  obtain ⟨hseatMap, hplayers, hmarked, hrunning⟩ : t.seatMap = s.seatMap ∧
      (∀ r, getRoomPlayers t r = getRoomPlayers s r) ∧
        (∀ r, isEloUpdated s r = true → isEloUpdated t r = true) ∧
          ∀ r, Running t r → Running s r :=
    -- write by write: nobody is seated, no mark is taken back, no game begins again
    hacts.invariant (P := fun v => v.seatMap = s.seatMap ∧
        (∀ r, getRoomPlayers v r = getRoomPlayers s r) ∧
          (∀ r, isEloUpdated s r = true → isEloUpdated v r = true) ∧
            ∀ r, Running v r → Running s r)
      (fun a v hset ha hv => ⟨(hset.seatMap ha).trans hv.1,
        fun r => (hset.players ha r).trans (hv.2.1 r), fun r hr => hset.marked ha (hv.2.2.1 r hr),
        fun r hr => hv.2.2.2 r (Action.running_of_apply ha hr)⟩)
      ⟨rfl, fun _ => rfl, fun _ hr => hr, fun _ hr => hr⟩
  have hdue : ∀ {r whiteId blackId}, ReleasedBy s r whiteId blackId t → ResultDue s r :=
    fun h => ⟨h.pending, _, _, h.players⟩
  refine ⟨hseatMap, hplayers, hmarked, hrunning, fun u => ?_, fun r => ?_⟩
  · obtain hsame | ⟨r, whiteId, blackId, hreleased, hended⟩ := hkeys
    · exact Or.inl (by rw [hsame])
    by_cases hu : u = whiteId ∨ u = blackId
    · -- one of the two players of the game that has been released
      refine Or.inr ⟨r, ?_, hdue hreleased, hended⟩
      obtain ⟨room, hroom, hwhite, hblack⟩ := getRoomPlayers_eq_some hreleased.players
      obtain rfl | rfl := hu
      · exact Or.inl (memberRole_of_seat hroom hwhite)
      · exact Or.inr (memberRole_of_seat hroom hblack)
    · push Not at hu
      left
      rw [hreleased.allocator]
      change ((s.allocator.userRoom.pop whiteId).pop blackId).get? u = _
      rw [Dict.get?_pop, if_neg hu.2, Dict.get?_pop, if_neg hu.1]
  · obtain hsame | ⟨released, whiteId, blackId, hreleased, hended⟩ := hkeys
    · exact Or.inl (by rw [hsame])
    by_cases hr : r = released
    · subst hr
      exact Or.inr ⟨hdue hreleased, hended⟩
    · left
      rw [hreleased.allocator]
      change (s.allocator.roomShard.pop released).get? r = _
      rw [Dict.get?_pop, if_neg hr]

/-- One pass after another: what is due later was due before. -/
theorem trans (h : KeysReleased s t) (h' : KeysReleased t u) : KeysReleased s u := by
  have hdue : ∀ {r}, ResultDue t r → ResultDue s r := by
    intro r ht
    refine ⟨?_, ?_⟩
    · by_contra hmarked
      rw [Bool.not_eq_false] at hmarked
      exact absurd (ht.pending.symm.trans (h.marked r hmarked)) (by simp)
    · obtain ⟨whiteId, blackId, hboth⟩ := ht.players
      exact ⟨whiteId, blackId, (h.players r).symm.trans hboth⟩
  have hover : ∀ {r}, ¬ Running t r → ¬ Running u r := fun hnot hr => hnot (h'.running _ hr)
  refine ⟨h'.seatMap.trans h.seatMap, fun r => (h'.players r).trans (h.players r),
    fun r hr => h'.marked r (h.marked r hr), fun r hr => h.running r (h'.running r hr),
    fun v => ?_, fun r => ?_⟩
  · -- a key is gone by the first pass or by the second
    obtain hsame | ⟨r, hplayer, hpending, hnot⟩ := h'.user v
    · rw [hsame]
      refine (h.user v).imp_right ?_
      rintro ⟨r, hplayer, hpending, hnot⟩
      exact ⟨r, hplayer, hpending, hover hnot⟩
    · refine Or.inr ⟨r, ?_, hdue hpending, hnot⟩
      unfold IsPlayer at hplayer ⊢
      rw [← Server.role_seatMap, h.seatMap, Server.role_seatMap] at hplayer
      exact hplayer
  · obtain hsame | ⟨hpending, hnot⟩ := h'.room r
    · rw [hsame]
      exact (h.room r).imp_right fun hr => ⟨hr.1, hover hr.2⟩
    · exact Or.inr ⟨hdue hpending, hnot⟩

/-- A program of the runtime. -/
theorem keeps {α : Type} {x : ServerM α} (hdoes : Does Action.Settles x)
    (hkeys : ∀ t, wp x (fun _ u => KeysStep t u) (fun _ u => KeysStep t u) t) :
    Keeps (KeysReleased s) x := fun t ht =>
  wp_mono (wp_and (hdoes.wp t) (hkeys t)) (fun _ _ h => ht.trans (of_acts h.1 h.2))
    fun _ _ h => ht.trans (of_acts h.1 h.2)

end KeysReleased

/-- The clock of a shard. -/
theorem tickAll_keys (cfg : Config) (env : Env) (s : Server) :
    KeysReleased s (s.step cfg (env, .tickAll)) := by
  have hroom : ∀ roomId, Keeps (KeysReleased s) (tickRoom cfg env roomId) := fun roomId =>
    KeysReleased.keeps
      (tickRoom_does (fun _ => trivial) (fun _ => trivial) (fun _ _ _ => trivial) trivial)
      (tickRoom_keysStep cfg env roomId)
  change KeysReleased s (after (GameService.tickAll cfg env) s)
  refine wp_iff_after.mp ?_
  unfold GameService.tickAll
  rw [wp_bind, wp_get]
  exact Keeps.forM hroom _ s (KeysReleased.refl s)

/-- The disconnect grace of a shard. -/
theorem processDisconnectGrace_keys (cfg : Config) (env : Env) (s : Server) :
    KeysReleased s (s.step cfg (env, .processDisconnectGrace)) := by
  have hcountdown : ∀ entry, Keeps (KeysReleased s) (ServerRuntime.sendCountdown env entry) := by
    -- a countdown only remembers the second it has announced
    intro entry
    refine KeysReleased.keeps (sendCountdown_does (fun _ => trivial) entry) fun t => ?_
    unfold ServerRuntime.sendCountdown ServerRuntime.broadcastCountdown
    rw [wp_bind, wp_get]
    split
    · exact Or.inl rfl
    rw [wp_bind, wp_modify, wp_bind, wp_get]
    split
    · exact Or.inl rfl
    · refine wp_call (perform_allocator _ _) ?_ ?_
      · rintro _ u rfl
        exact Or.inl rfl
      · rintro _ u rfl
        exact Or.inl rfl
  have hexpired : ∀ entry, Keeps (KeysReleased s) (ServerRuntime.forfeitExpired cfg env entry) := by
    -- an expired grace forfeits the game, which releases it
    intro entry
    unfold ServerRuntime.forfeitExpired clearDisconnectDeadline
    refine Keeps.bind (KeysReleased.keeps (forceForfeit_does (fun _ => trivial)
      (fun _ _ => trivial) (fun _ _ _ => trivial) trivial)
      (forceForfeit_keysStep cfg env entry.1 entry.2)) fun _ => ?_
    refine Keeps.bind (KeysReleased.keeps (connection_does trivial fun _ => by rfl)
      fun t => Or.inl rfl) fun _ => ?_
    exact KeysReleased.keeps (Does.aside (fun _ => trivial) fun _ => by rfl) fun t => Or.inl rfl
  change KeysReleased s (after (ServerRuntime.processDisconnectGrace cfg env) s)
  exact wp_iff_after.mp (processDisconnectGrace_keeps hcountdown hexpired s (KeysReleased.refl s))

end Runtime

end KungFuChess
