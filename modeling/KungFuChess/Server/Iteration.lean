import KungFuChess.Server.RoomInv
import KungFuChess.Server.Pairing

/-!
# One iteration of the runtime loop

An iteration should advance the clock of every running game by one tick and come to the
disconnect grace, whichever of its parts fails (`Served`). The code runs the matchmaking tick,
the passes of `tick_all` over the rooms and the grace one after the other in one `try`, so the
first part that raises takes the rest with it. `served_iff` says exactly when an iteration
does what it should: when the matchmaking tick does not raise (`MatchmakingRaises`) and no pass
over a room does (`PassRaises`).

Both conditions are about the state before the iteration and the answers of the outside world.
That works because the parts before a pass leave alone what decides whether it raises
(`Alike`).
-/

namespace KungFuChess

open Effect RoomService GameService

/-! ### The property -/

/-- The engine after one tick, and perhaps a forfeit after it. -/
def AdvancedOnce (before after : GameEngine) : Prop :=
  after = before.updateGameClock tickMs ∨
    ∃ winner, after = (before.updateGameClock tickMs).forceForfeit winner

/-- The iteration comes to the disconnect grace: the two calls before it return. -/
def GraceReached (cfg : Config) (env : Env) (s : Server) : Prop :=
  wp (do
      ServerRuntime.matchmakingTick cfg env
      tickAll cfg env)
    (fun _ _ => True) (fun _ _ => False) s

/-- Every running game is advanced by one tick, and the disconnect grace is processed. -/
structure Served (cfg : Config) (env : Env) (s : Server) : Prop where
  clocks : ∀ roomId before, s.engines.get? roomId = some before → before.gameOver = false →
    ∃ after, (Effect.after (ServerRuntime.runOnce cfg env) s).engines.get? roomId = some after ∧
      AdvancedOnce before after
  grace : GraceReached cfg env s

/-! ### The condition -/

/-- The matchmaking tick raises: a user whose time is up cannot be told, or a pair cannot be
matched. -/
def MatchmakingRaises (cfg : Config) (env : Env) (s : Server) : Prop :=
  cfg.deployment = .inProcess ∧ (TimeoutFails env s ∨
    ∃ done pair rest, matchPairs (waiting env s.queue) [] = done ++ pair :: rest ∧
      PairFails env s done pair)

/-- The attempt to apply the result raises: a lookup, a write, or the broadcast of the result. -/
def EloRaises (env : Env) (s : Server) (roomId : RoomId) (engine : GameEngine) : Prop :=
  isEloUpdated s roomId = false ∧ engine.winner.isSome = true ∧
    (NameLookupRaises env s .playerName roomId ∨
      ∃ whiteId blackId whiteName blackName,
        (s.playersOf roomId).both = some (whiteId, blackId, whiteName, blackName) ∧
        (env.raises (.getById .rating whiteId) = true ∨
          env.raises (.getById .rating blackId) = true ∨
          env.raises (.setElo roomId whiteId) = true ∨
          env.raises (.setElo roomId blackId) = true ∨
          env.raises (.broadcastGameOver roomId) = true))

/-- The pass over the room raises: the broadcast of its state, or the attempt to apply the
result. -/
def PassRaises (env : Env) (s : Server) (roomId : RoomId) (engine : GameEngine) : Prop :=
  StateBroadcastRaises env s roomId engine ∨
    (engine.updateGameClock tickMs).gameOver = true ∧
      EloRaises env s roomId (engine.updateGameClock tickMs)

/-! ### The flags of the outcomes -/

/-- The outcome of a matchmaking tick tells whether it raised. -/
theorem MatchmakingOutcome.raised_iff {cfg : Config} {env : Env} {s t : Server} {raised : Bool}
    (h : MatchmakingOutcome cfg env s raised t) :
    raised = true ↔ MatchmakingRaises cfg env s := by
  -- the four outcomes with a reason, and the one without
  cases h with
  | shard hshard => exact iff_of_false (by simp) fun h => hshard h.1
  | timeoutFails t hin h => exact iff_of_true rfl ⟨hin, Or.inl h⟩
  | pairTaken done rest pair t hin _ hsplit h =>
    exact iff_of_true rfl ⟨hin, Or.inr ⟨done, pair, rest, hsplit, Or.inl h⟩⟩
  | seatFails done rest pair t hin _ hsplit _ h =>
    exact iff_of_true rfl ⟨hin, Or.inr ⟨done, pair, rest, hsplit, Or.inr h⟩⟩
  | matched t hin htimeout hnone =>
    refine iff_of_false (by simp) fun hraises => ?_
    obtain ⟨-, hfails | ⟨done, pair, rest, hsplit, hfails⟩⟩ := hraises
    · exact htimeout hfails
    · exact hnone done pair rest hsplit hfails

/-- When both players are known, the names and the two ids are those of the seats. -/
theorem EloDue.eloRaises_iff {cfg : Config} {env : Env} {s : Server} {roomId : RoomId}
    {engine : GameEngine} {whiteId blackId : UserId} {new : Int × Int}
    (h : EloDue cfg env roomId engine s whiteId blackId new) :
    EloRaises env s roomId engine ↔ env.raises (.setElo roomId whiteId) = true ∨
      env.raises (.setElo roomId blackId) = true ∨
      env.raises (.broadcastGameOver roomId) = true := by
  obtain ⟨whiteName, blackName, hknown⟩ := h.known
  obtain ⟨winner, -, -, hwinner, -, -⟩ := h.rated
  constructor
  · intro helo
    -- the names have been found, so they and the ids are those of the players
    obtain ⟨-, -, hnames | ⟨w, b, wn, bn, hboth, hraises⟩⟩ := helo
    · exact absurd hnames h.names
    · obtain ⟨rfl, rfl, -, -⟩ : whiteId = w ∧ blackId = b ∧ whiteName = wn ∧ blackName = bn := by
        simpa using hknown.symm.trans hboth
      obtain hraises | hraises | hraises := hraises
      · exact absurd (h.ratings.1.symm.trans hraises) (by simp)
      · exact absurd (h.ratings.2.symm.trans hraises) (by simp)
      · exact hraises
  · intro hraises
    exact ⟨h.pending, by rw [hwinner]; rfl, Or.inr ⟨whiteId, blackId, whiteName, blackName, hknown,
      Or.inr (Or.inr hraises)⟩⟩

/-- So does the outcome of an attempt at a result. -/
theorem EloAttempt.raised_iff {cfg : Config} {env : Env} {roomId : RoomId} {engine : GameEngine}
    {s t : Server} {raised : Bool} (h : EloAttempt cfg env roomId engine s raised t) :
    raised = true ↔ EloRaises env s roomId engine := by
  -- an attempt that was not due raises nothing, whatever the stores would do
  cases h with
  | idle h =>
    refine iff_of_false (by simp) fun helo => ?_
    obtain ⟨hpending, hwinner, hraises⟩ := helo
    obtain hmarked | hnone | ⟨hnames, hunknown⟩ := h
    · exact absurd (hmarked.symm.trans hpending) (by simp)
    · rw [hnone] at hwinner
      exact absurd hwinner (by simp)
    · obtain h | ⟨_, _, _, _, hknown, -⟩ := hraises
      · exact hnames h
      · exact absurd (hunknown.symm.trans hknown) (by simp)
  | nameRaises hpending hwinner h => exact iff_of_true rfl ⟨hpending, hwinner, Or.inl h⟩
  | ratingRaises whiteId blackId whiteName blackName hpending hwinner hknown h =>
    exact iff_of_true rfl ⟨hpending, hwinner, Or.inr ⟨_, _, _, _, hknown,
      h.imp_right Or.inl⟩⟩
  | whiteRaises whiteId blackId new hdue hwhite =>
    exact iff_of_true rfl (hdue.eloRaises_iff.mpr (Or.inl hwhite))
  | blackRaises whiteId blackId new hdue _ hblack =>
    exact iff_of_true rfl (hdue.eloRaises_iff.mpr (Or.inr (Or.inl hblack)))
  | applied whiteId blackId new t hdue hwhite hblack =>
    rw [hdue.eloRaises_iff]
    exact ⟨fun h => Or.inr (Or.inr h), fun h =>
      h.elim (fun h => absurd (hwhite.symm.trans h) (by simp)) fun h =>
        h.elim (fun h => absurd (hblack.symm.trans h) (by simp)) fun h => h⟩

/-! ### What decides whether a pass raises -/

/-- The room has the same members and the same mark, and everybody has the same name. -/
structure Alike (roomId : RoomId) (s t : Server) : Prop where
  members : (t.rooms.get? roomId).map Room.members = (s.rooms.get? roomId).map Room.members
  marked : isEloUpdated t roomId = isEloUpdated s roomId
  usernames : ∀ u, (t.users.get? u).map User.username = (s.users.get? u).map User.username

namespace Alike

variable {cfg : Config} {env : Env} {roomId r : RoomId} {s t u : Server} {engine : GameEngine}

theorem refl (s : Server) : Alike roomId s s := ⟨rfl, rfl, fun _ => rfl⟩

theorem trans (h : Alike roomId s t) (h' : Alike roomId t u) : Alike roomId s u :=
  ⟨h'.members.trans h.members, h'.marked.trans h.marked,
    fun v => (h'.usernames v).trans (h.usernames v)⟩

theorem of_eq (hrooms : t.rooms.get? roomId = s.rooms.get? roomId) (husers : t.users = s.users) :
    Alike roomId s t :=
  ⟨congrArg _ hrooms, isEloUpdated_congr hrooms, fun _ => by rw [husers]⟩

/-- An attempt for another room. -/
theorem of_frame (hne : roomId ≠ r) (h : EloFrame r s t) : Alike roomId s t :=
  ⟨h.members roomId, isEloUpdated_congr (h.rooms roomId hne), h.usernames⟩

/-- The clock of any room. -/
theorem afterTick : Alike roomId s (s.afterTick r engine) := by
  refine of_eq ?_ ?_
  all_goals
    unfold Server.afterTick Server.broadcast
    dsimp only
    split
    · split <;> rfl
    · rfl

/-- Like states have the same players -/
theorem playersOf (h : Alike roomId s t) : t.playersOf roomId = s.playersOf roomId := by
  have hname : ∀ seat, t.nameOf seat = s.nameOf seat := by
    intro seat
    unfold Server.nameOf
    cases seat with
    | none => rfl
    | some u => exact h.usernames u
  unfold Server.playersOf
  rw [EloFrame.getRoomPlayers_eq h.members]
  dsimp only
  rw [hname, hname]

theorem eloRaises_iff (h : Alike roomId s t) :
    EloRaises env t roomId engine ↔ EloRaises env s roomId engine := by
  unfold EloRaises NameLookupRaises
  rw [h.marked, h.playersOf, EloFrame.getRoomPlayers_eq h.members]

theorem stateBroadcastRaises_iff (h : Alike roomId s t) :
    StateBroadcastRaises env t roomId engine ↔ StateBroadcastRaises env s roomId engine := by
  have hroom : (t.rooms.get? roomId).isSome = (s.rooms.get? roomId).isSome := by
    rw [← Option.isSome_map, h.members, Option.isSome_map]
  unfold StateBroadcastRaises
  rw [hroom]

theorem passRaises_iff (h : Alike roomId s t) :
    PassRaises env t roomId engine ↔ PassRaises env s roomId engine := by
  unfold PassRaises
  rw [h.stateBroadcastRaises_iff, h.eloRaises_iff]

end Alike

/-! ### The passes over the rooms -/

section Passes

variable {cfg : Config} {env : Env} {roomId r : RoomId} {s t : Server} {engine : GameEngine}
  {raised : Bool}

theorem TickOutcome.raised_iff (h : TickOutcome cfg env roomId s raised t)
    (hengine : s.engines.get? roomId = some engine) :
    raised = true ↔ PassRaises env s roomId engine := by
  have hsame : ∀ {e}, s.engines.get? roomId = some e → e = engine :=
    fun he => Option.some.inj (he.symm.trans hengine)
  -- with the engine known, each outcome is one of the reasons or none
  cases h with
  | absent hnone => exact absurd (hnone.symm.trans hengine) (by simp)
  | broadcastRaises e he h => exact iff_of_true rfl (Or.inl (hsame he ▸ h))
  | ticked e he hsilent h =>
    obtain rfl := hsame he
    refine iff_of_false (by simp) fun hpass => ?_
    obtain hraises | ⟨hover, hraises⟩ := hpass
    · exact hsilent hraises
    · obtain hrunning | hmarked := h
      · exact absurd (hrunning.symm.trans hover) (by simp)
      · rw [Alike.afterTick.marked, hraises.1] at hmarked
        exact absurd hmarked (by simp)
  | attempted e raised t he hsilent hover h =>
    obtain rfl := hsame he
    rw [h.raised_iff, Alike.afterTick.eloRaises_iff]
    exact ⟨fun hraises => Or.inr ⟨hover, hraises⟩,
      fun hraises => hraises.elim (fun h => absurd h hsilent) fun h => h.2⟩

/-- A pass ticks the engine of its room, whether it raises or not, and no other. -/
theorem TickOutcome.engines (h : TickOutcome cfg env roomId s raised t)
    (hengine : s.engines.get? roomId = some engine) (r : RoomId) :
    t.engines.get? r =
      if r = roomId then some (engine.updateGameClock tickMs) else s.engines.get? r := by
  have hsame : ∀ {e}, s.engines.get? roomId = some e → e = engine :=
    fun he => Option.some.inj (he.symm.trans hengine)
  -- the clock is the first thing a pass advances, so a failure comes too late for it
  cases h with
  | absent hnone => exact absurd (hnone.symm.trans hengine) (by simp)
  | broadcastRaises e he =>
    obtain rfl := hsame he
    exact Server.get?_setEngine _
  | ticked e he =>
    obtain rfl := hsame he
    exact get?_afterTick _ _
  | attempted e raised t he _ _ h =>
    obtain rfl := hsame he
    rw [h.frame.engines]
    exact get?_afterTick _ _

/-- Other engines stay. -/
theorem TickOutcome.engines_of_ne (h : TickOutcome cfg env roomId s raised t) (hne : r ≠ roomId) :
    t.engines.get? r = s.engines.get? r := by
  cases h with
  | absent => rfl
  | broadcastRaises e he => rw [Server.get?_setEngine, if_neg hne]
  | ticked e he => rw [get?_afterTick, if_neg hne]
  | attempted e raised t he _ _ h => rw [h.frame.engines, get?_afterTick, if_neg hne]

/-- Other rooms look the same afterwards. -/
theorem TickOutcome.alike (h : TickOutcome cfg env roomId s raised t) (hne : r ≠ roomId) :
    Alike r s t := by
  cases h with
  | absent => exact Alike.refl s
  | broadcastRaises => exact Alike.of_eq rfl rfl
  | ticked => exact Alike.afterTick
  | attempted e raised t _ _ _ h => exact Alike.afterTick.trans (Alike.of_frame hne h.frame)

/-- **`tick_all`** ticks every engine if no pass raises. -/
theorem tickAll_spec :
    wp (tickAll cfg env)
      (fun _ t => ∀ r e, s.engines.get? r = some e →
        t.engines.get? r = some (e.updateGameClock tickMs) ∧ ¬ PassRaises env s r e)
      (fun _ _ => ∃ r e, s.engines.get? r = some e ∧ PassRaises env s r e) s := by
  unfold tickAll
  rw [wp_bind, wp_get]
  -- the rooms done have been ticked, and the others are as they were
  refine wp_mono (wp_forM_done
    (I := fun done t => (∀ r ∈ done, ∀ e, s.engines.get? r = some e →
        t.engines.get? r = some (e.updateGameClock tickMs) ∧ ¬ PassRaises env s r e) ∧
      ∀ r ∉ done, t.engines.get? r = s.engines.get? r ∧ Alike r s t)
    (E := fun _ _ _ _ => ∃ r e, s.engines.get? r = some e ∧ PassRaises env s r e)
    (fun done roomId rest t hsplit ⟨hdone, hrest⟩ => ?_)
    ⟨fun r hr => absurd hr List.not_mem_nil, fun r _ => ⟨rfl, Alike.refl s⟩⟩) ?_ ?_
  · have hmem : roomId ∈ s.engines.keys := by
      rw [hsplit]
      exact List.mem_append_right _ List.mem_cons_self
    -- a room has one pass only
    have hnew : roomId ∉ done := Dict.not_mem_of_keys_eq hsplit
    obtain ⟨engine, hengine⟩ := Dict.mem_keys_iff.mp hmem
    obtain ⟨hsame, halike⟩ := hrest roomId hnew
    have hengine' : t.engines.get? roomId = some engine := hsame.trans hengine
    refine wp_mono (tickRoom_cases cfg env roomId t) (fun _ u hu => ?_) (fun _ u hu => ?_)
    · -- a pass that returns has ticked the engine
      have hquiet : ¬ PassRaises env s roomId engine := by
        rw [← halike.passRaises_iff, ← hu.raised_iff hengine']
        simp
      refine ⟨fun r hr e he => ?_, fun r hr => ?_⟩
      · rw [hu.engines hengine']
        obtain hr | hr := List.mem_append.mp hr
        · have hne : r ≠ roomId := fun h => hnew (h ▸ hr)
          rw [if_neg hne]
          exact hdone r hr e he
        · obtain rfl := List.mem_singleton.mp hr
          obtain rfl : engine = e := Option.some.inj (hengine.symm.trans he)
          exact ⟨if_pos rfl, hquiet⟩
      · rw [List.mem_append, List.mem_singleton, not_or] at hr
        rw [hu.engines hengine', if_neg hr.2]
        exact ⟨(hrest r hr.1).1, (hrest r hr.1).2.trans (hu.alike hr.2)⟩
    · exact ⟨roomId, engine, hengine,
        halike.passRaises_iff.mp ((hu.raised_iff hengine').mp rfl)⟩
  · exact fun _ t ⟨hdone, _⟩ r e he => hdone r (Dict.mem_keys_iff.mpr ⟨e, he⟩) e he
  · exact fun _ _ ⟨_, _, _, _, h⟩ => h

end Passes

/-! ### The matchmaking tick -/

section Matchmaking

variable {cfg : Config} {env : Env} {s t : Server} {raised : Bool}

/-- A new engine has nothing to land. -/
theorem updateGameClock_new (board : Board) (ms : Int) :
    (GameEngine.new board).updateGameClock ms = GameEngine.new board := by
  unfold GameEngine.updateGameClock GameEngine.new
  rfl

/-- A pass over a new engine has nothing to send. -/
theorem not_passRaises_new (board : Board) (roomId : RoomId) :
    ¬ PassRaises env s roomId (GameEngine.new board) := by
  unfold PassRaises StateBroadcastRaises
  rw [updateGameClock_new]
  intro hraises
  obtain ⟨hfinished, -⟩ | ⟨hover, -⟩ := hraises
  · exact absurd hfinished (by simp [finishedNow, GameEngine.hasActiveMotion])
  · exact absurd hover (by simp [GameEngine.new])

/-- A matchmaking tick leaves the rooms alone that are there, and its engines are new. -/
theorem MatchmakingOutcome.others (h : MatchmakingOutcome cfg env s raised t) :
    (∀ r, s.rooms.contains r = true → t.engines.get? r = s.engines.get? r ∧ Alike r s t) ∧
      ∀ r e, t.engines.get? r = some e →
        s.engines.get? r = some e ∨ ∃ board, e = GameEngine.new board := by
  have hpaired : ∀ {done}, Paired env done s t →
      (∀ r, s.rooms.contains r = true → t.engines.get? r = s.engines.get? r ∧ Alike r s t) ∧
      ∀ r e, t.engines.get? r = some e →
        s.engines.get? r = some e ∨ ∃ board, e = GameEngine.new board := by
    -- all ways to end seat some pairs and nothing else
    intro done h
    refine ⟨fun r hr => ?_, h.engines⟩
    have hnew : r ∉ done.map (pairRoom env) :=
      fun hmem => absurd (hr.symm.trans (h.fresh r hmem)) (by simp)
    exact ⟨(h.others r hnew).2, Alike.of_eq (h.others r hnew).1 h.users⟩
  cases h with
  | shard => exact ⟨fun r _ => ⟨rfl, Alike.refl s⟩, fun r e he => Or.inl he⟩
  | timeoutFails t hin h ht =>
    rw [ht]
    exact ⟨fun r _ => ⟨rfl, Alike.of_eq rfl rfl⟩, fun r e he => Or.inl he⟩
  | pairTaken done rest pair t hin htimeout hsplit h hp => exact hpaired hp
  | seatFails done rest pair t hin htimeout hsplit hfree h hp => exact hpaired hp
  | matched t hin htimeout hnone hp => exact hpaired hp

end Matchmaking

/-! ### The iteration -/

section Iteration

variable {cfg : Config} {env : Env} {s : Server}

/-- **The two calls before the grace**: either they return, and every engine of the start is
ticked, or one of them raises. -/
theorem beforeGrace_spec (cfg : Config) (env : Env) (hinv : RoomInv s) :
    wp (do
        ServerRuntime.matchmakingTick cfg env
        tickAll cfg env)
      (fun _ t => (∀ r e, s.engines.get? r = some e →
          t.engines.get? r = some (e.updateGameClock tickMs)) ∧
        ¬ MatchmakingRaises cfg env s ∧
        ∀ r e, s.engines.get? r = some e → ¬ PassRaises env s r e)
      (fun _ _ => MatchmakingRaises cfg env s ∨
        ∃ r e, s.engines.get? r = some e ∧ PassRaises env s r e) s := by
  rw [wp_bind]
  refine wp_mono (matchmakingTick_cases cfg env s) (fun _ t ht => ?_)
    (fun _ _ ht => Or.inl (ht.raised_iff.mp rfl))
  have hquiet : ¬ MatchmakingRaises cfg env s := by
    rw [← ht.raised_iff]
    simp
  obtain ⟨hold, hnew⟩ := ht.others
  have hroom : ∀ {r e}, s.engines.get? r = some e →
      t.engines.get? r = s.engines.get? r ∧ Alike r s t :=
    fun he => hold _ (Dict.contains_iff.mpr (hinv.roomed he))
  refine wp_mono tickAll_spec (fun _ u hu => ?_) ?_
  · refine ⟨fun r e he => ?_, hquiet, fun r e he => ?_⟩
    · exact (hu r e ((hroom he).1.trans he)).1
    · rw [← (hroom he).2.passRaises_iff]
      exact (hu r e ((hroom he).1.trans he)).2
  · rintro _ u ⟨r, e, he, hraises⟩
    -- the engine of a room that the matching has opened has nothing to land
    obtain he' | ⟨board, rfl⟩ := hnew r e he
    · exact Or.inr ⟨r, e, he', (hroom he').2.passRaises_iff.mp hraises⟩
    · exact absurd hraises (not_passRaises_new board r)

/-- The grace forfeits games and does nothing else to an engine. -/
theorem engine_afterGrace (cfg : Config) (env : Env) (r : RoomId) (engine : GameEngine)
    (hengine : s.engines.get? r = some engine) :
    ∃ e, (s.step cfg (env, .processDisconnectGrace)).engines.get? r = some e ∧
      (e = engine ∨ ∃ winner, e = engine.forceForfeit winner) := by
  refine (s.step_acts cfg (env, .processDisconnectGrace)).invariant
    (P := fun t => ∃ e, t.engines.get? r = some e ∧
      (e = engine ∨ ∃ winner, e = engine.forceForfeit winner))
    (fun a t hof ha ⟨e, he, hsame⟩ => ?_) ⟨engine, hengine, Or.inl rfl⟩
  -- of the actions of the grace only the forfeit reaches an engine
  cases a with
  | openRoom => exact nomatch hof.1
  | openMatchedRoom => exact hof.elim (fun h => nomatch h.1) fun h => nomatch h
  | createEngine => exact hof.elim
  | engine roomId before call =>
    cases call with
    | move => exact hof.elim
    | tick => exact nomatch hof
    | forfeit winner =>
      by_cases hr : r = roomId
      · subst hr
        obtain rfl : before = e := Option.some.inj (ha.symm.trans he)
        refine ⟨before.forceForfeit winner, ?_, ?_⟩
        · change (t.setEngine r (before.forceForfeit winner)).engines.get? r = _
          rw [Server.get?_setEngine, if_pos rfl]
        · obtain rfl | ⟨winner', rfl⟩ := hsame
          · exact Or.inr ⟨winner, rfl⟩
          · -- a game is forfeited once
            exact Or.inr ⟨winner', EngineCall.apply_of_gameOver
              (gameOver_forceForfeit engine winner') (.forfeit winner)⟩
      · refine ⟨e, ?_, hsame⟩
        change (t.setEngine roomId (before.forceForfeit winner)).engines.get? r = _
        rw [Server.get?_setEngine, if_neg hr, he]
  | startGame | join | leave | connection | setElo | markElo | register | setQueue =>
    exact ⟨e, he, hsame⟩
  | aside state =>
    change state = _ at ha
    change ∃ e, state.engines.get? r = some e ∧ _
    rw [ha]
    exact ⟨e, he, hsame⟩

/-- **An iteration serves every room exactly when nothing before the grace raises.** -/
theorem RoomInv.served_iff_quiet (hinv : RoomInv s) :
    Served cfg env s ↔ ¬ MatchmakingRaises cfg env s ∧
      ∀ r e, s.engines.get? r = some e → ¬ PassRaises env s r e := by
  have hbefore := beforeGrace_spec cfg env hinv
  constructor
  · intro hserved
    by_contra hfails
    -- the calls before the grace return, and they do not
    have hgrace := wp_and hserved.grace hbefore
    have hnever : wp (do
        ServerRuntime.matchmakingTick cfg env
        tickAll cfg env)
        (fun _ _ => False) (fun _ _ => False) s :=
      wp_mono hgrace (fun _ _ h => hfails h.2.2) (fun _ _ h => h.1)
    unfold wp at hnever
    split at hnever <;> exact hnever
  · rintro ⟨hquiet, hpasses⟩
    have hreturns : wp (do
        ServerRuntime.matchmakingTick cfg env
        tickAll cfg env)
        (fun _ t => ∀ r e, s.engines.get? r = some e →
          t.engines.get? r = some (e.updateGameClock tickMs)) (fun _ _ => False) s :=
      wp_mono hbefore (fun _ _ h => h.1) fun _ _ h =>
        h.elim hquiet fun ⟨r, e, he, hraises⟩ => hpasses r e he hraises
    refine ⟨fun r e he _ => ?_, wp_mono hreturns (fun _ _ _ => trivial) fun _ _ h => h⟩
    -- the grace starts from the ticked engines
    have hdone : wp (ServerRuntime.runOnce cfg env)
        (fun _ t => ∃ e', t.engines.get? r = some e' ∧ AdvancedOnce e e')
        (fun _ t => ∃ e', t.engines.get? r = some e' ∧ AdvancedOnce e e') s := by
      change wp (tryCatch (ServerRuntime.matchmakingTick cfg env >>= fun _ =>
        tickAll cfg env >>= fun _ => ServerRuntime.processDisconnectGrace cfg env)
        fun _ => pure ()) _ _ s
      rw [wp_tryCatch, ← bind_assoc, wp_bind]
      refine wp_mono hreturns (fun _ t ht => ?_) (fun _ _ h => h.elim)
      obtain ⟨e', he', hsame⟩ := engine_afterGrace cfg env r _ (ht r e he)
      have hend : wp (ServerRuntime.processDisconnectGrace cfg env)
          (fun _ u => ∃ e', u.engines.get? r = some e' ∧ AdvancedOnce e e')
          (fun _ u => ∃ e', u.engines.get? r = some e' ∧ AdvancedOnce e e') t :=
        wp_iff_after.mpr ⟨e', he', hsame⟩
      exact wp_mono hend (fun _ _ h => h) (fun _ _ h => h)
    exact wp_iff_after.mp hdone

end Iteration

/-- Alice and Bob wait for an opponent, and Alice opens a room of her own meanwhile and moves her
rook there. The two are a pair that can never be seated. -/
def waitingRun : List (Env × Event) :=
  [.play Small.alice, .play Small.bob, .createRoom Small.alice,
    .submitMove Small.alice ⟨0, 0⟩ ⟨0, 1⟩].map fun event => (Small.env ["wR . bK"], event)

/-- The time each motion of the room has left. -/
def timesLeft (s : Server) (roomId : RoomId) : Option (List Int) :=
  (s.engines.get? roomId).map fun engine => engine.arbiter.activeMotions.map Motion.remainingTime

end KungFuChess
