import KungFuChess.Server.RoomInv

/-!
# The two rating writes

A result should be applied to both ratings or to none, and once, whatever the stores raise
(`AllOrNothing`). `_apply_elo` writes White's rating, then Black's, then the mark that the
room is done, and `tick_all` runs all of it again as long as the mark is missing. So when the
second write raises after the first has gone through, White's rating is changed, Black's is
not, and the next tick starts from White's new rating. `WriteLost` is that branch, as a
condition on the state and the outside world; `elo_allOrNothing` says that it is the only way
to break the law.

Whatever happens to other rooms stays beside the matter (`Beside`): their players are others,
because a user is mapped to one room.
-/

namespace KungFuChess

open Effect RoomService GameService

/-! ### The property -/

/-- The rating writes for the room that have gone through. -/
def ratingWrites (s : Server) (roomId : RoomId) : List SetEloCall :=
  s.setEloCalls.filter fun call => call.roomId = roomId ∧ call.raised = false

/-- The room has changed no rating: nothing was written for it, and the rows of its players are
what they were. -/
structure Untouched (s t : Server) (roomId : RoomId) : Prop where
  writes : ratingWrites t roomId = []
  rows : ∀ u, IsPlayer s roomId u → t.users.get? u = s.users.get? u

/-- Both ratings have been written once, and are the pair the Elo rule gives on the ratings the
two players had. -/
structure Paid (cfg : Config) (s t : Server) (roomId : RoomId) (whiteId blackId : UserId)
    (white black : User) (winner : Color) : Prop where
  players : getRoomPlayers s roomId = (some whiteId, some blackId)
  before : s.users.get? whiteId = some white ∧ s.users.get? blackId = some black
  ended : ∃ engine, t.engines.get? roomId = some engine ∧ engine.gameOver = true ∧
    engine.winner = some winner
  writes : ratingWrites t roomId =
    [⟨roomId, whiteId, (newRatings cfg winner white.elo black.elo).1, false⟩,
      ⟨roomId, blackId, (newRatings cfg winner white.elo black.elo).2, false⟩]
  after : t.users.get? whiteId =
      some { white with elo := (newRatings cfg winner white.elo black.elo).1 } ∧
    t.users.get? blackId =
      some { black with elo := (newRatings cfg winner white.elo black.elo).2 }

/-- Between the two states the room has changed no rating, or both as it should. -/
def AllOrNothing (cfg : Config) (s t : Server) (roomId : RoomId) : Prop :=
  Untouched s t roomId ∨
    ∃ whiteId blackId white black winner, Paid cfg s t roomId whiteId blackId white black winner

/-! ### The condition -/

/-- The attempt gets as far as the two writes, and the first goes through and the second
raises. -/
def WriteLost (cfg : Config) (env : Env) (roomId : RoomId) (engine : GameEngine) (s : Server) :
    Prop :=
  ∃ whiteId blackId new, EloDue cfg env roomId engine s whiteId blackId new ∧
    env.raises (.setElo roomId whiteId) = false ∧ env.raises (.setElo roomId blackId) = true

/-- The pass of the clock loop over the room comes to a lost write. -/
def TickLosesWrite (cfg : Config) (env : Env) (roomId : RoomId) (s : Server) : Prop :=
  ∃ engine, s.engines.get? roomId = some engine ∧ ¬ StateBroadcastRaises env s roomId engine ∧
    (engine.updateGameClock tickMs).gameOver = true ∧
    WriteLost cfg env roomId (engine.updateGameClock tickMs) (s.afterTick roomId engine)

/-- The forfeit of the room comes to a lost write. -/
def ForfeitLosesWrite (cfg : Config) (env : Env) (roomId : RoomId) (loser : UserId)
    (s : Server) : Prop :=
  ∃ engine winner, s.engines.get? roomId = some engine ∧ engine.gameOver = false ∧
    ¬ NameLookupRaises env s .forfeitName roomId ∧
    forfeitWinner (s.playersOf roomId) loser = some winner ∧
    WriteLost cfg env roomId (engine.forceForfeit winner)
      (s.setEngine roomId (engine.forceForfeit winner))

/-- No attempt for the room that the event makes comes to a lost write. -/
def WritesKept (cfg : Config) (roomId : RoomId) (s : Server) (event : Env × Event) : Prop :=
  match event.2 with
  | .tickAll =>
    LoopGuarded (fun r t => r = roomId → ¬ TickLosesWrite cfg event.1 roomId t)
      (tickRoom cfg event.1) s.engines.keys s
  | .forceForfeit r loser => r = roomId → ¬ ForfeitLosesWrite cfg event.1 roomId loser s
  | _ => True

/-- If the store does not raise for one player alone, no write is lost. -/
theorem WritesKept.of_raises {cfg : Config} {roomId : RoomId} {s : Server} {env : Env}
    {event : Event}
    (h : ∀ u v, env.raises (.setElo roomId u) = false → env.raises (.setElo roomId v) = false) :
    WritesKept cfg roomId s (env, event) := by
  have hkept : ∀ {engine t}, ¬ WriteLost cfg env roomId engine t := by
    rintro engine t ⟨whiteId, blackId, new, -, hwhite, hblack⟩
    exact absurd ((h whiteId blackId hwhite).symm.trans hblack) (by simp)
  unfold WritesKept
  split
  · exact LoopGuarded.of_forall (fun _ _ _ ⟨_, _, _, _, hlost⟩ => hkept hlost) _ _
  · exact fun _ ⟨_, _, _, _, _, _, hlost⟩ => hkept hlost
  · trivial

/-! ### Beside the matter -/

/-- What happens between the two states is not about the result of the room. -/
structure Beside (roomId : RoomId) (s t : Server) : Prop where
  members : (t.rooms.get? roomId).map Room.members = (s.rooms.get? roomId).map Room.members
  marked : isEloUpdated t roomId = isEloUpdated s roomId
  ended : ∀ engine, s.engines.get? roomId = some engine → engine.gameOver = true →
    t.engines.get? roomId = some engine
  writes : ratingWrites t roomId = ratingWrites s roomId
  rows : ∀ u, IsPlayer s roomId u → t.users.get? u = s.users.get? u

namespace Beside

variable {roomId r : RoomId} {s t u : Server}

theorem refl (s : Server) : Beside roomId s s :=
  ⟨rfl, rfl, fun _ h _ => h, rfl, fun _ _ => rfl⟩

/-- Beside twice. -/
theorem trans (h : Beside roomId s t) (h' : Beside roomId t u) : Beside roomId s u := by
  refine ⟨h'.members.trans h.members, h'.marked.trans h.marked,
    fun e he hover => h'.ended e (h.ended e he hover) hover, h'.writes.trans h.writes,
    fun v hv => ?_⟩
  have hv' : IsPlayer t roomId v := hv.of_members_eq h.members.symm
  exact (h'.rows v hv').trans (h.rows v hv)

/-- An engine is written that stays what it was if its game had ended. -/
theorem setEngine {engine : GameEngine}
    (hover : ∀ before, s.engines.get? r = some before → before.gameOver = true →
      engine = before) : Beside roomId s (s.setEngine r engine) := by
  refine ⟨rfl, rfl, fun e he hend => ?_, rfl, fun _ _ => rfl⟩
  rw [Server.get?_setEngine]
  split
  · next hr => rw [hover e (hr ▸ he) hend]
  · exact he

/-- A call of any engine is beside the matter, for an ended game stays what it is. -/
theorem engineCall {engine : GameEngine} (hengine : s.engines.get? r = some engine)
    (call : EngineCall) : Beside roomId s (s.setEngine r (call.apply engine)) := by
  refine setEngine fun before hbefore hover => ?_
  obtain rfl : before = engine := Option.some.inj (hbefore.symm.trans hengine)
  exact call.apply_of_gameOver hover

/-- So is a message, -/
theorem broadcast (message : Message) : Beside roomId s (s.broadcast r message) := by
  unfold Server.broadcast
  split
  · exact refl s
  · exact ⟨rfl, rfl, fun _ h _ => h, rfl, fun _ _ => rfl⟩

/-- a tick of the clock, -/
theorem afterTick {engine : GameEngine} (hengine : s.engines.get? r = some engine) :
    Beside roomId s (s.afterTick r engine) := by
  unfold Server.afterTick
  dsimp only
  split
  · exact (engineCall hengine .tick).trans (broadcast _)
  · exact engineCall hengine .tick

theorem announced (h : Announced r s t) : Beside roomId s t := by
  rw [h.same]
  exact ⟨rfl, rfl, fun _ h _ => h, rfl, fun _ _ => rfl⟩

/-- A write that raised is in the log only. -/
theorem raisedWrite (userId : UserId) (elo : Int) :
    Beside roomId s (s.afterSetElo r userId elo true) := by
  refine ⟨rfl, rfl, fun _ h _ => h, ?_, fun _ _ => rfl⟩
  change (s.setEloCalls ++ [_]).filter _ = s.setEloCalls.filter _
  rw [List.filter_append, List.filter_singleton]
  simp

/-- An attempt for another room. -/
theorem attempt (hinv : RoomInv s) (hne : r ≠ roomId) (hframe : EloFrame r s t) :
    Beside roomId s t := by
  -- the frame of the attempt names its own room in every call it records
  refine ⟨hframe.members roomId, ?_, fun e he _ => by rw [hframe.engines, he], ?_, fun v hv => ?_⟩
  · exact isEloUpdated_congr (hframe.rooms roomId hne.symm)
  · obtain ⟨new, hnew, hall⟩ := hframe.calls
    have hnone : new.filter (fun call => call.roomId = roomId ∧ call.raised = false) = [] := by
      refine List.filter_eq_nil_iff.mpr fun call hcall => ?_
      rw [hall call hcall]
      simp [hne]
    unfold ratingWrites
    rw [hnew, List.filter_append, hnone, List.append_nil]
  · -- a player of this room sits in no other
    have hmapped := hinv.mapped_of_isPlayer hv
    refine hframe.ratings v (fun hseat => hne ?_) (fun hseat => hne ?_)
    · exact Option.some.inj ((hinv.mapped_of_seat (Or.inl hseat)).symm.trans hmapped)
    · exact Option.some.inj ((hinv.mapped_of_seat (Or.inr hseat)).symm.trans hmapped)

end Beside

/-! ### The invariant -/

/-- The members of the room stay, and its mark says which of the two cases holds. -/
structure EloInv (cfg : Config) (roomId : RoomId) (s t : Server) : Prop where
  members : (t.rooms.get? roomId).map Room.members = (s.rooms.get? roomId).map Room.members
  state : isEloUpdated t roomId = false ∧ Untouched s t roomId ∨
    isEloUpdated t roomId = true ∧
      ∃ whiteId blackId white black winner, Paid cfg s t roomId whiteId blackId white black winner

namespace EloInv

variable {cfg : Config} {env : Env} {roomId r : RoomId} {s t u : Server}

theorem allOrNothing (h : EloInv cfg roomId s t) : AllOrNothing cfg s t roomId :=
  h.state.imp (fun h => h.2) fun h => h.2

/-- What is beside the matter keeps the invariant. -/
theorem beside (h : EloInv cfg roomId s t) (hb : Beside roomId t u) : EloInv cfg roomId s u := by
  -- the rows of the two players are untouched, whoever else is rated
  have hrow : ∀ {v}, IsPlayer s roomId v → u.users.get? v = t.users.get? v :=
    fun hv => hb.rows _ (hv.of_members_eq h.members.symm)
  refine ⟨hb.members.trans h.members, h.state.imp (fun ⟨hpending, huntouched⟩ => ?_)
    fun ⟨hmarked, whiteId, blackId, white, black, winner, hpaid⟩ => ?_⟩
  · exact ⟨hb.marked.trans hpending, hb.writes.trans huntouched.writes,
      fun v hv => (hrow hv).trans (huntouched.rows v hv)⟩
  · obtain ⟨engine, hengine, hover, hwinner⟩ := hpaid.ended
    have hwhite : IsPlayer s roomId whiteId := isPlayer_of_seat hpaid.players (Or.inl rfl)
    have hblack : IsPlayer s roomId blackId := isPlayer_of_seat hpaid.players (Or.inr rfl)
    exact ⟨hb.marked.trans hmarked, whiteId, blackId, white, black, winner, hpaid.players,
      hpaid.before, ⟨engine, hb.ended engine hengine hover, hover, hwinner⟩,
      hb.writes.trans hpaid.writes, (hrow hwhite).trans hpaid.after.1,
      (hrow hblack).trans hpaid.after.2⟩

/-- Both writes go through. -/
theorem afterRatings {engine : GameEngine} {whiteId blackId : UserId} {new : Int × Int}
    (h : EloInv cfg roomId s t) (hengine : t.engines.get? roomId = some engine)
    (hover : engine.gameOver = true) (hdue : EloDue cfg env roomId engine t whiteId blackId new) :
    EloInv cfg roomId s (t.afterRatings roomId whiteId blackId new) := by
  obtain ⟨winner, white, black, hwinner, hrated, rfl⟩ := hdue.rated
  -- a room with a result due is not marked, so nothing was written for it before
  obtain ⟨-, huntouched⟩ | ⟨hmarked, -⟩ := h.state
  · have hplayers : getRoomPlayers s roomId = (some whiteId, some blackId) := by
      rw [← EloFrame.getRoomPlayers_eq h.members, hrated.players]
    have hrow : ∀ {u user}, (u = whiteId ∨ u = blackId) → t.users.get? u = some user →
        s.users.get? u = some user := fun hu hrow =>
      (huntouched.rows _ (isPlayer_of_seat hplayers hu)).symm.trans hrow
    have hne : whiteId ≠ blackId := seats_ne hplayers
    refine ⟨(Server.members_modifyRoom fun _ => by rfl).trans h.members, Or.inr ⟨?_, whiteId, blackId,
      white, black, winner, hplayers, ⟨hrow (Or.inl rfl) hrated.white, hrow (Or.inr rfl) hrated.black⟩,
      ⟨engine, hengine, hover, hwinner⟩, ?_, ?_, ?_⟩⟩
    · -- the room is marked
      obtain ⟨room, hroom⟩ := Option.isSome_iff_exists.mp hrated.room
      unfold isEloUpdated Server.afterRatings
      rw [Server.get?_modifyRoom, if_pos rfl]
      change ((t.rooms.get? roomId).map _).any _ = true
      rw [hroom]
      rfl
    · -- the two writes are the only ones
      change (t.setEloCalls ++ [_] ++ [_]).filter _ = _
      rw [List.filter_append, List.filter_append, List.filter_singleton, List.filter_singleton]
      have hnone := huntouched.writes
      unfold ratingWrites at hnone
      rw [hnone]
      simp
    · change ((t.users.modify whiteId _).modify blackId _).get? whiteId = _
      rw [Dict.get?_modify_of_ne _ _ hne, Dict.get?_modify_self, hrated.white]
      rfl
    · change ((t.users.modify whiteId _).modify blackId _).get? blackId = _
      rw [Dict.get?_modify_self, Dict.get?_modify_of_ne _ _ hne.symm, hrated.black]
      rfl
  · -- a marked room has no result due
    exact absurd (hmarked.symm.trans hdue.pending) (by simp)

/-- **An attempt keeps the invariant**, unless it loses the second write. -/
theorem attempt {engine : GameEngine} {raised : Bool} (h : EloInv cfg roomId s t)
    (hengine : t.engines.get? roomId = some engine) (hover : engine.gameOver = true)
    (hkept : ¬ WriteLost cfg env roomId engine t)
    (hattempt : EloAttempt cfg env roomId engine t raised u) : EloInv cfg roomId s u := by
  cases hattempt with
  | idle | nameRaises | ratingRaises => exact h
  | whiteRaises whiteId blackId new => exact h.beside (Beside.raisedWrite _ _)
  | blackRaises whiteId blackId new hdue hwhite hblack =>
    exact absurd ⟨whiteId, blackId, new, hdue, hwhite, hblack⟩ hkept
  | applied whiteId blackId new t' hdue _ _ hannounced =>
    exact (h.afterRatings hengine hover hdue).beside (Beside.announced hannounced)

/-- **One pass of the clock loop.** -/
theorem tickRoom (hinv : RoomInv t) (h : EloInv cfg roomId s t)
    (hkept : r = roomId → ¬ TickLosesWrite cfg env roomId t) :
    wp (GameService.tickRoom cfg env r) (fun _ => EloInv cfg roomId s)
      (fun _ => EloInv cfg roomId s) t := by
  have hout : ∀ {raised u}, TickOutcome cfg env r t raised u → EloInv cfg roomId s u := by
    intro raised u hout
    cases hout with
    | absent => exact h
    | broadcastRaises engine hengine => exact h.beside (Beside.engineCall hengine .tick)
    | ticked engine hengine => exact h.beside (Beside.afterTick hengine)
    -- the clock comes first and is beside the matter, then the attempt
    | attempted engine raised u hengine hsilent hover hattempt =>
      have hticked := h.beside (Beside.afterTick hengine)
      by_cases hr : r = roomId
      · subst hr
        have hengine' : (t.afterTick r engine).engines.get? r =
            some (engine.updateGameClock tickMs) := by rw [get?_afterTick, if_pos rfl]
        exact hticked.attempt hengine' hover
          (fun hlost => hkept rfl ⟨engine, hengine, hsilent, hover, hlost⟩) hattempt
      · have hinv' : RoomInv (t.afterTick r engine) :=
          hinv.of_acts (@afterTick_acts (fun _ => True) _ _ _ (fun _ => trivial)
            (fun _ => trivial) hengine)
        exact hticked.beside (Beside.attempt hinv' hr hattempt.frame)
  exact wp_mono (tickRoom_cases cfg env r t) (fun _ _ h => hout h) (fun _ _ h => hout h)

/-- **A forfeit.** -/
theorem forceForfeit {loser : UserId} (hinv : RoomInv t) (h : EloInv cfg roomId s t)
    (hkept : r = roomId → ¬ ForfeitLosesWrite cfg env roomId loser t) :
    wp (GameService.forceForfeit cfg env r loser) (fun _ => EloInv cfg roomId s)
      (fun _ => EloInv cfg roomId s) t := by
  have hout : ∀ {raised u}, ForfeitOutcome cfg env r loser t raised u → EloInv cfg roomId s u := by
    intro raised u hout
    cases hout with
    | idle | nameRaises => exact h
    -- the engine is ended first, then the attempt
    | forfeited engine winner raised u hengine hrunning hnames hwinner hattempt =>
      have hended := h.beside (Beside.engineCall hengine (.forfeit winner))
      by_cases hr : r = roomId
      · subst hr
        have hengine' : (t.setEngine r (engine.forceForfeit winner)).engines.get? r =
            some (engine.forceForfeit winner) := by rw [Server.get?_setEngine, if_pos rfl]
        refine hended.attempt hengine' (gameOver_forceForfeit engine winner) (fun hlost => ?_) hattempt
        exact hkept rfl ⟨engine, winner, hengine, hrunning, hnames, hwinner, hlost⟩
      · have hinv' : RoomInv (t.setEngine r (engine.forceForfeit winner)) :=
          hinv.step (a := .engine r engine (.forfeit winner)) hengine
        exact hended.beside (Beside.attempt hinv' hr hattempt.frame)
  exact wp_mono (forceForfeit_cases cfg env r loser t) (fun _ _ h => hout h) (fun _ _ h => hout h)

/-- **A tick of all rooms, or a forfeit.** -/
theorem step {event : Env × Event} (hinv : RoomInv t) (h : EloInv cfg roomId s t)
    (hevent : event.2 = .tickAll ∨ ∃ r loser, event.2 = .forceForfeit r loser)
    (hkept : WritesKept cfg roomId t event) : EloInv cfg roomId s (t.step cfg event) := by
  obtain ⟨env, event⟩ := event
  refine wp_iff_after.mp ?_
  obtain rfl | ⟨r, loser, rfl⟩ := hevent
  · change wp (get >>= fun t => t.engines.keys.forM (GameService.tickRoom cfg env)) _ _ t
    rw [wp_bind, wp_get]
    -- the loop keeps the room invariant along with this one
    have hdoes : ∀ r, Does (fun _ => True) (GameService.tickRoom cfg env r) := fun r =>
      tickRoom_does (fun _ => trivial) (fun _ => trivial) (fun _ _ _ => trivial) trivial
    have hloop := LoopGuarded.wp_forM (I := fun u => RoomInv u ∧ EloInv cfg roomId s u)
      (fun r u hu hok => wp_mono
        (wp_and ((hdoes r).wp u) (hu.2.tickRoom hu.1 hok))
        (fun _ _ hv => ⟨hu.1.of_acts hv.1, hv.2⟩) (fun _ _ hv => ⟨hu.1.of_acts hv.1, hv.2⟩))
      hkept ⟨hinv, h⟩
    exact wp_mono hloop (fun _ _ hu => hu.2) (fun _ _ hu => hu.2)
  · exact h.forceForfeit hinv hkept

end EloInv

/-- **All or nothing**: over every run of ticks and forfeits that begins while the game of the
room is running, and in which no attempt comes to a lost write, the room changes no rating or
both. -/
theorem elo_allOrNothing (cfg : Config) (users : Dict UserId User)
    (games : Dict RoomId GameResult) (past events : List (Env × Event)) (roomId : RoomId)
    (engine : GameEngine)
    (hengine : ((Server.initial users games).play cfg past).engines.get? roomId = some engine)
    (hrunning : engine.gameOver = false)
    (hevents : ∀ event ∈ events,
      event.2 = .tickAll ∨ ∃ r loser, event.2 = .forceForfeit r loser)
    (hkept : Run.Guarded (Server.step cfg) (fun s event _ => WritesKept cfg roomId s event)
      ((Server.initial users games).play cfg past) events) :
    AllOrNothing cfg ((Server.initial users games).play cfg past)
      (((Server.initial users games).play cfg past).play cfg events) roomId := by
  have hinv := RoomInv.run cfg users games past
  generalize (Server.initial users games).play cfg past = s at hengine hkept hinv ⊢
  have hnone : ∀ {e}, s.engines.get? roomId = some e → e.gameOver = true → False := by
    intro e he hover
    obtain rfl : e = engine := Option.some.inj (he.symm.trans hengine)
    exact absurd (hover.symm.trans hrunning) (by simp)
  -- nothing has been written for a running game
  have hstart : EloInv cfg roomId s s := by
    refine ⟨rfl, Or.inl ⟨?_, ?_, fun _ _ => rfl⟩⟩
    · refine Bool.eq_false_iff.mpr fun hmarked => ?_
      obtain ⟨-, e, he, hover⟩ := hinv.finished hmarked
      exact hnone he hover
    · refine List.filter_eq_nil_iff.mpr fun call hcall hwrite => ?_
      obtain ⟨e, he, hover⟩ := hinv.calls call hcall
      rw [decide_eq_true_eq] at hwrite
      exact hnone (hwrite.1 ▸ he) hover
  have hrun := hkept.invariant
    (P := fun (t : Server) (is : List (Env × Event)) => RoomInv t ∧ EloInv cfg roomId s t ∧
      ∀ event ∈ is, event.2 = .tickAll ∨ ∃ r loser, event.2 = .forceForfeit r loser)
    (fun t event is h hok => ⟨h.1.of_acts (t.step_acts cfg event),
      h.2.1.step h.1 (h.2.2 event List.mem_cons_self) hok,
      fun e he => h.2.2 e (List.mem_cons_of_mem _ he)⟩) ⟨hinv, hstart, hevents⟩
  exact hrun.2.1.allOrNothing

/-! ### Concrete runs -/

/-- Alice opens a room and Bob joins it. -/
def pairedRun : List (Env × Event) :=
  [.createRoom Small.alice, .joinRoom Small.bob Small.room].map fun event =>
    (Small.env ["wR bK"], event)

/-- Every write of a rating raises. -/
def storeDown : Env :=
  { Small.env ["wR bK"] with
    raises := fun call =>
      match call with
      | .setElo _ _ => true
      | _ => false }

/-- Bob forfeits while the store is down, and the next tick finds it up again. -/
def retriedRun : List (Env × Event) :=
  [(storeDown, .forceForfeit Small.room Small.bob), (Small.env ["wR bK"], .tickAll)]

/-- The store raises at the first attempt, and both ratings are written at the second. -/
theorem elo_allOrNothing_retriedRun :
    AllOrNothing Small.config (Small.start.play Small.config pairedRun)
      ((Small.start.play Small.config pairedRun).play Small.config retriedRun) Small.room := by
  obtain ⟨engine, hengine, hrunning⟩ : ∃ engine,
      (Small.start.play Small.config pairedRun).engines.get? Small.room = some engine ∧
        engine.gameOver = false :=
    ⟨_, rfl, rfl⟩
  refine elo_allOrNothing Small.config _ _ pairedRun retriedRun Small.room engine hengine hrunning
    (fun event hevent => ?_) ⟨?_, ?_, trivial⟩
  · obtain rfl | rfl := List.mem_pair.mp hevent
    · exact Or.inr ⟨_, _, rfl⟩
    · exact Or.inl rfl
  · exact WritesKept.of_raises fun _ _ h => absurd h (by simp [storeDown])
  · exact WritesKept.of_raises fun _ _ _ => rfl

/-- Bob forfeits, and the store fails between the two writes; the next tick succeeds. Alice has
been paid twice. -/
def halfWrittenRun : List (Env × Event) :=
  [({ Small.env ["wR bK"] with raises := fun call => call = .setElo Small.room Small.bob },
      .forceForfeit Small.room Small.bob),
    (Small.env ["wR bK"], .tickAll)]

/-- Black's write raises after White's, and White wins the game twice. -/
theorem not_allOrNothing_halfWrittenRun :
    (((Small.start.play Small.config pairedRun).play Small.config halfWrittenRun).users.get?
        Small.alice).map User.elo = some 1231 ∧
      (((Small.start.play Small.config pairedRun).play Small.config halfWrittenRun).users.get?
        Small.bob).map User.elo = some 1185 ∧
      ¬ AllOrNothing Small.config (Small.start.play Small.config pairedRun)
        ((Small.start.play Small.config pairedRun).play Small.config halfWrittenRun)
        Small.room := by
  -- three writes to the room: neither none nor one pair
  have hthree : (ratingWrites ((Small.start.play Small.config pairedRun).play Small.config
      halfWrittenRun) Small.room).length = 3 := by decide +kernel
  refine ⟨by decide +kernel, by decide +kernel, ?_⟩
  rintro (huntouched | ⟨whiteId, blackId, white, black, winner, hpaid⟩)
  · rw [huntouched.writes] at hthree
    exact absurd hthree (by decide)
  · rw [hpaid.writes] at hthree
    exact absurd hthree (by simp)

end KungFuChess
