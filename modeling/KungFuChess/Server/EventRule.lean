import KungFuChess.Server.Heard

/-!
# What every event keeps

A rule for properties that speak of what has been sent. Over `Action` an event is a sequence of
writes, and what a write to the outbox says is left open (`Action.aside`). `EventRule` tells the
messages apart: the state of a game is sent from its engine (`state`), a result is sent by
`_apply_elo`, which is taken as a whole (`result`), and everything else is neither (`passing`).
-/

namespace KungFuChess

open Effect RoomService GameService

/-- The action sends nothing and applies no result. -/
def Action.Plain : Action → Prop
  | .aside _ | .setElo _ _ _ _ | .markElo _ => False
  | _ => True

/-- The message is neither the state of a game nor its result. -/
def Message.Passing : Message → Prop
  | .state _ | .gameOver _ _ _ => False
  | _ => True

/-- **The rule for events**: what it takes for an event to keep a property. -/
structure EventRule (cfg : Config) (env : Env) (event : Event) (P : Server → Prop) : Prop where
  act : ∀ (a : Action) s, a.Plain → a.Of (env, event) → a.Enabled s → P s → P (a.apply s)
  /-- What has been counted down, and the keys of a shard in Redis. -/
  note : ∀ s lastCountdownSent allocator, P s →
    P { s with lastCountdownSent := lastCountdownSent, allocator := allocator }
  passing : ∀ s recipients message r?, message.Passing → P s → P (s.send r? recipients message)
  state : ∀ s recipients roomId e r?, s.engines.get? roomId = some e → P s →
    P (s.send r? recipients (.state (e.snapshotState roomId)))
  result : ∀ s roomId e, s.engines.get? roomId = some e → e.gameOver = true → P s →
    wp (applyElo cfg env roomId e) (fun _ => P) (fun _ => P) s

namespace EventRule

variable {cfg : Config} {env : Env} {event : Event} {P : Server → Prop}

/-- A program of plain actions. -/
theorem keeps_of_does {α : Type} (h : EventRule cfg env event P) {x : ServerM α}
    (hx : Does (fun a => a.Plain ∧ a.Of (env, event)) x) : Keeps P x := by
  intro s hs
  have hacts : ∀ t, Acts (fun a => a.Plain ∧ a.Of (env, event)) s t → P t := fun t ht =>
    ht.invariant (fun a u ha hu hP => h.act a u ha.1 ha.2 hu hP) hs
  exact wp_mono (hx.wp s) (fun _ t ht => hacts t ht) fun _ t ht => hacts t ht

/-! ### Messages -/

/-- A countdown is passing. -/
theorem keeps_broadcastCountdown (h : EventRule cfg env event P) (roomId : RoomId) (userId : UserId)
    (secondsLeft : Int) :
    Keeps P (ServerRuntime.broadcastCountdown env roomId userId secondsLeft) := by
  unfold ServerRuntime.broadcastCountdown
  refine Keeps.bind Keeps.get fun s => ?_
  split
  · exact Keeps.pure _
  · exact (keeps_perform _).bind fun _ => keeps_modify fun t ht => h.passing t _ _ _ trivial ht

/-- A notice to a user; that of a match is followed by the state of the room. -/
theorem keeps_notifyUser (h : EventRule cfg env event P) (userId : UserId) {message : Message}
    (hpassing : message.Passing) : Keeps P (MatchmakingService.notifyUser env userId message) := by
  unfold MatchmakingService.notifyUser
  -- the notice itself is passing, and the state after it comes from an engine
  refine (keeps_perform _).bind fun _ => ?_
  refine Keeps.bind (keeps_modify fun s hs => h.passing s _ _ _ hpassing hs) fun _ => ?_
  split
  · intro s hs
    rw [wp_bind, wp_get]
    split
    · exact hs
    · next e he =>
      rw [wp_modify]
      exact h.state s _ _ e _ he hs
  · exact Keeps.pure _

/-- The keys of a match are no message. -/
theorem keeps_bindPlayers (h : EventRule cfg env event P) (roomId : RoomId) (userIds : List UserId) :
    Keeps P (bindPlayers cfg roomId userIds) := by
  unfold bindPlayers
  split
  · exact Keeps.pure _
  · exact keeps_modify fun s hs => h.note s s.lastCountdownSent _ hs

/-- Nor is the key of one player. -/
theorem keeps_bindPlayer (h : EventRule cfg env event P) (userId : UserId) (roomId : RoomId) :
    Keeps P (bindPlayer cfg userId roomId) := by
  unfold bindPlayer
  split
  · exact Keeps.pure _
  · exact keeps_modify fun s hs => h.note s s.lastCountdownSent _ hs

theorem keeps_publishOutbound (h : EventRule cfg env event P) (call : ExternalCall)
    (recipients : List UserId) {message : Message} (hpassing : message.Passing) :
    Keeps P (publishOutbound env call recipients message) :=
  (keeps_perform _).bind fun _ => keeps_modify fun s hs => h.passing s _ _ _ hpassing hs

/-! ### Matches -/

/-- A match that arrives from the matchmaker: seated, bound, announced, shown. -/
theorem keeps_handleCreateMatch {roomId : RoomId} {whiteId blackId : UserId}
    (h : EventRule cfg env (.createMatch roomId whiteId blackId) P) :
    Keeps P (handleCreateMatch cfg env roomId whiteId blackId) := by
  have hseated : Keeps P (RoomService.createMatchedRoom env whiteId blackId (some roomId)) :=
    h.keeps_of_does (createMatchedRoom_does ⟨trivial, Or.inr rfl⟩
      (fun _ _ => ⟨trivial, trivial⟩) fun _ => ⟨trivial, trivial⟩)
  have hfound : ∀ color, Message.Passing (.matchFound roomId whiteId blackId color) :=
    fun _ => trivial
  unfold handleCreateMatch
  refine hseated.bind fun _ => (h.keeps_bindPlayers _ _).bind fun _ => ?_
  refine (h.keeps_publishOutbound _ _ (hfound .white)).bind fun _ => ?_
  refine (h.keeps_publishOutbound _ _ (hfound .black)).bind fun _ => ?_
  intro s hs
  rw [wp_bind, wp_get]
  split
  · exact hs
  · next e he =>
    -- the state is sent after the call to the outside, which may raise but changes nothing
    have hsent : Keeps (fun t => t = s) (perform env (.broadcastState roomId)) := keeps_perform _
    unfold publishOutbound
    refine wp_call (hsent s rfl) (fun _ t ht => ht ▸ hs) ?_
    rintro _ t rfl
    exact h.state t _ _ e _ he hs

/-- Expiry sends notices only. -/
theorem keeps_expireLoop (h : EventRule cfg env event P) (queue : List QueueEntry) :
    ∀ still : List QueueEntry, Keeps P (MatchmakingService.expireLoop env queue still) := by
  induction queue with
  | nil => exact fun still => Keeps.pure still
  | cons entry rest ih =>
    intro still
    unfold MatchmakingService.expireLoop
    have htimeout : Message.Passing (.matchTimeout "no opponent within 60 seconds") := trivial
    exact Keeps.ite ((h.keeps_notifyUser _ htimeout).bind fun _ => ih still) (ih _)

/-- The matching loop seats and announces. -/
theorem keeps_matchLoop (h : EventRule cfg env .matchmakingTick P) (queue : List QueueEntry) :
    ∀ used : List UserId, Keeps P (MatchmakingService.matchLoop env queue used) := by
  induction queue with
  | nil => exact fun used => Keeps.pure used
  | cons a later ih =>
    intro used
    unfold MatchmakingService.matchLoop
    refine Keeps.ite (ih used) ?_
    split
    · exact ih used
    · next b _ =>
      -- the seats are written as actions, the announcement is two notices
      have hseated : Keeps P (RoomService.createMatchedRoom env a.userId b.userId none) :=
        h.keeps_of_does (createMatchedRoom_does ⟨trivial, Or.inl ⟨rfl, rfl⟩⟩
          (fun _ _ => ⟨trivial, trivial⟩) fun _ => ⟨trivial, trivial⟩)
      have hfound : ∀ roomId color, Message.Passing (.matchFound roomId a.userId b.userId color) :=
        fun _ _ => trivial
      refine Keeps.bind ?_ fun _ => ih _
      unfold MatchmakingService.seatPair
      exact hseated.bind fun roomId => (h.keeps_notifyUser _ (hfound roomId .white)).bind
        fun _ => h.keeps_notifyUser _ (hfound roomId .black)

/-- Either half of the matchmaking tick. -/
theorem keeps_matchmakingTick (h : EventRule cfg env .matchmakingTick P) :
    Keeps P (ServerRuntime.matchmakingTick cfg env) := by
  have hqueue : ∀ queue : Server → List QueueEntry,
      Keeps P (modify fun s => { s with queue := queue s } : ServerM Unit) := fun queue =>
    keeps_modify fun s hs => h.act (.setQueue (queue s)) s trivial trivial trivial hs
  unfold ServerRuntime.matchmakingTick
  split
  · unfold MatchmakingService.tick MatchmakingService.expireTimeouts MatchmakingService.tryMatch
    refine Keeps.bind (Keeps.bind Keeps.get fun s => ?_) fun _ => Keeps.bind Keeps.get fun s => ?_
    · exact (h.keeps_expireLoop _ _).bind fun still => hqueue fun _ => still
    · exact (h.keeps_matchLoop _ _).bind fun used => hqueue fun s =>
        s.queue.filter fun entry => entry.userId ∉ used
  · exact Keeps.pure _

/-! ### The clock and forfeits -/

/-- One room's tick: its clock, the message of a game that has ended, and the result. -/
theorem keeps_tickRoom (h : EventRule cfg env .tickAll P) (roomId : RoomId) :
    Keeps P (tickRoom cfg env roomId) := by
  intro s hs
  unfold tickRoom
  rw [wp_bind, wp_get]
  split
  · exact hs
  next e he =>
  dsimp only
  rw [wp_bind, wp_modify]
  have hticked : P (s.setEngine roomId (e.updateGameClock tickMs)) :=
    h.act (.engine roomId e .tick) s trivial rfl he hs
  have hengine : (s.setEngine roomId (e.updateGameClock tickMs)).engines.get? roomId =
      some (e.updateGameClock tickMs) := by
    rw [Server.get?_setEngine, if_pos rfl]
  generalize s.setEngine roomId (e.updateGameClock tickMs) = t at hticked hengine ⊢
  -- the state is sent, or it is not
  have hsent : wp (broadcastFinished env roomId e (e.updateGameClock tickMs))
      (fun _ u => P u ∧ u.engines = t.engines) (fun _ => P) t := by
    unfold broadcastFinished
    split
    · refine wp_mono (broadcastRoom_spec _ _ _) ?_ ?_
      · rintro _ u ⟨rfl, -⟩
        unfold Server.broadcast
        split
        · exact ⟨hticked, rfl⟩
        · exact ⟨h.state t _ _ _ _ hengine hticked, rfl⟩
      · rintro _ u ⟨rfl, -⟩
        exact hticked
    · exact ⟨hticked, rfl⟩
  refine wp_call hsent (fun _ _ hu => hu) ?_
  rintro _ u ⟨hu, hsame⟩
  rw [wp_bind, wp_get]
  split
  · next hover => exact h.result u roomId _ (hsame ▸ hengine) hover.1 hu
  · exact hu

/-- A forfeit, down to the result. -/
theorem keeps_forceForfeit (h : EventRule cfg env event P)
    (hforfeit : ∀ r before winner, (Action.engine r before (.forfeit winner)).Of (env, event))
    (roomId : RoomId) (loser : UserId) : Keeps P (forceForfeit cfg env roomId loser) := by
  intro s hs
  unfold forceForfeit
  rw [wp_bind, wp_get]
  split
  · exact hs
  next e he =>
  split
  · exact hs
  refine wp_call (getRoomPlayersForElo_spec _ _) ?_ ?_
  · -- a name that cannot be looked up raises before anything is written
    rintro _ t ⟨rfl, -⟩
    exact hs
  rintro players t ⟨rfl, -, -⟩
  split
  · exact hs
  next winner _ =>
  dsimp only
  rw [wp_bind, wp_modify]
  -- the result is applied in the state with the ended engine
  refine h.result _ roomId _ ?_ (gameOver_forceForfeit e winner) ?_
  · rw [Server.get?_setEngine, if_pos rfl]
  · exact h.act (.engine roomId e (.forfeit winner)) t trivial (hforfeit _ _ _) he hs

/-- The grace: countdowns, then the forfeits of those whose time is up. -/
theorem keeps_processDisconnectGrace (h : EventRule cfg env .processDisconnectGrace P) :
    Keeps P (ServerRuntime.processDisconnectGrace cfg env) := by
  refine processDisconnectGrace_keeps (fun entry => ?_) fun entry => ?_
  · unfold ServerRuntime.sendCountdown
    refine Keeps.bind Keeps.get fun s => Keeps.ite (Keeps.pure _) ?_
    exact (keeps_modify fun t ht => h.note t _ t.allocator ht).bind fun _ =>
      h.keeps_broadcastCountdown _ _ _
  · unfold ServerRuntime.forfeitExpired
    have hclear : Keeps P (clearDisconnectDeadline entry.1 entry.2) :=
      h.keeps_of_does (connection_does ⟨trivial, trivial⟩ fun _ => rfl)
    refine (h.keeps_forceForfeit (fun _ _ _ => trivial) _ _).bind fun _ => hclear.bind fun _ => ?_
    exact keeps_modify fun t ht => h.note t _ t.allocator ht

/-! ### Events -/

/-- **What the rule is good for.** -/
theorem keeps (h : EventRule cfg env event P) : Keeps P (event.run cfg env) := by
  cases event with
  | register userId username => exact h.keeps_of_does (register_does fun _ => ⟨trivial, trivial⟩)
  | play userId =>
    -- nothing but the queue is written
    have hqueue : ∀ queue, (Action.setQueue queue).Plain ∧
        (Action.setQueue queue).Of (env, .play userId) := fun _ => ⟨trivial, trivial⟩
    have hplay : Does (fun a => a.Plain ∧ a.Of (env, .play userId))
        (Event.run cfg env (.play userId)) :=
      (play_does hqueue userId).bind fun _ => Does.pure _
    exact h.keeps_of_does hplay
  | cancelPlay userId =>
    have hcancel : Does (fun a => a.Plain ∧ a.Of (env, .cancelPlay userId))
        (LobbyService.cancel cfg userId) := cancel_does (fun _ => ⟨trivial, trivial⟩) userId
    exact h.keeps_of_does ((hcancel.bind fun _ => Does.pure _).bind fun _ => Does.pure _)
  | createRoom userId =>
    -- the command opens a room, and the binding that follows is an aside
    have hcreate : Does (fun a => a.Plain ∧ a.Of (env, .createRoom userId))
        (LobbyService.createRoom env userId) :=
      createRoom_command_does ⟨trivial, rfl, rfl⟩ (fun _ _ => ⟨trivial, trivial⟩)
        fun _ => ⟨trivial, trivial⟩
    exact (h.keeps_of_does hcreate).bind fun outcome =>
      Keeps.ite (h.keeps_bindPlayers _ _) (Keeps.pure _)
  | joinRoom userId roomId =>
    have hjoin : Does (fun a => a.Plain ∧ a.Of (env, .joinRoom userId roomId))
        (LobbyService.joinRoom env userId roomId) :=
      joinRoom_command_does (fun _ => ⟨trivial, rfl⟩) (fun _ _ => ⟨trivial, trivial⟩)
        fun _ => ⟨trivial, trivial⟩
    exact (h.keeps_of_does hjoin).bind fun outcome =>
      Keeps.ite (h.keeps_bindPlayer _ _) (Keeps.pure _)
  | createMatch roomId whiteId blackId => exact h.keeps_handleCreateMatch
  | submitMove userId startPos endPos =>
    -- a move reaches the engine only
    have hmove : Does (fun a => a.Plain ∧ a.Of (env, .submitMove userId startPos endPos))
        (GameService.submitMove userId startPos endPos) :=
      submitMove_does fun _ _ _ => ⟨trivial, trivial⟩
    exact h.keeps_of_does (hmove.bind fun _ => Does.pure _)
  | reconnect userId =>
    have hreconnect : Does (fun a => a.Plain ∧ a.Of (env, .reconnect userId))
        (Event.run cfg env (.reconnect userId)) :=
      (reconnect_does fun _ _ => ⟨trivial, trivial⟩).bind fun _ => Does.pure _
    exact h.keeps_of_does hreconnect
  | clientDisconnected userId =>
    -- the user leaves the queue, is marked in its room, and the others are told
    change Keeps P (ServerRuntime.onClientDisconnected cfg env userId)
    unfold ServerRuntime.onClientDisconnected
    refine (h.keeps_of_does (cancel_does (fun _ => ⟨trivial, trivial⟩) userId)).bind fun _ => ?_
    have hmark : Does (fun a => a.Plain ∧ a.Of (env, .clientDisconnected userId))
        (markDisconnected env userId) :=
      markDisconnected_does (fun _ => ⟨trivial, rfl⟩) fun _ _ => ⟨trivial, trivial⟩
    refine (h.keeps_of_does hmark).bind fun roomId? => ?_
    split
    · exact Keeps.pure _
    · exact h.keeps_broadcastCountdown _ _ _
  | matchmakingTick => exact h.keeps_matchmakingTick
  -- a pass over the rooms keeps what the tick of one room keeps
  | tickAll => exact Keeps.bind Keeps.get fun s => Keeps.forM h.keeps_tickRoom _
  | processDisconnectGrace => exact h.keeps_processDisconnectGrace
  | forceForfeit roomId loser => exact h.keeps_forceForfeit (fun _ _ _ => trivial) roomId loser

/-- **One event.** -/
theorem step {s : Server} (h : EventRule cfg env event P) (hs : P s) :
    P (s.step cfg (env, event)) :=
  wp_iff_after.mp (h.keeps s hs)

/-- **Every run**, if the rule holds of all events. -/
theorem play {s : Server} (h : ∀ env event, EventRule cfg env event P) (hs : P s)
    (events : List (Env × Event)) : P (s.play cfg events) :=
  Run.stable (P := P) (fun _ event ht => (h event.1 event.2).step ht) hs

end EventRule

end KungFuChess
