import KungFuChess.Split.Handlers

/-!
# What a step of the deployment does to a shard

Whatever a step is, the services of a shard are left as they are, or have taken the events
that their handler stands for (`Handles`, `load_step`). So what holds of every event of a
server holds of every step of the deployment (`Cluster.load_invariant`); the tables that
processes share may change at any time.
-/

namespace KungFuChess

open Effect

/-! ### Shared tables -/

/-- The same services over other tables. -/
def SameServices (s t : Server) : Prop :=
  t = { s with allocator := t.allocator, users := t.users, games := t.games }

namespace SameServices

variable {s t : Server}

theorem refl (s : Server) : SameServices s s := rfl

theorem symm (h : SameServices s t) : SameServices t s := by
  unfold SameServices at h ⊢
  rw [h]

theorem rooms (h : SameServices s t) : t.rooms = s.rooms := by
  unfold SameServices at h
  rw [h]

theorem engines (h : SameServices s t) : t.engines = s.engines := by
  unfold SameServices at h
  rw [h]

end SameServices

/-- The room invariant does not depend on the tables. -/
theorem RoomInv.of_sameServices {s t : Server} (hs : RoomInv s) (h : SameServices s t) :
    RoomInv t := by
  unfold SameServices at h
  rw [h]
  exact ⟨hs.mapped, hs.roomed, hs.finished, hs.calls⟩

/-! ### The handlers of the runtime and of matches -/

/-- A match is an event, too. -/
theorem after_onCreateMatch {cfg : Config} {env : Env} {s : Server} {roomId : RoomId}
    {whiteId blackId : UserId} : after (onCreateMatch cfg env roomId whiteId blackId) s =
      s.step cfg (env, .createMatch roomId whiteId blackId) := by
  change after (EStateM.tryCatch (handleCreateMatch cfg env roomId whiteId blackId) _) s =
    after (handleCreateMatch cfg env roomId whiteId blackId) s
  unfold after EStateM.tryCatch
  cases handleCreateMatch cfg env roomId whiteId blackId s with
  | ok a t => rfl
  | error exn t => cases exn <;> rfl

/-- One pass of the runtime loop of a shard is the clock, and the grace unless the clock has
raised. -/
theorem after_runOnce {cfg : Config} {env : Env} {s : Server} {shardId : String}
    (hshard : cfg.deployment = .gameShard shardId) :
    after (ServerRuntime.runOnce cfg env) s = s.play cfg [(env, .tickAll)] ∨
      after (ServerRuntime.runOnce cfg env) s =
        s.play cfg [(env, .tickAll), (env, .processDisconnectGrace)] := by
  -- a shard has no matchmaking of its own
  have hmatch : ServerRuntime.matchmakingTick cfg env = pure () := by
    unfold ServerRuntime.matchmakingTick
    rw [hshard]
  have hiteration : ServerRuntime.iteration cfg env =
      GameService.tickAll cfg env >>= fun _ => ServerRuntime.processDisconnectGrace cfg env := by
    unfold ServerRuntime.iteration
    rw [hmatch, pure_bind]
  have hrun : after (ServerRuntime.runOnce cfg env) s =
      after (ServerRuntime.iteration cfg env) s := after_tryCatch_pure _ _ s
  -- what the pass raises is caught
  rw [hrun, hiteration]
  obtain h | ⟨_, h⟩ := after_bind_cases (GameService.tickAll cfg env)
    (fun _ => ServerRuntime.processDisconnectGrace cfg env) s
  · exact Or.inl h
  · exact Or.inr h

/-- The shard whose handler a step is. -/
def Input.shardId? : Input → Option String
  | .execute shardId _ | .deliver shardId _ | .runOnce shardId _ => some shardId
  | _ => none

namespace Cluster

/-- The events that a step of the deployment is on a shard. -/
inductive Handles (c : Cluster) (shardId : String) : Input → List (Env × Event) → Prop where
  | nothing (i : Input) : Handles c shardId i []
  | command (env : Env) (requestId : Nat) (command : GameCommand)
      (rest : List (Nat × GameCommand)) (event : Event) (hready : (c.shards shardId).Ready)
      (hcommands : (c.shards shardId).commands = (requestId, command) :: rest)
      (hevent : command.event? = some event) :
      Handles c shardId (.execute shardId env) [(env.overRedis, event)]
  | createMatch (env : Env) (roomId : RoomId) (whiteId blackId : UserId)
      (hready : (c.shards shardId).Ready)
      (hevent : c.matchmaker.events[(c.shards shardId).seen]? =
        some (.createMatch roomId whiteId blackId shardId)) :
      Handles c shardId (.deliver shardId env)
        [(env.overRedis, .createMatch roomId whiteId blackId)]
  | clock (env : Env) (hready : (c.shards shardId).Ready) :
      Handles c shardId (.runOnce shardId env) [(env.overRedis, .tickAll)]
  | clockAndGrace (env : Env) (hready : (c.shards shardId).Ready) :
      Handles c shardId (.runOnce shardId env)
        [(env.overRedis, .tickAll), (env.overRedis, .processDisconnectGrace)]

section Load

variable {cfg : ClusterConfig} {c : Cluster} {shardId other : String} {α : Type}
  {f : Option α → Shard → Shard}

/-- A shard whose memory is the same has the same services, whatever the tables are. -/
theorem sameServices_of_server {c' : Cluster}
    (h : (c'.shards shardId).server = (c.shards shardId).server) :
    SameServices (c.load shardId) (c'.load shardId) := by
  unfold SameServices load
  rw [h]

/-- What has been stored is what is loaded. -/
theorem load_store {s : Server} {g : Shard → Shard}
    (hg : ∀ shard, (g shard).server = shard.server) :
    (c.store shardId s g).load shardId = s := by
  unfold load store
  dsimp only
  rw [Function.update_self, hg]

theorem server_store_of_ne {s : Server} {g : Shard → Shard} (hne : other ≠ shardId) :
    (c.store shardId s g).shards other = c.shards other := Function.update_of_ne hne _ _

/-- A program of a shard leaves its services as it leaves its state. -/
theorem load_runShard (x : ServerM α) (hf : ∀ a shard, (f a shard).server = shard.server) :
    (c.runShard shardId x f).load shardId = after x (c.load shardId) := by
  unfold runShard after
  cases x (c.load shardId) with
  | ok a t => exact load_store (hf (some a))
  | error exn t => exact load_store fun shard => hf none shard

/-- A program of a shard returns, or ends the process. -/
theorem runShard_spec {x : ServerM α} {Q : α → Server → Prop} {E : Exn → Server → Prop}
    (hf : ∀ a shard, (f a shard).server = shard.server)
    (hcrashed : ∀ a shard, (f a shard).crashed = shard.crashed) (h : wp x Q E (c.load shardId)) :
    (((c.runShard shardId x f).shards shardId).crashed = (c.shards shardId).crashed ∧
        ∃ a, Q a ((c.runShard shardId x f).load shardId)) ∨
      (((c.runShard shardId x f).shards shardId).crashed = true ∧
        ∃ exn, E exn ((c.runShard shardId x f).load shardId)) := by
  rw [load_runShard x hf]
  unfold wp at h
  unfold runShard after
  -- a program that raises marks the process as dead
  cases hx : x (c.load shardId) with
  | ok a t =>
    rw [hx] at h
    refine Or.inl ⟨?_, a, h⟩
    unfold store
    dsimp only
    rw [Function.update_self, hcrashed]
  | error exn t =>
    rw [hx] at h
    refine Or.inr ⟨?_, exn, h⟩
    unfold store
    dsimp only
    rw [Function.update_self]

/-- A program of one shard leaves the others alone. -/
theorem shards_runShard_of_ne (x : ServerM α) (hne : other ≠ shardId) :
    (c.runShard shardId x f).shards other = c.shards other := by
  unfold runShard
  split
  · exact server_store_of_ne hne
  · exact server_store_of_ne hne

/-! ### Steps and processes -/

/-- The process has the memory it had, and is as alive as it was. -/
structure SameProcess (shard shard' : Shard) : Prop where
  server : shard'.server = shard.server
  crashed : shard'.crashed = shard.crashed

/-- No process runs a program; the matchmaker only runs its own. -/
structure NoProgram (c c' : Cluster) (i : Input) : Prop where
  processes : ∀ id, SameProcess (c.shards id) (c'.shards id)
  matchmaker : (∀ input, i ≠ .matchmaker input) → c'.matchmaker = c.matchmaker

theorem SameProcess.refl (shard : Shard) : SameProcess shard shard := ⟨rfl, rfl⟩

/-- A change to the bus of a shard. -/
theorem NoProgram.of_update {c' : Cluster} {i : Input} {shard : Shard}
    (hshards : c'.shards = Function.update c.shards shardId shard)
    (hsame : SameProcess (c.shards shardId) shard) (hmatchmaker : c'.matchmaker = c.matchmaker) :
    NoProgram c c' i := by
  refine ⟨fun id => ?_, fun _ => hmatchmaker⟩
  rw [hshards, Function.update_apply]
  split
  · next hid => rw [hid]; exact hsame
  · exact .refl _

theorem NoProgram.of_shards {c' : Cluster} {i : Input} (hshards : c'.shards = c.shards)
    (hmatchmaker : c'.matchmaker = c.matchmaker) : NoProgram c c' i :=
  ⟨fun _ => hshards ▸ .refl _, fun _ => hmatchmaker⟩

/-- A gateway call runs no program of a shard. -/
theorem noProgram_advance (requestId : Nat) :
    NoProgram c (c.advance cfg requestId) (.advance requestId) := by
  unfold advance
  split
  · exact .of_shards rfl rfl
  split
  · unfold route
    split <;> exact .of_shards rfl rfl
  · exact .of_shards rfl rfl
  · exact .of_update rfl ⟨rfl, rfl⟩ rfl
  · split <;> exact .of_shards rfl rfl
  · split <;> exact .of_shards rfl rfl
  · exact .of_shards rfl rfl

/-- **A step runs a program of the shard whose handler it is, or none.** -/
theorem step_program (cfg : ClusterConfig) (c : Cluster) (i : Input) :
    NoProgram c (c.step cfg i) i ∨ ∃ id, i.shardId? = some id ∧ (c.shards id).Ready ∧
      ∃ (α : Type) (x : ServerM α) (f : Option α → Shard → Shard),
        c.step cfg i = c.runShard id x f := by
  have hkept : NoProgram c c i := .of_shards rfl rfl
  cases i with
  -- the steps of gateways and of the matchmaker touch no shard
  | register | call | expire => exact Or.inl (.of_shards rfl rfl)
  | matchmaker input => exact Or.inl ⟨fun _ => .refl _, fun h => absurd rfl (h input)⟩
  | advance requestId => exact Or.inl (noProgram_advance requestId)
  | timeout requestId =>
    simp only [step, timeout]
    split <;> exact Or.inl (.of_shards rfl rfl)
  -- a reply that is pushed leaves the memory of the shard alone
  | reply id =>
    simp only [step, reply]
    split
    · exact Or.inl hkept
    · exact Or.inl (.of_update rfl ⟨rfl, rfl⟩ rfl)
  -- a handler is a program, provided the shard is ready and has something to take
  | execute id env =>
    simp only [step]
    split
    · next hready =>
      unfold execute
      split
      · exact Or.inl hkept
      · exact Or.inr ⟨id, rfl, hready, _, _, _, rfl⟩
    · exact Or.inl hkept
  | deliver id env =>
    simp only [step]
    split
    · next hready =>
      unfold deliver
      split
      · exact Or.inl hkept
      · split
        · exact Or.inr ⟨id, rfl, hready, _, _, _, rfl⟩
        · exact Or.inl (.of_update rfl ⟨rfl, rfl⟩ rfl)
      · exact Or.inl (.of_update rfl ⟨rfl, rfl⟩ rfl)
    · exact Or.inl hkept
  | runOnce id env =>
    simp only [step]
    split
    · next hready => exact Or.inr ⟨id, rfl, hready, _, _, _, rfl⟩
    · exact Or.inl hkept

variable {i : Input}

/-- A step of another process leaves a shard's memory and life alone. -/
theorem sameProcess_of_ne (cfg : ClusterConfig) (hne : i.shardId? ≠ some shardId) :
    SameProcess (c.shards shardId) ((c.step cfg i).shards shardId) := by
  obtain hnone | ⟨id, hid, -, α, x, f, hstep⟩ := step_program cfg c i
  · exact hnone.processes shardId
  · rw [hstep, shards_runShard_of_ne x]
    · exact .refl _
    · rintro rfl
      exact hne hid

/-- A process that has ended stays down. -/
theorem alive_of_step (h : ((c.step cfg i).shards shardId).crashed = false) :
    (c.shards shardId).crashed = false := by
  obtain hnone | ⟨id, -, hready, α, x, f, hstep⟩ := step_program cfg c i
  · rw [← (hnone.processes shardId).crashed]
    exact h
  · by_cases hid : shardId = id
    · rw [hid]
      exact hready.1
    · rw [hstep, shards_runShard_of_ne x hid] at h
      exact h

theorem matchmaker_runShard (x : ServerM α) (f : Option α → Shard → Shard) :
    (c.runShard shardId x f).matchmaker = c.matchmaker := by
  unfold runShard
  split <;> rfl

/-- Only its own steps change the matchmaker. -/
theorem matchmaker_step (hne : ∀ input, i ≠ .matchmaker input) :
    (c.step cfg i).matchmaker = c.matchmaker := by
  obtain hnone | ⟨id, -, -, α, x, f, hstep⟩ := step_program cfg c i
  · exact hnone.matchmaker hne
  · rw [hstep]
    exact matchmaker_runShard x f

/-- The services of the shard have gone on by events that the input hands to it. -/
def GoesOn (cfg : ClusterConfig) (c c' : Cluster) (shardId : String) (i : Input) : Prop :=
  ∃ events, Handles c shardId i events ∧
    SameServices ((c.load shardId).play (config cfg shardId) events) (c'.load shardId)

theorem goesOn_of_sameProcess {c' : Cluster}
    (h : SameProcess (c.shards shardId) (c'.shards shardId)) : GoesOn cfg c c' shardId i :=
  ⟨[], .nothing i, sameServices_of_server h.server⟩

/-- A command of the bus is handled by the events of `Handles`. -/
theorem goesOn_execute (cfg : ClusterConfig) (c : Cluster) (shardId : String) (env : Env) :
    GoesOn cfg c (c.step cfg (.execute shardId env)) shardId (.execute shardId env) := by
  simp only [step]
  split
  · next hready =>
    simp only [execute]
    split
    · exact goesOn_of_sameProcess (.refl _)
    · next requestId command rest hcommands =>
      have hload : (c.execute cfg shardId env).load shardId =
          after (handleCommand (config cfg shardId) env.overRedis command) (c.load shardId) := by
        unfold execute
        rw [hcommands]
        exact load_runShard _ fun _ _ => rfl
      unfold execute at hload
      rw [hcommands] at hload
      unfold GoesOn
      rw [hload, after_handleCommand]
      -- a look at a state is no event
      cases hevent : command.event? with
      | none => exact ⟨[], .nothing _, .refl _⟩
      | some event =>
        exact ⟨_, .command env requestId command rest event hready hcommands hevent, .refl _⟩
  · exact goesOn_of_sameProcess (.refl _)

/-- A match is opened by the event of `Handles`, and other messages are passed over. -/
theorem goesOn_deliver (cfg : ClusterConfig) (c : Cluster) (shardId : String) (env : Env) :
    GoesOn cfg c (c.step cfg (.deliver shardId env)) shardId (.deliver shardId env) := by
  -- an event that is passed over
  have hpassed : ∀ {shard : Shard}, SameProcess (c.shards shardId) shard →
      SameProcess (c.shards shardId) (Function.update c.shards shardId shard shardId) := by
    intro shard hsame
    rw [Function.update_self]
    exact hsame
  simp only [step]
  split
  · next hready =>
    simp only [deliver]
    split
    · exact goesOn_of_sameProcess (.refl _)
    · next roomId whiteId blackId target hevent =>
      split
      · next htarget =>
        subst htarget
        unfold GoesOn
        rw [load_runShard (f := fun _ shard => { shard with seen := shard.seen + 1 }) _
          fun _ _ => rfl, after_onCreateMatch]
        exact ⟨_, .createMatch env roomId whiteId blackId hready hevent, .refl _⟩
      · exact goesOn_of_sameProcess (hpassed ⟨rfl, rfl⟩)
    · exact goesOn_of_sameProcess (hpassed ⟨rfl, rfl⟩)
  · exact goesOn_of_sameProcess (.refl _)

/-- A pass of the loop is the clock, or the clock and the grace. -/
theorem goesOn_runOnce (cfg : ClusterConfig) (c : Cluster) (shardId : String) (env : Env) :
    GoesOn cfg c (c.step cfg (.runOnce shardId env)) shardId (.runOnce shardId env) := by
  simp only [step]
  split
  · next hready =>
    unfold GoesOn
    rw [load_runShard (f := fun _ shard => shard) _ fun _ _ => rfl]
    -- the grace comes after the clock, unless that has raised
    obtain h | h := @after_runOnce (config cfg shardId) env.overRedis (c.load shardId) shardId rfl
    · exact ⟨_, .clock env hready, h ▸ .refl _⟩
    · exact ⟨_, .clockAndGrace env hready, h ▸ .refl _⟩
  · exact goesOn_of_sameProcess (.refl _)

/-- **What a step does to the services of a shard.** -/
theorem load_step (cfg : ClusterConfig) (c : Cluster) (i : Input) (shardId : String) :
    ∃ events, Handles c shardId i events ∧
      SameServices ((c.load shardId).play (config cfg shardId) events)
        ((c.step cfg i).load shardId) := by
  -- only the shard that handles something changes its services
  by_cases hhandler : i.shardId? = some shardId
  · cases i with
    | execute id env =>
      obtain rfl : id = shardId := Option.some.inj hhandler
      exact goesOn_execute cfg c id env
    | deliver id env =>
      obtain rfl : id = shardId := Option.some.inj hhandler
      exact goesOn_deliver cfg c id env
    | runOnce id env =>
      obtain rfl : id = shardId := Option.some.inj hhandler
      exact goesOn_runOnce cfg c id env
    | _ => cases hhandler
  · exact goesOn_of_sameProcess (sameProcess_of_ne cfg hhandler)

/-- **The invariant rule for shards.** What the events of a server keep, and does not depend on
the tables, holds of the services of every shard. -/
theorem load_invariant {P : Server → Prop} {c : Cluster}
    (hstep : ∀ shardId s event, P s → P (s.step (config cfg shardId) event))
    (htables : ∀ s t, P s → SameServices s t → P t) (i : Input)
    (h : ∀ shardId, P (c.load shardId)) (shardId : String) : P ((c.step cfg i).load shardId) := by
  obtain ⟨events, -, hsame⟩ := load_step cfg c i shardId
  refine htables _ _ ?_ hsame
  exact Run.stable (P := P) (fun s event hs => hstep shardId s event hs) (h shardId)

theorem roomInv_step (i : Input) (h : ∀ shardId, RoomInv (c.load shardId)) (shardId : String) :
    RoomInv ((c.step cfg i).load shardId) :=
  load_invariant (fun id s event hs => hs.of_acts (s.step_acts (config cfg id) event))
    (fun _ _ hs hsame => hs.of_sameServices hsame) i h shardId

theorem roomInv_start (users : Dict UserId User) (games : Dict RoomId GameResult)
    (shardId : String) : RoomInv ((start users games).load shardId) :=
  RoomInv.initial users games

end Load

end Cluster

end KungFuChess
