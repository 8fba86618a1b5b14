import KungFuChess.Server.Members
import KungFuChess.Split.CommandBus
import KungFuChess.Split.OneSeat
import KungFuChess.Split.Directory

/-!
# The two calls about a connection

A shard learns from two calls whether a user is connected: `player_disconnected` and
`player_reconnect`. `Coming` says that the command of such a call may still reach a shard. A step
of the deployment takes nothing from it but by executing the command (`Tells`), unless a look-up
does not lead to the shard (`coming_step`).

On the shard a player has the status he had, or the step has written it: it executes such a
command, or gives the seat (`hasSeat_step`).
-/

namespace KungFuChess

open Effect RoomService

/-- The other of the two statuses. -/
def ConnectionStatus.other : ConnectionStatus → ConnectionStatus
  | .connected => .disconnected
  | .disconnected => .connected

theorem ConnectionStatus.other_ne (status : ConnectionStatus) : status.other ≠ status := by
  cases status <;> nofun

/-- The request that tells a shard that the user has the status. -/
def Request.telling (userId : UserId) : ConnectionStatus → Request
  | .connected => .reconnect userId
  | .disconnected => .onDisconnect userId

/-- A command tells one status of one user. -/
theorem Request.telling_injective {u v : UserId} {status status' : ConnectionStatus}
    (h : (telling u status).command = (telling v status').command) : u = v ∧ status = status' := by
  cases status <;> cases status' <;> cases h <;> exact ⟨rfl, rfl⟩

/-- The command of a call in this phase may still be pushed to the shard. -/
def CallPhase.MayReach (shardId : String) : CallPhase → Prop
  | .begun | .located _ => True
  | .addressed target => target = shardId
  | _ => False

namespace Cluster

/-- The command of the request may still reach the shard, or is in its queue. -/
def Coming (c : Cluster) (request : Request) (shardId : String) : Prop :=
  (∃ (n : Nat) (phase : CallPhase), c.calls[n]? = some ⟨request, phase⟩ ∧ phase.MayReach shardId) ∨
    ∃ n, (n, request.command) ∈ (c.shards shardId).commands

/-- What the next look-up of a call about the user finds is right for the shard. -/
def LeadsTo (c : Cluster) (userId : UserId) (shardId : String) : CallPhase → Prop
  | .begun => ∃ roomId, c.allocator.userRoom.get? userId = some roomId
  | .located roomId => c.allocator.roomShard.get? roomId = some shardId
  | _ => True

/-- In this step the shard is told the status of the user. -/
def Tells (c : Cluster) (i : Input) (shardId : String) (userId : UserId)
    (status : ConnectionStatus) : Prop :=
  ∃ env n, i = .execute shardId env ∧ c.Executes shardId n (Request.telling userId status).command

/-- The user sits as white or black in a game of the shard that is not over, and has the status
there. -/
structure HasSeat (c : Cluster) (shardId : String) (roomId : RoomId) (userId : UserId)
    (role : PlayerRole) (status : ConnectionStatus) : Prop where
  alive : (c.shards shardId).crashed = false
  standing : (c.load shardId).standing roomId userId = some (role, status)
  player : role ≠ .viewer
  running : Running (c.load shardId) roomId

/-- The step writes the status of a player: the shard is told, or gives the seat. -/
inductive Writes (c : Cluster) (i : Input) (shardId : String) (roomId : RoomId)
    (userId : UserId) : ConnectionStatus → Prop where
  | told (status old : ConnectionStatus) (role : PlayerRole)
      (hseat : HasSeat c shardId roomId userId role old)
      (htells : c.Tells i shardId userId status) :
      Writes c i shardId roomId userId status
  | seated (role : PlayerRole) (env : Env) (event : Event) (hplayer : role ≠ .viewer)
      (hseats : Seats c i shardId roomId userId role env event) :
      Writes c i shardId roomId userId .connected

section Bus

variable {cfg : ClusterConfig} {c : Cluster} {i : Input} {id : String} {n : Nat} {u : UserId}
  {status : ConnectionStatus} {request : Request} {command : GameCommand} {phase : CallPhase}

/-- A command leaves a queue by being executed. -/
theorem queued_step (cfg : ClusterConfig) (h : (n, command) ∈ (c.shards id).commands) :
    (n, command) ∈ ((c.step cfg i).shards id).commands ∨
      ∃ env, i = .execute id env ∧ c.Executes id n command := by
  have hkept : (∀ id, ((c.step cfg i).shards id).bus = (c.shards id).bus) →
      (n, command) ∈ ((c.step cfg i).shards id).commands := by
    intro hbus
    rwa [show ((c.step cfg i).shards id).commands = (c.shards id).commands from
      congrArg ShardBus.commands (hbus id)]
  cases busStep cfg c i with
  | kept _ _ hsame => exact Or.inl (hkept hsame.bus)
  | begun _ _ _ hbus => exact Or.inl (hkept hbus)
  | moved _ _ _ _ _ _ _ _ _ hbus => exact Or.inl (hkept hbus)
  | popped _ _ _ _ _ _ _ _ _ hbus => exact Or.inl (hkept hbus)
  | timedOut _ _ _ _ _ hbus => exact Or.inl (hkept hbus)
  | expired _ _ _ hbus => exact Or.inl (hkept hbus)
  -- the command is appended, and those before it stay
  | pushed requestId call shardId _ _ _ _ hbus =>
    rw [hbus.commands]
    split
    · next hid => exact Or.inl (List.mem_append_left _ (hid ▸ h))
    · exact Or.inl h
  | executed shardId env requestId head rest _ _ hready hcommands _ _ _ hbus =>
    rw [hbus.commands]
    -- a shard takes the first command of its own queue
    by_cases hid : id = shardId
    · subst hid
      rw [hcommands] at h
      rcases List.mem_cons.mp h with heq | hrest
      · cases heq
        exact Or.inr ⟨env, rfl, hready, by rw [hcommands]; rfl⟩
      · exact Or.inl (by rwa [if_pos rfl])
    · exact Or.inl (by rwa [if_neg hid])
  -- a reply that is pushed leaves the queue alone
  | replied shardId _ _ _ _ _ hbus =>
    rw [hbus.commands]
    split
    · next hid => exact Or.inl (hid ▸ h)
    · exact Or.inl h

/-- A call that may still reach the shard stays as it is until it runs its next command. -/
theorem call_step (cfg : ClusterConfig) (hi : i ≠ .advance n)
    (hcall : c.calls[n]? = some ⟨request, phase⟩) (hreach : phase.MayReach id) :
    (c.step cfg i).calls[n]? = some ⟨request, phase⟩ := by
  -- the step goes on with another call
  have hother : ∀ {m phase'}, PhaseSet c (c.step cfg i) m phase' → m ≠ n →
      (c.step cfg i).calls[n]? = some ⟨request, phase⟩ := by
    intro m phase' hcalls hne
    rw [hcalls n, if_neg hne.symm, hcall]
  have hadvance : ∀ {m}, i = .advance m → m ≠ n := fun hm heq => hi (heq ▸ hm)
  cases busStep cfg c i with
  | kept _ _ hsame => rw [hsame.calls, hcall]
  | begun _ hcalls =>
    rw [hcalls, List.getElem?_append_left (List.getElem?_eq_some_iff.mp hcall).1, hcall]
  | moved m _ _ _ _ _ _ hcalls => exact hother hcalls (hadvance rfl)
  | pushed m _ _ _ _ hcalls => exact hother hcalls (hadvance rfl)
  | popped m _ _ _ _ _ _ hcalls => exact hother hcalls (hadvance rfl)
  | timedOut m call hout hcalls =>
    -- only a call that waits for its reply times out
    refine hother hcalls ?_
    rintro rfl
    obtain ⟨target, hwaiting⟩ := hout.waiting
    cases hcall.symm.trans hout.found
    obtain rfl : phase = .waiting target := hwaiting
    exact hreach
  | expired _ hcalls => rw [hcalls, hcall]
  | executed _ _ _ _ _ _ _ _ _ _ hcalls => rw [hcalls, hcall]
  | replied _ _ _ _ hcalls => rw [hcalls, hcall]

/-- The next command of a call about a user brings it nearer to the shard. -/
theorem advance_coming (hcall : c.calls[n]? = some ⟨.telling u status, phase⟩)
    (hreach : phase.MayReach id) (hleads : c.LeadsTo u id phase) :
    (c.step cfg (.advance n)).Coming (.telling u status) id := by
  have hset : ∀ phase', phase'.MayReach id →
      (c.setPhase n phase').Coming (.telling u status) id := by
    intro phase' hreach'
    refine Or.inl ⟨n, phase', ?_, hreach'⟩
    rw [phaseSet_setPhase n phase' n, if_pos rfl, hcall]
    rfl
  have hstep : c.step cfg (.advance n) = c.advance cfg n := rfl
  unfold advance at hstep
  rw [hcall] at hstep
  cases phase with
  | begun =>
    -- the directory maps the user to a room
    obtain ⟨roomId, hroom⟩ := hleads
    have hroute : c.route cfg n (.telling u status) = c.setPhase n (.located roomId) := by
      cases status <;> simp only [Request.telling, route, hroom, afterRoomForUser]
    rw [hstep]
    dsimp only
    rw [hroute]
    exact hset _ trivial
  | located roomId =>
    rw [hstep]
    dsimp only
    -- and the room to this shard
    rw [show c.allocator.roomShard.get? roomId = some id from hleads]
    exact hset _ rfl
  | addressed target =>
    cases (hreach : target = id)
    -- the command is pushed to the queue of this shard
    rw [hstep]
    refine Or.inr ⟨n, ?_⟩
    unfold setPhase modifyShard
    dsimp only
    rw [Function.update_self]
    exact List.mem_append_right _ (List.mem_singleton.mpr rfl)
  | waiting | refused | returned => exact hreach.elim

/-- **A command on its way stays on its way** until it is executed, if the look-ups of its call
lead to the shard or the queue of the shard holds another one. -/
theorem coming_step (cfg : ClusterConfig) (h : c.Coming (.telling u status) id)
    (hlook : ∀ n phase, i = .advance n → c.calls[n]? = some ⟨.telling u status, phase⟩ →
      c.LeadsTo u id phase ∨
        ∃ m, (m, (Request.telling u status).command) ∈ (c.shards id).commands) :
    (c.step cfg i).Coming (.telling u status) id ∨ c.Tells i id u status := by
  have hqueue : (∃ m, (m, (Request.telling u status).command) ∈ (c.shards id).commands) →
      (c.step cfg i).Coming (.telling u status) id ∨ c.Tells i id u status := by
    -- what is queued stays queued, or is executed
    rintro ⟨m, hm⟩
    rcases queued_step cfg hm with hkept | ⟨env, hi, hexecutes⟩
    · exact Or.inl (Or.inr ⟨m, hkept⟩)
    · exact Or.inr ⟨env, m, hi, hexecutes⟩
  rcases h with ⟨n, phase, hcall, hreach⟩ | hqueued
  · -- the call has not sent its command yet
    by_cases hi : i = .advance n
    · rcases hlook n phase hi hcall with hleads | hqueued
      · rw [hi]
        exact Or.inl (advance_coming hcall hreach hleads)
      · exact hqueue hqueued
    · exact Or.inl (Or.inl ⟨n, phase, call_step cfg hi hcall hreach, hreach⟩)
  · exact hqueue hqueued

/-- A call that has begun may reach every shard. -/
theorem coming_call (cfg : ClusterConfig) (c : Cluster) (request : Request) (id : String) :
    (c.step cfg (.call request)).Coming request id :=
  Or.inl ⟨c.calls.length, .begun, by simp [step], trivial⟩

/-- Neither a look-up nor a handler. -/
theorem Coming.of_step (h : c.Coming (.telling u status) id) (hadvance : ∀ n, i ≠ .advance n)
    (hhandler : i.shardId? = none) : (c.step cfg i).Coming (.telling u status) id := by
  refine (coming_step cfg h fun n _ hi _ => absurd hi (hadvance n)).resolve_right ?_
  rintro ⟨env, n, rfl, -⟩
  cases hhandler

end Bus

/-! ### What the shard makes of it -/

section Seats

variable {cfg : ClusterConfig} {c : Cluster} {i : Input} {id : String} {r : RoomId} {u : UserId}
  {role : PlayerRole} {status : ConnectionStatus}

/-- The handler of the command writes the status of the user's seat, and no other. -/
theorem handleCommand_telling {config : Config} {env : Env} {s : Server} (hinv : RoomInv s)
    (userId : UserId) (status : ConnectionStatus) :
    wp (handleCommand config env (Request.telling userId status).command)
      (fun _ => SetsStatus userId status s) (fun _ _ => True) s := by
  -- a call that is answered has come to the same as its event
  cases status with
  | connected =>
    have hafter : after (handleCommand config env (.playerReconnect userId)) s =
        after (reconnect userId) s :=
      (after_handleCommand (.playerReconnect userId)).trans (after_bind_pure _ _)
    refine wp_mono (wp_iff_after.mpr ?_) (fun _ _ h => h) fun _ _ _ => trivial
    change SetsStatus userId .connected s
      (after (handleCommand config env (.playerReconnect userId)) s)
    rw [hafter]
    exact reconnect_setsStatus hinv userId
  | disconnected =>
    change wp (handleCommand config env (.playerDisconnected userId)) _ _ s
    unfold handleCommand
    exact wp_call (onClientDisconnected_setsStatus hinv config env userId) (fun _ _ h => h)
      fun _ _ h => h

/-- What a program ensures when it returns, if the process is still up. -/
theorem runShard_alive {α : Type} {x : ServerM α} {f : Option α → Shard → Shard}
    {P : Server → Prop} (hf : ∀ a shard, (f a shard).server = shard.server)
    (hcrashed : ∀ a shard, (f a shard).crashed = shard.crashed)
    (h : wp x (fun _ => P) (fun _ _ => True) (c.load id))
    (halive : ((c.runShard id x f).shards id).crashed = false) :
    P ((c.runShard id x f).load id) := by
  obtain ⟨-, _, hP⟩ | ⟨hdown, -⟩ := runShard_spec hf hcrashed h
  · exact hP
  · exact absurd (halive.symm.trans hdown) nofun

/-- A shard that executes the command of a call sets the status. -/
theorem Tells.setsStatus (hinv : RoomInv (c.load id)) (h : c.Tells i id u status)
    (halive : ((c.step cfg i).shards id).crashed = false) :
    SetsStatus u status (c.load id) ((c.step cfg i).load id) := by
  obtain ⟨env, n, rfl, hready, hfirst⟩ := h
  obtain ⟨rest, hcommands⟩ : ∃ rest, (c.shards id).commands =
      (n, (Request.telling u status).command) :: rest :=
    List.head?_eq_some_iff.mp hfirst
  simp only [step, if_pos hready, execute, hcommands] at halive ⊢
  exact runShard_alive (fun _ _ => rfl) (fun _ _ => rfl) (handleCommand_telling hinv u status)
    halive

theorem standing_of_sameServices {s t : Server} (h : SameServices s t) :
    t.standing r u = s.standing r u := standing_of_rooms h.rooms

/-- Nobody is told anything in this step. -/
theorem standing_untold (hinv : RoomInv (c.load id)) (huntold : ∀ v status, ¬ c.Tells i id v status)
    (h : ((c.step cfg i).load id).standing r u = some (role, status))
    (hrunning : Running ((c.step cfg i).load id) r) :
    (c.load id).standing r u = some (role, status) ∨
      status = .connected ∧ (c.load id).userRoom.get? u = none := by
  obtain ⟨events, hhandles, hsame⟩ := load_step cfg c i id
  rw [standing_of_sameServices hsame] at h
  have hrunning := hrunning.of_sameServices hsame
  have hseated : ∀ {env event}, (∀ r u f, ¬ Action.Of (env, event) (.connection r u f)) →
      event ≠ .matchmakingTick →
      ((c.load id).step (config cfg id) (env, event)).standing r u = some (role, status) →
      Running ((c.load id).step (config cfg id) (env, event)) r →
      (c.load id).standing r u = some (role, status) ∨
        status = .connected ∧ (c.load id).userRoom.get? u = none := by
    intro env event hconnection htick h hrunning
    exact (standing_step hinv hconnection htick h hrunning).imp_right fun ⟨hstatus, hseats⟩ =>
      ⟨hstatus, unmapped_of_seats hseats⟩
  -- whoever gets a seat had no room; the clock and the grace seat nobody
  cases hhandles with
  | nothing => exact Or.inl h
  | command env n command rest event hready hcommands hevent =>
    have hfirst : c.Executes id n command := ⟨hready, by rw [hcommands]; rfl⟩
    cases command with
    | roomCreate | roomJoin | move =>
      cases hevent
      refine hseated ?_ ?_ h hrunning
      · exact fun _ _ _ h => h
      · exact nofun
    | getState => cases hevent
    -- these two would have told somebody
    | playerDisconnected v => exact absurd ⟨env, n, rfl, hfirst⟩ (huntold v .disconnected)
    | playerReconnect v => exact absurd ⟨env, n, rfl, hfirst⟩ (huntold v .connected)
  | createMatch env roomId whiteId blackId =>
    refine hseated ?_ ?_ h hrunning
    · exact fun _ _ _ h => h
    · exact nofun
  -- the clock and the grace tell no one
  | clock env => exact Or.inl (tickAll_noNews _ _ _ r u _ h)
  | clockAndGrace env =>
    exact Or.inl (tickAll_noNews _ _ _ r u _ (processDisconnectGrace_noNews _ _ _ r u _ h))

/-- **The status of a player** is what it was, and the shard is not told otherwise, or the step
has written it. -/
theorem hasSeat_step (hinv : RoomInv (c.load id)) (h : HasSeat (c.step cfg i) id r u role status) :
    HasSeat c id r u role status ∧ ¬ c.Tells i id u status.other ∨ c.Writes i id r u status := by
  have halive := alive_of_step h.alive
  have hrunning := running_of_step h.running
  -- either the shard is told something, or it is not
  by_cases htold : ∃ v status', c.Tells i id v status'
  · obtain ⟨v, status', htells⟩ := htold
    have hsets := htells.setsStatus hinv h.alive r u role status h.standing h.player
    split at hsets
    · next hu =>
      subst hu
      -- it is told about this user
      obtain ⟨rfl, old, hold⟩ := hsets
      exact Or.inr (.told status old role ⟨halive, hold, h.player, hrunning⟩ htells)
    · next hu =>
      refine Or.inl ⟨⟨halive, hsets, h.player, hrunning⟩, ?_⟩
      -- the shard executes one command, about another user
      rintro ⟨env, n, hi, hother⟩
      obtain ⟨env', n', hi', htells⟩ := htells
      have hhead := hother.first.symm.trans htells.first
      exact hu (Request.telling_injective (Prod.mk.inj (Option.some.inj hhead)).2).1
  · have huntold : ∀ v status, ¬ c.Tells i id v status := fun v status htells =>
      htold ⟨v, status, htells⟩
    obtain hold | ⟨rfl, hfree⟩ := standing_untold hinv huntold h.standing h.running
    · exact Or.inl ⟨⟨halive, hold, h.player, hrunning⟩, huntold u _⟩
    · have hseated : Seated (c.step cfg i) id r u role :=
        ⟨h.alive, memberRole_of_standing h.standing, h.running⟩
      obtain hbefore | ⟨env, event, hseats⟩ := seated_step hseated
      · -- who was seated was in a room
        exact absurd ((hbefore.mapped hinv).symm.trans hfree) nofun
      · exact Or.inr (.seated role env event h.player hseats)

/-- What is no handler of a shard leaves the seats alone. -/
theorem HasSeat.of_step (h : HasSeat (c.step cfg i) id r u role status)
    (hhandler : i.shardId? = none) : HasSeat c id r u role status := by
  have hsame : SameProcess (c.shards id) ((c.step cfg i).shards id) :=
    sameProcess_of_ne cfg (by rw [hhandler]; exact nofun)
  have hservices := sameServices_of_server hsame.server
  have hstanding := (standing_of_sameServices hservices).symm.trans h.standing
  exact ⟨hsame.crashed.symm.trans h.alive, hstanding, h.player,
    h.running.of_sameServices hservices⟩

/-- A step that writes a status is a handler of the shard, which is not told the other. -/
theorem Writes.shardId_eq (h : c.Writes i id r u status) : i.shardId? = some id := by
  cases h with
  -- the command is executed on this shard
  | told _ _ _ _ htells =>
    obtain ⟨_, _, rfl, -⟩ := htells
    rfl
  | seated _ _ _ _ hseats => exact hseats.handles.shardId_eq

theorem Writes.not_advance (h : c.Writes i id r u status) (n : Nat) : i ≠ .advance n := by
  rintro rfl
  cases h.shardId_eq

/-- Who writes one status does not tell the other in the same step. -/
theorem Writes.not_tells_other (h : c.Writes i id r u status) : ¬ c.Tells i id u status.other := by
  rintro ⟨env, n, rfl, hother⟩
  cases h with
  | told _ _ _ _ htells =>
    obtain ⟨env', n', -, htells⟩ := htells
    have hhead := hother.first.symm.trans htells.first
    exact status.other_ne (Request.telling_injective (Prod.mk.inj (Option.some.inj hhead)).2).2
  -- an event that gives a seat is no status
  | seated role env' event _ hseats =>
    have hseated := hseats.seats
    cases hseats.handles with
    | command _ n' command rest _ _ hcommands hevent =>
      have hfirst := hother.first
      rw [hcommands] at hfirst
      cases hfirst
      cases hevent
      exact hseated

end Seats

end Cluster

end KungFuChess
