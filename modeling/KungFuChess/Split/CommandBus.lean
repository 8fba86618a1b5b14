import KungFuChess.Split.ClusterSteps

/-!
# The command bus

A gateway call and the shard that serves it meet in three places: the queue of the shard, the
reply that the shard has not pushed, and the key of the reply. `BusStep` lists what a step of
the deployment does to them and to the phases of the calls, and `CallsInv` says what holds
between them: a request is in one of the three places or has left them, it is executed once,
and a refusal that is on its way belongs to a command that has changed nothing.
-/

namespace KungFuChess

open Effect

/-! ### The steps of the bus -/

/-- The command of the call has been pushed, or never will be. -/
def CallPhase.Sent : CallPhase → Prop
  | .begun | .located _ | .addressed _ => False
  | _ => True

/-- The call is over, and `GameCommandBus.call` has returned this. -/
def CallPhase.Returned (reply : GameReply) (phase : CallPhase) : Prop :=
  phase = .returned (some reply)

/-- How a call has come by its next phase, where that was a look-up for `reconnect`. -/
def CallPhase.Follows (a : GameAllocator) (call : GatewayCall) : CallPhase → Prop
  | .located roomId => call.phase = .begun ∧
    ∀ u, call.request.reconnects = some u → a.userRoom.get? u = some roomId
  | .addressed shardId => ∀ u, call.request.reconnects = some u →
    ∃ roomId, call.phase = .located roomId ∧ a.roomShard.get? roomId = some shardId
  | .refused => ∃ roomId, call.phase = .located roomId ∧ a.roomShard.get? roomId = none
  | .returned _ => True
  | .begun | .waiting _ => False

/-- What the bus sees of a shard. -/
structure ShardBus where
  commands : List (Nat × GameCommand)
  answer : Option (Nat × GameReply)
  log : List Execution

/-- What of a shard the bus is about. -/
def Shard.bus (shard : Shard) : ShardBus := ⟨shard.commands, shard.answer, shard.log⟩

namespace Cluster

/-- Calls, replies and queues of the two states are the same, but for what is said. -/
structure SameBus (c c' : Cluster) : Prop where
  calls : c'.calls = c.calls
  replies : c'.replies = c.replies
  bus : ∀ id, (c'.shards id).bus = (c.shards id).bus

/-- A call goes on to a phase. -/
def PhaseSet (c c' : Cluster) (requestId : Nat) (phase : CallPhase) : Prop :=
  ∀ n, c'.calls[n]? =
    if n = requestId then (c.calls[n]?).map fun call => { call with phase := phase }
    else c.calls[n]?

/-- One shard changes what the bus sees of it. -/
def BusSet (c c' : Cluster) (shardId : String) (bus : ShardBus) : Prop :=
  ∀ id, (c'.shards id).bus = if id = shardId then bus else (c.shards id).bus

/-- The wait of the call may end: no reply has come. -/
structure TimesOut (c : Cluster) (requestId : Nat) (call : GatewayCall) : Prop where
  found : c.calls[requestId]? = some call
  waiting : ∃ shardId, call.phase = .waiting shardId
  none : c.replies.get? requestId = none

/-- It is the turn of this command. -/
structure Executes (c : Cluster) (shardId : String) (requestId : Nat) (command : GameCommand) :
    Prop where
  ready : (c.shards shardId).Ready
  first : (c.shards shardId).commands.head? = some (requestId, command)

/-- No wait ends and no command is executed. -/
def Idle (c : Cluster) : Input → Prop
  | .timeout requestId => ∀ call, ¬ c.TimesOut requestId call
  | .execute shardId _ => ∀ requestId command, ¬ c.Executes shardId requestId command
  | _ => True

/-- What a step does to the bus. -/
inductive BusStep (cfg : ClusterConfig) (c c' : Cluster) : Input → Prop where
  | kept (i : Input) (hidle : c.Idle i) (h : SameBus c c') : BusStep cfg c c' i
  | begun (request : Request) (hcalls : c'.calls = c.calls ++ [⟨request, .begun⟩])
      (hreplies : c'.replies = c.replies) (hbus : ∀ id, (c'.shards id).bus = (c.shards id).bus) :
      BusStep cfg c c' (.call request)
  /-- A look-up or the removal of a mapping: no reply is handed out. -/
  | moved (requestId : Nat) (call : GatewayCall) (phase : CallPhase)
      (hcall : c.calls[requestId]? = some call) (hsent : call.phase.Sent → phase.Sent)
      (hphase : ∀ reply, ¬ phase.Returned reply) (hfollows : phase.Follows c.allocator call)
      (hcalls : PhaseSet c c' requestId phase) (hreplies : c'.replies = c.replies)
      (hbus : ∀ id, (c'.shards id).bus = (c.shards id).bus) :
      BusStep cfg c c' (.advance requestId)
  | pushed (requestId : Nat) (call : GatewayCall) (shardId : String)
      (hcall : c.calls[requestId]? = some call) (hphase : call.phase = .addressed shardId)
      (hcalls : PhaseSet c c' requestId (.waiting shardId)) (hreplies : c'.replies = c.replies)
      (hbus : BusSet c c' shardId { (c.shards shardId).bus with
        commands := (c.shards shardId).commands ++ [(requestId, call.request.command)] }) :
      BusStep cfg c c' (.advance requestId)
  | popped (requestId : Nat) (call : GatewayCall) (shardId : String) (reply : GameReply)
      (hcall : c.calls[requestId]? = some call) (hphase : call.phase = .waiting shardId)
      (hreply : c.replies.get? requestId = some reply)
      (hcalls : PhaseSet c c' requestId (afterCall call.request reply))
      (hreplies : c'.replies = c.replies.pop requestId)
      (hbus : ∀ id, (c'.shards id).bus = (c.shards id).bus) :
      BusStep cfg c c' (.advance requestId)
  | timedOut (requestId : Nat) (call : GatewayCall) (hout : c.TimesOut requestId call)
      (hcalls : PhaseSet c c' requestId
        (afterCall call.request { ok := false, error := "game server timeout" }))
      (hreplies : c'.replies = c.replies) (hbus : ∀ id, (c'.shards id).bus = (c.shards id).bus) :
      BusStep cfg c c' (.timeout requestId)
  | expired (requestId : Nat) (hcalls : c'.calls = c.calls)
      (hreplies : c'.replies = c.replies.pop requestId)
      (hbus : ∀ id, (c'.shards id).bus = (c.shards id).bus) : BusStep cfg c c' (.expire requestId)
  | executed (shardId : String) (env : Env) (requestId : Nat) (command : GameCommand)
      (rest : List (Nat × GameCommand)) (reply? : Option GameReply) (t : Server)
      (hready : (c.shards shardId).Ready)
      (hcommands : (c.shards shardId).commands = (requestId, command) :: rest)
      (hrun : wp (handleCommand (config cfg shardId) env.overRedis command)
        (fun reply u => reply? = some reply ∧ t = u) (fun _ u => reply? = none ∧ t = u)
        (c.load shardId))
      (hcalls : c'.calls = c.calls) (hreplies : c'.replies = c.replies)
      (hbus : BusSet c c' shardId ⟨rest, reply?.map fun reply => (requestId, reply),
        (c.shards shardId).log ++ [⟨requestId, command, c.load shardId, t⟩]⟩) :
      BusStep cfg c c' (.execute shardId env)
  | replied (shardId : String) (requestId : Nat) (reply : GameReply)
      (hanswer : (c.shards shardId).answer = some (requestId, reply)) (hcalls : c'.calls = c.calls)
      (hreplies : c'.replies = c.replies.set requestId reply)
      (hbus : BusSet c c' shardId { (c.shards shardId).bus with answer := none }) :
      BusStep cfg c c' (.reply shardId)

section Steps

variable {cfg : ClusterConfig} {c : Cluster} {requestId : Nat} {shardId : String}

/-- Setting a phase changes that call and nothing else. -/
theorem phaseSet_setPhase (requestId : Nat) (phase : CallPhase) :
    PhaseSet c (c.setPhase requestId phase) requestId phase := by
  intro n
  unfold setPhase
  dsimp only
  rw [List.getElem?_modify]
  by_cases h : requestId = n
  · subst h
    simp
  · simp [h, Ne.symm h]

/-- A call that has looked for its shard has not returned a reply. -/
theorem not_returned_afterShardFor {request : Request} {shard? : Option String}
    (reply : GameReply) : ¬ (afterShardFor request shard?).Returned reply := by
  unfold afterShardFor CallPhase.Returned
  split
  · simp
  · split <;> simp

theorem not_returned_afterRoomForUser {room? : Option RoomId} (reply : GameReply) :
    ¬ (afterRoomForUser room?).Returned reply := by
  unfold afterRoomForUser CallPhase.Returned
  split <;> simp

/-- A call for a room is addressed to the shard that is found, or returns. -/
theorem follows_afterShardFor {a : GameAllocator} {call : GatewayCall}
    (hrequest : call.request.reconnects = none) (shard? : Option String) :
    (afterShardFor call.request shard?).Follows a call := by
  unfold afterShardFor
  split
  · intro u hu
    rw [hrequest] at hu
    cases hu
  · rw [hrequest]
    trivial

/-- What the look-up of the room leads to is a phase that follows the beginning. -/
theorem follows_afterRoomForUser {call : GatewayCall} {userId : UserId}
    (hphase : call.phase = .begun)
    (hrequest : ∀ u, call.request.reconnects = some u → u = userId) :
    (afterRoomForUser (c.allocator.userRoom.get? userId)).Follows c.allocator call := by
  unfold afterRoomForUser
  split
  · next roomId hroom =>
    refine ⟨hphase, fun u hu => ?_⟩
    rw [hrequest u hu, hroom]
  · trivial

/-- The shard of a room that has been found. -/
theorem follows_afterLocated {call : GatewayCall} {roomId : RoomId}
    (hphase : call.phase = .located roomId) :
    (afterShardFor call.request (c.allocator.roomShard.get? roomId)).Follows c.allocator call := by
  unfold afterShardFor
  split
  · next shardId hshard => exact fun u _ => ⟨roomId, hphase, hshard⟩
  · next hshard =>
    split
    · exact ⟨roomId, hphase, hshard⟩
    · trivial

/-- One shard that is replaced is a change of its bus. -/
theorem busSet_update {shard : Shard} {bus : ShardBus} {c' : Cluster}
    (h : c'.shards = Function.update c.shards shardId shard) (hbus : shard.bus = bus) :
    BusSet c c' shardId bus := by
  intro id
  rw [h, Function.update_apply, ← hbus]
  split <;> rfl

/-- A shard changes, and the bus sees nothing of it. -/
theorem bus_update {shard : Shard} {c' : Cluster}
    (h : c'.shards = Function.update c.shards shardId shard)
    (hbus : shard.bus = (c.shards shardId).bus) (id : String) :
    (c'.shards id).bus = (c.shards id).bus := by
  rw [busSet_update h rfl id]
  split
  · next heq => rw [hbus, heq]
  · rfl

/-- The first command of a call is a look-up. -/
theorem route_moved {call : GatewayCall} (hcall : c.calls[requestId]? = some call)
    (hphase : call.phase = .begun) :
    BusStep cfg c (c.route cfg requestId call.request) (.advance requestId) := by
  have hsent : ∀ phase : CallPhase, call.phase.Sent → phase.Sent := by
    intro phase h
    rw [hphase] at h
    exact h.elim
  cases hrequest : call.request with
  -- a new room is sent to the next shard in turn, with no look-up
  | createRoom userId =>
    refine .moved requestId call _ hcall (hsent _) (fun _ => by simp [CallPhase.Returned]) ?_
      (phaseSet_setPhase requestId _) rfl fun _ => rfl
    intro u hu
    rw [hrequest] at hu
    cases hu
  -- a room that is named is looked up by its id
  | joinRoom userId roomId | buildStateDict roomId =>
    refine .moved requestId call _ hcall (hsent _) not_returned_afterShardFor ?_
      (phaseSet_setPhase requestId _) rfl fun _ => rfl
    rw [← hrequest]
    exact follows_afterShardFor (by rw [hrequest]; rfl) _
  -- otherwise the room of the user is looked up first
  | submitMove userId _ _ | onDisconnect userId | reconnect userId =>
    refine .moved requestId call _ hcall (hsent _) not_returned_afterRoomForUser ?_
      (phaseSet_setPhase requestId _) rfl fun _ => rfl
    refine follows_afterRoomForUser hphase fun u hu => ?_
    rw [hrequest] at hu
    cases hu <;> rfl

/-- A command of a call is one of the steps of the bus. -/
theorem advance_bus (requestId : Nat) :
    BusStep cfg c (c.advance cfg requestId) (.advance requestId) := by
  unfold advance
  cases hcall : c.calls[requestId]? with
  -- there is no such call
  | none => exact .kept _ trivial ⟨rfl, rfl, fun _ => rfl⟩
  | some call =>
    dsimp only
    cases hphase : call.phase with
    | begun => exact route_moved hcall hphase
    | located roomId =>
      exact .moved requestId call _ hcall (by rw [hphase]; exact False.elim)
        not_returned_afterShardFor (follows_afterLocated hphase) (phaseSet_setPhase requestId _)
        rfl fun _ => rfl
    -- the command is pushed to the queue of the shard
    | addressed shardId =>
      exact .pushed requestId call shardId hcall hphase (phaseSet_setPhase requestId _) rfl
        (busSet_update rfl rfl)
    | waiting shardId =>
      dsimp only
      -- the reply is popped, if it is there
      cases hreply : c.replies.get? requestId with
      | none => exact .kept _ trivial ⟨rfl, rfl, fun _ => rfl⟩
      | some reply =>
        exact .popped requestId call shardId reply hcall hphase hreply
          (phaseSet_setPhase requestId _) rfl fun _ => rfl
    -- a rejoin that has been refused clears the mapping and returns
    | refused =>
      dsimp only
      cases call.request.reconnects with
      | none => exact .kept _ trivial ⟨rfl, rfl, fun _ => rfl⟩
      | some userId =>
        exact .moved requestId call (.returned none) hcall (fun _ => trivial)
          (fun _ => by simp [CallPhase.Returned]) trivial
          (phaseSet_setPhase requestId _) rfl fun _ => rfl
    | returned reply => exact .kept _ trivial ⟨rfl, rfl, fun _ => rfl⟩

/-- `blpop` gives up only on a reply that is not there. -/
theorem timeout_bus (requestId : Nat) :
    BusStep cfg c (c.timeout requestId) (.timeout requestId) := by
  unfold timeout
  split
  · next request shardId hcall hreply =>
    exact .timedOut requestId _ ⟨hcall, ⟨shardId, rfl⟩, hreply⟩ (phaseSet_setPhase requestId _) rfl
      fun _ => rfl
  · next hidle =>
    refine .kept _ ?_ ⟨rfl, rfl, fun _ => rfl⟩
    rintro ⟨request, phase⟩ ⟨hcall, ⟨shardId, rfl⟩, hreply⟩
    exact hidle request shardId hcall hreply

/-- A program that the bus sees nothing of. -/
theorem runShard_sameBus {α : Type} {x : ServerM α} {f : Option α → Shard → Shard}
    (hf : ∀ a shard, (f a shard).bus = shard.bus) : SameBus c (c.runShard shardId x f) := by
  unfold runShard
  split
  · exact ⟨rfl, rfl, bus_update rfl (hf _ _)⟩
  · exact ⟨rfl, rfl, bus_update rfl (hf none _)⟩

/-- The shard takes the first command of its queue. -/
theorem execute_bus {env : Env} (hready : (c.shards shardId).Ready) :
    BusStep cfg c (c.execute cfg shardId env) (.execute shardId env) := by
  unfold execute
  cases hcommands : (c.shards shardId).commands with
  | nil =>
    refine .kept _ ?_ ⟨rfl, rfl, fun _ => rfl⟩
    rintro requestId command ⟨-, hfirst⟩
    rw [hcommands] at hfirst
    cases hfirst
  | cons head rest =>
    obtain ⟨requestId, command⟩ := head
    dsimp only
    unfold runShard
    cases hrun : handleCommand (config cfg shardId) env.overRedis command (c.load shardId) with
    -- the handler returns: its reply is on its way
    | ok reply t =>
      refine .executed shardId env requestId command rest (some reply) t hready hcommands ?_ rfl rfl
        (busSet_update rfl rfl)
      unfold wp
      rw [hrun]
      exact ⟨rfl, rfl⟩
    -- the handler raises: there will be no reply
    | error exn t =>
      refine .executed shardId env requestId command rest none t hready hcommands ?_ rfl rfl
        (busSet_update rfl rfl)
      unfold wp
      rw [hrun]
      exact ⟨rfl, rfl⟩

/-- **What a step does to the bus.** -/
theorem busStep (cfg : ClusterConfig) (c : Cluster) (i : Input) :
    BusStep cfg c (c.step cfg i) i := by
  have hkept : c.Idle i → BusStep cfg c c i := fun h => .kept _ h ⟨rfl, rfl, fun _ => rfl⟩
  cases i with
  | register userId username => exact .kept _ trivial ⟨rfl, rfl, fun _ => rfl⟩
  | call request => exact .begun request rfl rfl fun _ => rfl
  | advance requestId => exact advance_bus requestId
  | timeout requestId => exact timeout_bus requestId
  | expire requestId => exact .expired requestId rfl rfl fun _ => rfl
  | matchmaker input => exact .kept _ trivial ⟨rfl, rfl, fun _ => rfl⟩
  | execute shardId env =>
    simp only [step]
    split
    · next hready => exact execute_bus hready
    · next hready => exact hkept fun requestId command h => hready h.ready
  | reply shardId =>
    simp only [step, reply]
    cases hanswer : (c.shards shardId).answer with
    | none => exact hkept trivial
    | some answer =>
      obtain ⟨requestId, reply⟩ := answer
      exact .replied shardId requestId reply hanswer rfl rfl (busSet_update rfl rfl)
  -- matches have queues of their own
  | deliver shardId env =>
    simp only [step]
    split
    · unfold deliver
      split
      · exact hkept trivial
      · split
        · exact .kept _ trivial (runShard_sameBus fun _ _ => rfl)
        · exact .kept _ trivial ⟨rfl, rfl, bus_update rfl rfl⟩
      · exact .kept _ trivial ⟨rfl, rfl, bus_update rfl rfl⟩
    · exact hkept trivial
  | runOnce shardId env =>
    simp only [step]
    split
    · exact .kept _ trivial (runShard_sameBus fun _ _ => rfl)
    · exact hkept trivial

end Steps

/-! ### A request on its way -/

/-- The command of a call has been pushed, or never will be. -/
def Sent (c : Cluster) (requestId : Nat) : Prop :=
  ∃ call, c.calls[requestId]? = some call ∧ call.phase.Sent

/-- The request is in the queue of the shard. -/
def QueuedAt (c : Cluster) (shardId : String) (requestId : Nat) : Prop :=
  requestId ∈ (c.shards shardId).commands.map Prod.fst

/-- The shard has executed the request. -/
def Logged (c : Cluster) (shardId : String) (x : Execution) : Prop :=
  x ∈ (c.shards shardId).log

/-- The reply is not pushed yet, or not popped. -/
def OnItsWay (c : Cluster) (requestId : Nat) (reply : GameReply) : Prop :=
  (∃ id, (c.shards id).answer = some (requestId, reply)) ∨ c.replies.get? requestId = some reply

/-- A shard has taken the request from its queue. -/
def Taken (c : Cluster) (requestId : Nat) : Prop :=
  (∃ id x, Logged c id x ∧ x.requestId = requestId) ∨ ∃ reply, OnItsWay c requestId reply

/-- What holds between calls, queues, replies and executions. -/
structure CallsInv (c : Cluster) : Prop where
  queued : ∀ {id n}, QueuedAt c id n → Sent c n
  taken : ∀ {n}, Taken c n → Sent c n
  /-- A request is taken once. -/
  once : ∀ {id n}, QueuedAt c id n → ¬ Taken c n
  nodup : ∀ id, ((c.shards id).commands.map Prod.fst).Nodup
  apart : ∀ {id id' n}, QueuedAt c id n → QueuedAt c id' n → id = id'
  /-- What plays is refused with nothing changed, or changes something. -/
  refused : ∀ {id x}, Logged c id x → x.command.Plays →
    (SameGames x.before x.after ↔ Refuses x.before x.command)
  /-- A refusal on its way belongs to a command that the shard has rejected. -/
  refusal : ∀ {n reply id x}, OnItsWay c n reply → reply.ok = false → Logged c id x →
    x.requestId = n → x.command.Plays → Refuses x.before x.command

section Calls

variable {cfg : ClusterConfig} {c c' : Cluster}

theorem Taken.of_logged {n : Nat} {id : String} {x : Execution} (h : Logged c id x)
    (hx : x.requestId = n) : Taken c n := Or.inl ⟨id, x, h, hx⟩

theorem Taken.of_onItsWay {n : Nat} {reply : GameReply} (h : OnItsWay c n reply) : Taken c n :=
  Or.inr ⟨reply, h⟩

/-- At the start there are no calls. -/
theorem callsInv_start (users : Dict UserId User) (games : Dict RoomId GameResult) :
    CallsInv (start users games) := by
  have hqueued : ∀ {id n}, ¬ QueuedAt (start users games) id n := fun h => by cases h
  have hlogged : ∀ {id x}, ¬ Logged (start users games) id x := fun h => by cases h
  have hway : ∀ {n reply}, ¬ OnItsWay (start users games) n reply := by
    rintro n reply (⟨id, h⟩ | h) <;> cases h
  refine ⟨fun h => absurd h hqueued, ?_, fun h => absurd h hqueued, fun id => List.nodup_nil,
    fun h => absurd h hqueued, fun h => absurd h hlogged, fun h => absurd h hway⟩
  rintro n (⟨id, x, h, -⟩ | ⟨reply, h⟩)
  · exact absurd h hlogged
  · exact absurd h hway

/-- A step that takes nothing from a queue and puts nothing into one. -/
structure Calm (c c' : Cluster) : Prop where
  commands : ∀ id, (c'.shards id).commands = (c.shards id).commands
  log : ∀ id, (c'.shards id).log = (c.shards id).log
  onItsWay : ∀ {n reply}, OnItsWay c' n reply → OnItsWay c n reply
  sent : ∀ {n}, Sent c n → Sent c' n

theorem Calm.queuedAt (h : Calm c c') {id : String} {n : Nat} :
    QueuedAt c' id n ↔ QueuedAt c id n := by
  unfold QueuedAt
  rw [h.commands]

theorem Calm.logged (h : Calm c c') {id : String} {x : Execution} :
    Logged c' id x ↔ Logged c id x := by
  unfold Logged
  rw [h.log]

theorem Calm.taken (h : Calm c c') {n : Nat} (hn : Taken c' n) : Taken c n := by
  obtain ⟨id, x, hx, rfl⟩ | ⟨reply, hreply⟩ := hn
  · exact .of_logged (h.logged.mp hx) rfl
  · exact .of_onItsWay (h.onItsWay hreply)

/-- **Calm steps keep the invariant.** -/
theorem CallsInv.of_calm (hinv : CallsInv c) (h : Calm c c') : CallsInv c' where
  queued hq := h.sent (hinv.queued (h.queuedAt.mp hq))
  taken ht := h.sent (hinv.taken (h.taken ht))
  once hq ht := hinv.once (h.queuedAt.mp hq) (h.taken ht)
  nodup id := by
    rw [h.commands]
    exact hinv.nodup id
  apart hq hq' := hinv.apart (h.queuedAt.mp hq) (h.queuedAt.mp hq')
  refused hx := hinv.refused (h.logged.mp hx)
  refusal hway hok hx := hinv.refusal (h.onItsWay hway) hok (h.logged.mp hx)

/-- What the bus sees of the shards decides their part of what is on its way. -/
theorem OnItsWay.of_bus {n : Nat} {reply : GameReply} (h : OnItsWay c' n reply)
    (hbus : ∀ id, (c'.shards id).bus = (c.shards id).bus)
    (hreplies : c'.replies.get? n = some reply → c.replies.get? n = some reply) :
    OnItsWay c n reply := by
  obtain ⟨id, hanswer⟩ | hreply := h
  · refine Or.inl ⟨id, ?_⟩
    rw [← hanswer]
    exact (congrArg ShardBus.answer (hbus id)).symm
  · exact Or.inr (hreplies hreply)

/-- Steps that change no bus are calm. -/
theorem Calm.of_bus (hbus : ∀ id, (c'.shards id).bus = (c.shards id).bus)
    (hreplies : ∀ {n reply}, c'.replies.get? n = some reply → c.replies.get? n = some reply)
    (hsent : ∀ {n}, Sent c n → Sent c' n) : Calm c c' where
  commands id := congrArg ShardBus.commands (hbus id)
  log id := congrArg ShardBus.log (hbus id)
  onItsWay h := h.of_bus hbus hreplies
  sent := hsent

theorem Sent.of_calls (hcalls : c'.calls = c.calls) {n : Nat} (h : Sent c n) : Sent c' n := by
  unfold Sent
  rw [hcalls]
  exact h

/-- A call that goes on stays sent if it was. -/
theorem Sent.of_phaseSet {requestId : Nat} {phase : CallPhase} {call : GatewayCall}
    (hcalls : PhaseSet c c' requestId phase) (hcall : c.calls[requestId]? = some call)
    (hphase : call.phase.Sent → phase.Sent) {n : Nat} (h : Sent c n) : Sent c' n := by
  obtain ⟨call', hcall', hsent⟩ := h
  unfold Sent
  rw [hcalls n]
  split
  · next hn =>
    subst hn
    obtain rfl : call = call' := Option.some.inj (hcall.symm.trans hcall')
    exact ⟨_, by rw [hcall]; rfl, hphase hsent⟩
  · exact ⟨call', hcall', hsent⟩

theorem sent_afterCall (request : Request) (reply : GameReply) :
    (afterCall request reply).Sent := by
  unfold afterCall
  split <;> trivial

end Calls

/-! ### The invariant survives every step -/

section Invariant

variable {cfg : ClusterConfig} {c c' : Cluster} {shardId : String}

namespace BusSet

variable {bus : ShardBus} (h : BusSet c c' shardId bus) (id : String)

include h

/-- The queue of every shard after one of them has changed. -/
theorem commands : (c'.shards id).commands =
    if id = shardId then bus.commands else (c.shards id).commands := by
  have hbus := congrArg ShardBus.commands (h id)
  rw [apply_ite ShardBus.commands] at hbus
  exact hbus

/-- The reply that every shard owes after one of them has changed. -/
theorem answer : (c'.shards id).answer =
    if id = shardId then bus.answer else (c.shards id).answer := by
  have hbus := congrArg ShardBus.answer (h id)
  rw [apply_ite ShardBus.answer] at hbus
  exact hbus

theorem log : (c'.shards id).log = if id = shardId then bus.log else (c.shards id).log := by
  have hbus := congrArg ShardBus.log (h id)
  rw [apply_ite ShardBus.log] at hbus
  exact hbus

/-- A shard that executes nothing. -/
theorem log_same (hlog : bus.log = (c.shards shardId).log) :
    (c'.shards id).log = (c.shards id).log := by
  rw [h.log]
  split
  · next hid => rw [hid, hlog]
  · rfl

end BusSet

/-- The reply of a shard goes over to its key. -/
theorem calm_replied {requestId : Nat} {reply : GameReply}
    (hanswer : (c.shards shardId).answer = some (requestId, reply)) (hcalls : c'.calls = c.calls)
    (hreplies : c'.replies = c.replies.set requestId reply)
    (hbus : BusSet c c' shardId { (c.shards shardId).bus with answer := none }) : Calm c c' := by
  have hcommands : ∀ id, (c'.shards id).commands = (c.shards id).commands := by
    intro id
    rw [hbus.commands]
    split
    · next hid => rw [hid]; rfl
    · rfl
  refine ⟨hcommands, fun id => hbus.log_same id rfl, ?_, fun h => h.of_calls hcalls⟩
  rintro n reply' (⟨id, h⟩ | h)
  · rw [hbus.answer] at h
    split at h
    · cases h
    · exact Or.inl ⟨id, h⟩
  · rw [hreplies, Dict.get?_set] at h
    split at h
    · next hn =>
      -- the reply set is the one the shard owed
      cases h
      subst hn
      exact Or.inl ⟨shardId, hanswer⟩
    · exact Or.inr h

/-- What is in a queue after a push was in it, or is the request that has been pushed. -/
theorem QueuedAt.of_pushed {requestId : Nat} {command : GameCommand}
    {answer : Option (Nat × GameReply)} {log : List Execution} {id : String} {n : Nat}
    (h : QueuedAt c' id n)
    (hbus : BusSet c c' shardId
      ⟨(c.shards shardId).commands ++ [(requestId, command)], answer, log⟩) :
    QueuedAt c id n ∨ id = shardId ∧ n = requestId := by
  unfold QueuedAt at h ⊢
  rw [hbus.commands] at h
  split at h
  · next hid =>
    rw [List.map_append, List.mem_append] at h
    exact h.imp (fun h => hid ▸ h) fun h => ⟨hid, List.mem_singleton.mp h⟩
  · exact Or.inl h

/-- What is in a queue after a command has left one was in it. -/
theorem QueuedAt.of_executed {requestId : Nat} {command : GameCommand}
    {rest : List (Nat × GameCommand)} {answer : Option (Nat × GameReply)} {log : List Execution}
    {id : String} {n : Nat} (h : QueuedAt c' id n)
    (hcommands : (c.shards shardId).commands = (requestId, command) :: rest)
    (hbus : BusSet c c' shardId ⟨rest, answer, log⟩) : QueuedAt c id n := by
  unfold QueuedAt at h ⊢
  rw [hbus.commands] at h
  split at h
  · next hid =>
    rw [hid, hcommands]
    exact List.mem_cons_of_mem _ h
  · exact h

/-- A push hands out no reply. -/
theorem OnItsWay.of_pushed {bus : ShardBus} {n : Nat} {reply : GameReply} (h : OnItsWay c' n reply)
    (hanswer : bus.answer = (c.shards shardId).answer) (hreplies : c'.replies = c.replies)
    (hbus : BusSet c c' shardId bus) : OnItsWay c n reply := by
  obtain ⟨id, h⟩ | h := h
  · refine Or.inl ⟨id, ?_⟩
    rw [hbus.answer, hanswer] at h
    split at h
    · next hid => rw [hid]; exact h
    · exact h
  · rw [hreplies] at h
    exact Or.inr h

/-- A command hands out its own reply. -/
theorem OnItsWay.of_executed {requestId : Nat} {rest : List (Nat × GameCommand)}
    {reply? : Option GameReply} {log : List Execution} {n : Nat} {reply : GameReply}
    (h : OnItsWay c' n reply) (hreplies : c'.replies = c.replies)
    (hbus : BusSet c c' shardId ⟨rest, reply?.map fun reply => (requestId, reply), log⟩) :
    OnItsWay c n reply ∨ n = requestId ∧ reply? = some reply := by
  obtain ⟨id, h⟩ | h := h
  · rw [hbus.answer] at h
    split at h
    · obtain ⟨reply', hreply', heq⟩ := Option.map_eq_some_iff.mp h
      cases heq
      exact Or.inr ⟨rfl, hreply'⟩
    · exact Or.inl (Or.inl ⟨id, h⟩)
  · rw [hreplies] at h
    exact Or.inl (Or.inr h)

/-- A request that is pushed is a new one. -/
theorem CallsInv.pushed (hinv : CallsInv c) {requestId : Nat} {call : GatewayCall}
    (hcall : c.calls[requestId]? = some call) (hphase : call.phase = .addressed shardId)
    (hcalls : PhaseSet c c' requestId (.waiting shardId)) (hreplies : c'.replies = c.replies)
    (hbus : BusSet c c' shardId { (c.shards shardId).bus with
      commands := (c.shards shardId).commands ++ [(requestId, call.request.command)] }) :
    CallsInv c' := by
  have hnew : ¬ Sent c requestId := by
    rintro ⟨call', hcall', hsent⟩
    obtain rfl : call = call' := Option.some.inj (hcall.symm.trans hcall')
    rw [hphase] at hsent
    exact hsent
  have hsent : ∀ {n}, Sent c n → Sent c' n :=
    fun h => h.of_phaseSet hcalls hcall fun _ => trivial
  have hsent' : Sent c' requestId := by
    unfold Sent
    rw [hcalls, if_pos rfl, hcall]
    exact ⟨_, rfl, trivial⟩
  have hcommands : (c'.shards shardId).commands =
      (c.shards shardId).commands ++ [(requestId, call.request.command)] := by
    rw [hbus.commands, if_pos rfl]
  have hqueued : ∀ {id n}, QueuedAt c' id n → QueuedAt c id n ∨ id = shardId ∧ n = requestId :=
    fun h => h.of_pushed hbus
  have hlogged : ∀ {id x}, Logged c' id x → Logged c id x := by
    intro id x h
    unfold Logged at h ⊢
    rw [← hbus.log_same id rfl]
    exact h
  have hway : ∀ {n reply}, OnItsWay c' n reply → OnItsWay c n reply :=
    fun h => h.of_pushed rfl hreplies hbus
  have htaken : ∀ {n}, Taken c' n → Taken c n := by
    rintro n (⟨id, x, hx, rfl⟩ | ⟨reply, hreply⟩)
    · exact .of_logged (hlogged hx) rfl
    · exact .of_onItsWay (hway hreply)
  refine ⟨?_, fun h => hsent (hinv.taken (htaken h)), ?_, fun id => ?_, ?_,
    fun hx => hinv.refused (hlogged hx), fun h hok hx => hinv.refusal (hway h) hok (hlogged hx)⟩
  -- a request is in the queue from before, or it is the new one, which is nowhere else
  · intro id n h
    obtain h | ⟨-, rfl⟩ := hqueued h
    · exact hsent (hinv.queued h)
    · exact hsent'
  · -- what has been taken is not pushed again, since the request is new
    intro id n h ht
    obtain h | ⟨-, rfl⟩ := hqueued h
    · exact hinv.once h (htaken ht)
    · exact hnew (hinv.taken (htaken ht))
  · by_cases hid : id = shardId
    · subst hid
      rw [hcommands, List.map_append, List.nodup_append]
      refine ⟨hinv.nodup id, List.nodup_singleton _, fun n hn m hm hnm => ?_⟩
      obtain rfl := List.mem_singleton.mp hm
      subst hnm
      exact hnew (hinv.queued hn)
    · rw [hbus.commands, if_neg hid]
      exact hinv.nodup id
  · intro id id' n h h'
    obtain h | ⟨rfl, rfl⟩ := hqueued h
    · obtain h' | ⟨-, rfl⟩ := hqueued h'
      · exact hinv.apart h h'
      · exact absurd (hinv.queued h) hnew
    · obtain h' | ⟨rfl, -⟩ := hqueued h'
      · exact absurd (hinv.queued h') hnew
      · rfl

/-- A command leaves the queue, and its reply is on its way. -/
theorem CallsInv.executed (hinv : CallsInv c) {requestId : Nat} {command : GameCommand}
    {rest : List (Nat × GameCommand)} {reply? : Option GameReply} {x : Execution}
    (hcommands : (c.shards shardId).commands = (requestId, command) :: rest)
    (hx : x.requestId = requestId)
    (hrefused : x.command.Plays → (SameGames x.before x.after ↔ Refuses x.before x.command))
    (hrefusal : ∀ reply, reply? = some reply → reply.ok = false → x.command.Plays →
      Refuses x.before x.command)
    (hcalls : c'.calls = c.calls) (hreplies : c'.replies = c.replies)
    (hbus : BusSet c c' shardId
      ⟨rest, reply?.map fun reply => (requestId, reply), (c.shards shardId).log ++ [x]⟩) :
    CallsInv c' := by
  -- the executed command is the head of the queue, and stands there once only
  have hhead : QueuedAt c shardId requestId := by
    unfold QueuedAt
    rw [hcommands]
    exact List.mem_cons_self
  have hnodup : requestId ∉ rest.map Prod.fst ∧ (rest.map Prod.fst).Nodup := by
    have h := hinv.nodup shardId
    rw [hcommands] at h
    exact List.nodup_cons.mp h
  have hrest : (c'.shards shardId).commands = rest := by
    rw [hbus.commands, if_pos rfl]
  have hqueued : ∀ {id n}, QueuedAt c' id n → QueuedAt c id n ∧ n ≠ requestId := by
    intro id n h
    have hold := h.of_executed hcommands hbus
    refine ⟨hold, ?_⟩
    rintro rfl
    obtain rfl := hinv.apart hold hhead
    unfold QueuedAt at h
    rw [hrest] at h
    exact hnodup.1 h
  -- the log has grown by one execution
  have hlogged : ∀ {id y}, Logged c' id y → Logged c id y ∨ y = x := by
    intro id y h
    unfold Logged at h
    rw [hbus.log] at h
    split at h
    · next hid =>
      subst hid
      exact (List.mem_append.mp h).imp_right List.mem_singleton.mp
    · exact Or.inl h
  have hway : ∀ {n reply}, OnItsWay c' n reply →
      OnItsWay c n reply ∨ n = requestId ∧ reply? = some reply :=
    fun h => h.of_executed hreplies hbus
  have htaken : ∀ {n}, Taken c' n → Taken c n ∨ n = requestId := by
    rintro n (⟨id, y, hy, rfl⟩ | ⟨reply, hreply⟩)
    · obtain hy | rfl := hlogged hy
      · exact Or.inl (.of_logged hy rfl)
      · exact Or.inr hx
    · obtain h | ⟨rfl, -⟩ := hway hreply
      · exact Or.inl (.of_onItsWay h)
      · exact Or.inr rfl
  -- what is still queued has not been executed: it is behind the head
  refine ⟨fun h => (hinv.queued (hqueued h).1).of_calls hcalls, ?_, ?_, fun id => ?_,
    fun h h' => hinv.apart (hqueued h).1 (hqueued h').1, ?_, ?_⟩
  · intro n h
    obtain h | rfl := htaken h
    · exact (hinv.taken h).of_calls hcalls
    · exact (hinv.queued hhead).of_calls hcalls
  · intro id n h ht
    obtain ⟨hq, hne⟩ := hqueued h
    exact (htaken ht).elim (hinv.once hq) hne
  · by_cases hid : id = shardId
    · subst hid
      rw [hrest]
      exact hnodup.2
    · rw [hbus.commands, if_neg hid]
      exact hinv.nodup id
  · intro id y hy
    obtain hy | rfl := hlogged hy
    · exact hinv.refused hy
    · exact hrefused
  · intro n reply id y h hok hy hn hplays
    -- what has been on its way or executed before is of another request
    obtain h | ⟨rfl, hreply⟩ := hway h
    · obtain hy | rfl := hlogged hy
      · exact hinv.refusal h hok hy hn hplays
      · rw [← hn, hx] at h
        exact absurd (Taken.of_onItsWay h) (hinv.once hhead)
    · obtain hy | rfl := hlogged hy
      · exact absurd (Taken.of_logged hy hn) (hinv.once hhead)
      · exact hrefusal reply hreply hok hplays

/-- What a shard replies, and what it has changed. -/
theorem executed_plays {env : Env} {command : GameCommand} {reply? : Option GameReply} {t : Server}
    (hrooms : RoomInv (c.load shardId))
    (hrun : wp (handleCommand (config cfg shardId) env.overRedis command)
      (fun reply u => reply? = some reply ∧ t = u) (fun _ u => reply? = none ∧ t = u)
      (c.load shardId))
    (hplays : command.Plays) :
    (SameGames (c.load shardId) t ↔ Refuses (c.load shardId) command) ∧
      ∀ reply, reply? = some reply → reply.ok = false → Refuses (c.load shardId) command := by
  have hspec : wp (handleCommand (config cfg shardId) env.overRedis command) _ _ (c.load shardId) :=
    handleCommand_plays rfl hrooms hplays
  refine wp_elim (wp_and hrun hspec) (fun reply u h => ?_) fun exn u h => ?_
  · obtain ⟨⟨hreply, ht⟩, hcase⟩ := h
    subst ht
    obtain ⟨hok, hrefused, hsame⟩ | ⟨hok, hrefused, hsame⟩ := hcase
    · exact ⟨iff_of_true hsame hrefused, fun _ _ _ => hrefused⟩
    · -- a command that has changed something has said `ok`
      refine ⟨iff_of_false hsame hrefused, fun reply' h hno => ?_⟩
      obtain rfl : reply = reply' := Option.some.inj (hreply.symm.trans h)
      exact absurd (hok.symm.trans hno) (by simp)
  · -- a handler that raises sends no reply, so there is nothing to show
    obtain ⟨⟨hreply, ht⟩, hrefused, hsame⟩ := h
    subst ht
    refine ⟨iff_of_false hsame hrefused, fun reply h => ?_⟩
    rw [hreply] at h
    cases h

/-- **The invariant survives every step of the deployment.** -/
theorem callsInv_step (hinv : CallsInv c) (hrooms : ∀ id, RoomInv (c.load id)) (i : Input) :
    CallsInv (c.step cfg i) := by
  cases busStep cfg c i with
  | kept i hidle h =>
    exact hinv.of_calm (.of_bus h.bus (fun hr => h.replies ▸ hr) fun hn => hn.of_calls h.calls)
  | begun request hcalls hreplies hbus =>
    refine hinv.of_calm (.of_bus hbus (fun hr => hreplies ▸ hr) ?_)
    rintro n ⟨call, hcall, hsent⟩
    refine ⟨call, ?_, hsent⟩
    rw [hcalls, List.getElem?_append_left (List.getElem?_eq_some_iff.mp hcall).1]
    exact hcall
  | moved requestId call phase hcall hsent hphase hfollows hcalls hreplies hbus =>
    exact hinv.of_calm (.of_bus hbus (fun hr => hreplies ▸ hr) (.of_phaseSet hcalls hcall hsent))
  | pushed requestId call shardId hcall hphase hcalls hreplies hbus =>
    exact hinv.pushed hcall hphase hcalls hreplies hbus
  | popped requestId call shardId reply hcall hphase hreply hcalls hreplies hbus =>
    -- a reply that is popped is gone from its key
    refine hinv.of_calm (.of_bus hbus (fun hr => ?_)
      (.of_phaseSet hcalls hcall fun _ => sent_afterCall _ _))
    rw [hreplies, Dict.get?_pop] at hr
    split at hr
    · cases hr
    · exact hr
  | timedOut requestId call hout hcalls hreplies hbus =>
    exact hinv.of_calm (.of_bus hbus (fun hr => hreplies ▸ hr)
      (.of_phaseSet hcalls hout.found fun _ => sent_afterCall _ _))
  -- a reply that expires is gone as well
  | expired requestId hcalls hreplies hbus =>
    refine hinv.of_calm (.of_bus hbus (fun hr => ?_) fun hn => hn.of_calls hcalls)
    rw [hreplies, Dict.get?_pop] at hr
    split at hr
    · cases hr
    · exact hr
  -- the shard executes: whether it refuses is read off its own rooms
  | executed shardId env requestId command rest reply? t hready hcommands hrun hcalls hreplies
      hbus =>
    refine hinv.executed hcommands rfl (fun hplays => ?_) (fun reply h hok hplays => ?_) hcalls
      hreplies hbus
    · exact (executed_plays (hrooms shardId) hrun hplays).1
    · exact (executed_plays (hrooms shardId) hrun hplays).2 reply h hok
  | replied shardId requestId reply hanswer hcalls hreplies hbus =>
    exact hinv.of_calm (calm_replied hanswer hcalls hreplies hbus)

end Invariant

end Cluster

end KungFuChess
