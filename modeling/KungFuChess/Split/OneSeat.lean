import KungFuChess.Split.ClusterSteps

/-!
# One seat per user

`create_room`, `create_matched_room` and `join_room` turn a user away who is in a room of
their own shard; nobody asks the other shards. So a user gets a second seat whenever a shard
seats them while another one holds a seat of theirs, and otherwise never (`oneSeat_run`).
-/

namespace KungFuChess

open Effect RoomService

/-- Who is seated on a shard is seated by its services. -/
theorem Seated.of_sameServices {s t : Server} {r : RoomId} {u : UserId} {role : PlayerRole}
    (h : Seated s r u role) (hsame : SameServices s t) : Seated t r u role := by
  obtain ⟨hmember, hrunning⟩ := h
  refine ⟨?_, ?_⟩
  · unfold memberRole
    rw [hsame.rooms]
    exact hmember
  · unfold Running
    rw [hsame.engines]
    exact hrunning

namespace Cluster

/-! ### Seats of the deployment -/

/-- The user is a member of a room of the shard whose game is not over. -/
structure Seated (c : Cluster) (shardId : String) (roomId : RoomId) (userId : UserId)
    (role : PlayerRole) : Prop where
  alive : (c.shards shardId).crashed = false
  seated : KungFuChess.Seated (c.load shardId) roomId userId role

/-- The step seats the user: the shard is asked for it, its checks pass, and the process does
not end. -/
structure Seats (c : Cluster) (i : Input) (shardId : String) (roomId : RoomId) (userId : UserId)
    (role : PlayerRole) (env : Env) (event : Event) : Prop where
  handles : Handles c shardId i [(env, event)]
  seats : KungFuChess.Seats (c.load shardId) env roomId userId role event
  running : Running (c.load shardId) roomId
  board : ¬ Breaks (c.load shardId) env event

section Seats

variable {cfg : ClusterConfig} {c : Cluster} {i : Input} {shardId : String} {r : RoomId}
  {u : UserId} {role : PlayerRole} {env : Env} {event : Event}

/-- A seat, as it is read off a state. -/
theorem Seated.of_engine (h : (c.shards shardId).crashed = false ∧
      memberRole (c.load shardId) r u = some role ∧
        ((c.load shardId).engines.get? r).all (fun engine => !engine.gameOver) = true) :
    Seated c shardId r u role := by
  obtain ⟨halive, hmember, hengine⟩ := h
  refine ⟨halive, hmember, fun engine hget => ?_⟩
  rw [hget] at hengine
  simpa using hengine

/-- A step that stands for events is a handler of the shard. -/
theorem Handles.shardId_eq {pair : Env × Event} {events : List (Env × Event)}
    (h : Handles c shardId i (pair :: events)) : i.shardId? = some shardId := by
  cases h with
  | command => rfl
  | createMatch => rfl
  | clock => rfl
  | clockAndGrace => rfl

/-- A step of another process leaves the seats of a shard alone. -/
theorem Seated.step_of_ne (h : Seated c shardId r u role) (hne : i.shardId? ≠ some shardId) :
    Seated (c.step cfg i) shardId r u role := by
  have hsame : SameProcess (c.shards shardId) ((c.step cfg i).shards shardId) :=
    sameProcess_of_ne cfg hne
  refine ⟨hsame.crashed.trans h.alive, h.seated.of_sameServices ?_⟩
  exact sameServices_of_server hsame.server

/-- A program that seats a user or ends the process. -/
theorem runShard_seats {α : Type} {x : ServerM α} {f : Option α → Shard → Shard} {B : Prop}
    (hready : (c.shards shardId).Ready) (hf : ∀ a shard, (f a shard).server = shard.server)
    (hcrashed : ∀ a shard, (f a shard).crashed = shard.crashed)
    (h : wp x (fun _ t => ¬ B ∧ KungFuChess.Seated t r u role) (fun _ _ => B) (c.load shardId)) :
    ((c.runShard shardId x f).shards shardId).crashed = false ∧ ¬ B ∧
        KungFuChess.Seated ((c.runShard shardId x f).load shardId) r u role ∨
      ((c.runShard shardId x f).shards shardId).crashed = true ∧ B := by
  obtain ⟨hsame, -, h⟩ | ⟨hdown, -, h⟩ := runShard_spec hf hcrashed h
  · exact Or.inl ⟨hsame.trans hready.1, h⟩
  · exact Or.inr ⟨hdown, h⟩

/-- What becomes of a shard that is asked to seat a user, with its checks passed. -/
theorem handles_seats (cfg : ClusterConfig) (hhandles : Handles c shardId i [(env, event)])
    (hseats : KungFuChess.Seats (c.load shardId) env r u role event)
    (hrunning : Running (c.load shardId) r) :
    ((c.step cfg i).shards shardId).crashed = false ∧ ¬ Breaks (c.load shardId) env event ∧
        KungFuChess.Seated ((c.step cfg i).load shardId) r u role ∨
      ((c.step cfg i).shards shardId).crashed = true ∧ Breaks (c.load shardId) env event := by
  cases hhandles with
  | command env requestId command rest event hready hcommands hevent =>
    simp only [step, if_pos hready, execute, hcommands]
    exact runShard_seats hready (fun _ _ => rfl) (fun _ _ => rfl)
      (handleCommand_seats rfl hevent hseats hrunning)
  | createMatch env roomId whiteId blackId hready hevent =>
    simp only [step, if_pos hready, deliver, hevent, if_true]
    exact runShard_seats hready (fun _ _ => rfl) (fun _ _ => rfl)
      (onCreateMatch_seats rfl hseats hrunning)
  -- the clock seats nobody
  | clock => exact hseats.elim

/-- Whom a step seats is seated after it. -/
theorem Seats.seated (h : Seats c i shardId r u role env event) :
    Seated (c.step cfg i) shardId r u role := by
  obtain ⟨hcrashed, -, hseated⟩ | ⟨-, hboard⟩ := handles_seats cfg h.handles h.seats h.running
  · exact ⟨hcrashed, hseated⟩
  · exact absurd hboard h.board

/-- **Who is seated after a step** was seated before it, or is seated by it. -/
theorem seated_step (h : Seated (c.step cfg i) shardId r u role) :
    Seated c shardId r u role ∨ ∃ env event, Seats c i shardId r u role env event := by
  have halive := alive_of_step h.alive
  -- a new seat comes from an event that seats; if the board had failed, the process would be down
  obtain ⟨events, hhandles, hsame⟩ := load_step cfg c i shardId
  have hseated := h.seated.of_sameServices hsame.symm
  have hnew : ∀ {env event}, Handles c shardId i [(env, event)] → event ≠ .matchmakingTick →
      KungFuChess.Seated ((c.load shardId).step (config cfg shardId) (env, event)) r u role →
      Seated c shardId r u role ∨ ∃ env event, Seats c i shardId r u role env event := by
    intro env event hhandles htick hseated
    obtain hold | ⟨hseats, hrunning⟩ := KungFuChess.seated_step htick hseated
    · -- the shard has seated the user: its checks have passed
      exact Or.inl ⟨halive, hold⟩
    obtain ⟨-, hboard, -⟩ | ⟨hcrashed, -⟩ := handles_seats cfg hhandles hseats hrunning
    · exact Or.inr ⟨env, event, hhandles, hseats, hrunning, hboard⟩
    · exact absurd (h.alive.symm.trans hcrashed) (by simp)
  cases hhandles with
  -- the events of a step, one by one
  | nothing => exact Or.inl ⟨halive, hseated⟩
  | command env requestId command rest event hready hcommands hevent =>
    refine hnew (.command env requestId command rest event hready hcommands hevent) ?_ hseated
    rintro rfl
    cases command <;> cases hevent
  | createMatch env roomId whiteId blackId hready hevent =>
    exact hnew (.createMatch env roomId whiteId blackId hready hevent) (by simp) hseated
  | clock env hready => exact hnew (.clock env hready) (by simp) hseated
  | clockAndGrace env hready =>
    obtain hclock | ⟨hseats, -⟩ := KungFuChess.seated_step (by simp) hseated
    · obtain hold | ⟨hseats, -⟩ := KungFuChess.seated_step (by simp) hclock
      -- neither half of a pass seats anybody
      · exact Or.inl ⟨halive, hold⟩
      · exact hseats.elim
    · exact hseats.elim

end Seats

/-! ### One seat -/

/-- The user sits as white or black in a game of the shard that is not over. -/
def PlaysIn (c : Cluster) (shardId : String) (roomId : RoomId) (userId : UserId) : Prop :=
  ∃ role, role ≠ .viewer ∧ Seated c shardId roomId userId role

/-- No user plays in two rooms. -/
def OneSeat (c : Cluster) : Prop :=
  ∀ {u id r id' r'}, PlaysIn c id r u → PlaysIn c id' r' u → id = id' ∧ r = r'

/-- Nobody is seated as white or black by a shard while they play on another one. -/
def SeatsFree (c : Cluster) (i : Input) : Prop :=
  ∀ {id r u role env event}, Seats c i id r u role env event → role ≠ .viewer →
    ∀ {id' r'}, PlaysIn c id' r' u → id' = id

section OneSeat

variable {cfg : ClusterConfig} {c : Cluster} {i : Input} {id : String} {r r' : RoomId} {u : UserId}

/-- A member of a room is in no other room of the shard. -/
theorem PlaysIn.room_eq (hrooms : RoomInv (c.load id)) (h : PlaysIn c id r u)
    (h' : PlaysIn c id r' u) : r = r' := by
  have hmapped : ∀ {r : RoomId}, PlaysIn c id r u → (c.load id).userRoom.get? u = some r := by
    rintro r ⟨role, -, hseated⟩
    obtain ⟨member, hmember, -⟩ := Option.map_eq_some_iff.mp hseated.seated.member
    obtain ⟨room, hroom, hmember⟩ := Option.bind_eq_some_iff.mp hmember
    exact hrooms.mapped hroom hmember
  exact Option.some.inj ((hmapped h).symm.trans (hmapped h'))

/-- Who plays after a step has played before it, or is seated by it. -/
theorem playsIn_step (h : PlaysIn (c.step cfg i) id r u) :
    PlaysIn c id r u ∨ ∃ role env event, role ≠ .viewer ∧ Seats c i id r u role env event := by
  obtain ⟨role, hrole, hseated⟩ := h
  obtain hold | ⟨env, event, hnew⟩ := seated_step hseated
  · exact Or.inl ⟨role, hrole, hold⟩
  · exact Or.inr ⟨role, env, event, hrole, hnew⟩

/-- **A step keeps one seat per user exactly if it seats nobody who plays elsewhere.** -/
theorem seatsFree_iff (hrooms : ∀ id, RoomInv (c.load id)) (hone : OneSeat c) :
    SeatsFree c i ↔ OneSeat (c.step cfg i) := by
  have hrooms' : ∀ id, RoomInv ((c.step cfg i).load id) := roomInv_step i hrooms
  constructor
  -- each of the two seats is an old one or the new one
  · intro hfree u id r id' r' h h'
    have hid : id = id' := by
      -- an old seat against an old one, or against the new one
      obtain hold | ⟨role, env, event, hrole, hnew⟩ := playsIn_step h
      · obtain hold' | ⟨role', env', event', hrole', hnew'⟩ := playsIn_step h'
        · exact (hone hold hold').1
        · exact hfree hnew' hrole' hold
      · obtain hold' | ⟨role', env', event', hrole', hnew'⟩ := playsIn_step h'
        · exact (hfree hnew hrole hold').symm
        · -- a step is a handler of one shard only
          exact Option.some.inj (hnew.handles.shardId_eq.symm.trans hnew'.handles.shardId_eq)
    subst hid
    exact ⟨rfl, h.room_eq (hrooms' id) h'⟩
  · -- a seat elsewhere is still there after the step
    intro hone' id r u role env event hseats hrole id' r' hplays
    by_contra hne
    obtain ⟨role', hrole', hseated⟩ := hplays
    have hstays : Seated (c.step cfg i) id' r' u role' := hseated.step_of_ne fun h =>
      hne (Option.some.inj (h.symm.trans hseats.handles.shardId_eq))
    exact hne (hone' ⟨role', hrole', hstays⟩ ⟨role, hrole, hseats.seated⟩).1

/-- **One seat per user, exactly as long as shards seat free users only.** -/
theorem oneSeat_run (cfg : ClusterConfig) (users : Dict UserId User) (games : Dict RoomId GameResult)
    (inputs : List Input) :
    Run.Guarded (step cfg) (fun c i _ => c.SeatsFree i) (start users games) inputs ↔
      Run.Throughout (step cfg) (fun c _ => c.OneSeat) (start users games) inputs := by
  refine Run.guarded_iff_throughout (J := fun c _ => ∀ id, RoomInv (c.load id))
    (fun c i _ h => roomInv_step i h) (fun c i _ h hone => seatsFree_iff h hone)
    (roomInv_start users games) ?_
  -- at the start nobody is seated
  rintro u id r id' r' ⟨role, hrole, hseated⟩
  cases hseated.seated.member

/-- The second room is drawn. -/
def secondRoom : Env :=
  { tokenHex := fun _ => Small.otherRoom, inputTxt := ["Board:", "wK . bK", "Commands:"] }

/-- Alice creates a room, is told of it, and creates another one. -/
def twoRooms : List Input :=
  [.call (.createRoom Small.alice), .advance 0, .advance 0,
    .execute "game-server-1" (Small.env ["wK . bK"]), .reply "game-server-1", .advance 0,
    .call (.createRoom Small.alice), .advance 1, .advance 1,
    .execute "game-server-2" secondRoom]

/-- The gateway has picked another shard for the second room, and she has a seat in both. -/
theorem oneSeat_run_twoRooms :
    ¬ OneSeat (twoRooms.foldl (step Small.cluster) (start Dict.empty Dict.empty)) := by
  -- one seat on either shard
  intro h
  have hfirst : PlaysIn (twoRooms.foldl (step Small.cluster) (start Dict.empty Dict.empty))
      "game-server-1" Small.room Small.alice :=
    ⟨.white, by decide, .of_engine (by decide +kernel)⟩
  have hsecond : PlaysIn (twoRooms.foldl (step Small.cluster) (start Dict.empty Dict.empty))
      "game-server-2" Small.otherRoom Small.alice :=
    ⟨.white, by decide, .of_engine (by decide +kernel)⟩
  exact absurd (h hfirst hsecond).1 (by decide)

end OneSeat

end Cluster

end KungFuChess
