import KungFuChess.Client.Broadcasts
import KungFuChess.Client.Requests
import KungFuChess.Server.FinalState

/-!
# The window shows the board of the server

A server and the client of one member of a room, with the frames on their way between them
(`ClientServer`). The server goes through any events, frames are received and taken from the queue
at any pace, the user clicks and types, and animations run.

The two boards are compared when nothing is in flight on the engine and nothing is on its way to the
window: then the window shows the position and the scores of the engine (`sameBoard_run`). While
a piece flies there is nothing to compare, because its state reaches the client only once the last
piece has landed. The invariant is `Synced`: whenever nothing is in flight, the last event to come
that writes the board carries the state of the engine, or there is none and the window shows it.
An accepted move puts a piece in flight, so an `ack` is never the last such event then.
-/

namespace KungFuChess

open Protocol RoomService GameService

/-! ### Events of the window -/

/-- The event writes the board of the window. -/
def EventName.onBoard : EventName → Bool
  | .enterGame | .state | .ack => true
  | _ => false

/-- The types of the frames that come as such an event. -/
def boardTypes : List String :=
  ["state", "ack", "room_created", "room_joined", "rejoined_room", "match_found"]

/-- What the network thread queues for a frame. -/
def NetworkClient.queued (data : WireData) : List ClientEvent :=
  (({} : NetworkClient).handle data).events

/-- The last event that writes the board. -/
def lastOnBoard (pending : List ClientEvent) : Option ClientEvent :=
  (pending.filter fun event => event.1.onBoard).getLast?

/-- The window takes the event without an exception. -/
inductive SoundEvent : ClientEvent → Prop
  | state (e : GameEngine) (roomId : RoomId) : SoundEvent (.state, e.stateFields roomId)
  | ack (m : AckMessage) : SoundEvent (.ack, m.toDict)
  | other (event : ClientEvent) (hstate : event.1 ≠ .state) (hack : event.1 ≠ .ack) :
      SoundEvent event

/-- The event carries the position and the scores of the engine. -/
def CarriesState (event : ClientEvent) (e : GameEngine) : Prop :=
  ∃ (e₀ : GameEngine) (roomId : RoomId), event = (.state, e₀.stateFields roomId) ∧
    e₀.board = e.board ∧ e₀.scoreboard = e.scoreboard

section Events

variable {data : WireData} {event : ClientEvent} {pending more rest : List ClientEvent}

/-- A frame is queued as one event, whatever else the client has done. -/
theorem events_handle (data : WireData) : ∃ name : EventName,
    (∀ net : NetworkClient, (net.handle data).events = net.events ++ [(name, data.fields)]) ∧
      (name.onBoard = true → data.type ∈ boardTypes) := by
  -- handler by handler, what it queues
  have htable : ∀ entry ∈ NetworkClient.handlers, ∃ name : EventName,
      (∀ (net : NetworkClient) (data : Fields), (entry.2 net data).events =
        net.events ++ [(name, data)]) ∧ (name.onBoard = true → entry.1 ∈ boardTypes) := by
    simp only [NetworkClient.handlers, List.forall_mem_cons, List.not_mem_nil, false_implies,
      implies_true, and_true]
    have hquiet : ∀ {p : Prop}, false = true → p := fun h => absurd h Bool.false_ne_true
    exact ⟨⟨.loginOk, fun _ _ => rfl, hquiet⟩, ⟨.authOk, fun _ _ => rfl, hquiet⟩,
      ⟨.enterGame, fun _ _ => rfl, fun _ => by decide⟩,
      ⟨.enterGame, fun _ _ => rfl, fun _ => by decide⟩,
      ⟨.enterGame, fun _ _ => rfl, fun _ => by decide⟩, ⟨.playQueued, fun _ _ => rfl, hquiet⟩,
      ⟨.playCancelled, fun _ _ => rfl, hquiet⟩, ⟨.enterGame, fun _ _ => rfl, fun _ => by decide⟩,
      ⟨.matchTimeout, fun _ _ => rfl, hquiet⟩, ⟨.disconnectCountdown, fun _ _ => rfl, hquiet⟩,
      ⟨.ack, fun _ _ => rfl, fun _ => by decide⟩, ⟨.state, fun _ _ => rfl, fun _ => by decide⟩,
      ⟨.gameOver, fun _ _ => rfl, hquiet⟩, ⟨.error, fun _ _ => rfl, hquiet⟩,
      ⟨.welcome, fun _ _ => rfl, hquiet⟩, ⟨.roomUpdate, fun _ _ => rfl, hquiet⟩⟩
  unfold NetworkClient.handle
  cases hlookup : NetworkClient.handlers.lookup data.type with
  -- a frame of another type is queued as a message
  | none => exact ⟨.message, fun _ => rfl, fun h => absurd h Bool.false_ne_true⟩
  | some handler =>
    obtain ⟨pre, post, hsplit, -⟩ := List.lookup_eq_some_iff.mp hlookup
    obtain ⟨name, hevents, htypes⟩ := htable (data.type, handler)
      (hsplit ▸ List.mem_append_right pre List.mem_cons_self)
    exact ⟨name, fun net => hevents net data.fields, htypes⟩

/-- The events after a frame. -/
theorem queued_handle (net : NetworkClient) (data : WireData) :
    (net.handle data).events = net.events ++ NetworkClient.queued data := by
  obtain ⟨name, hevents, -⟩ := events_handle data
  rw [hevents, NetworkClient.queued, hevents]
  rfl

/-- What is queued for a frame of another type. -/
theorem queued_quiet (h : data.type ∉ boardTypes) :
    ∀ event ∈ NetworkClient.queued data, event.1.onBoard = false := by
  obtain ⟨name, hevents, htypes⟩ := events_handle data
  intro event hevent
  rw [NetworkClient.queued, hevents] at hevent
  rw [List.mem_singleton.mp hevent]
  exact Bool.eq_false_iff.mpr fun honBoard => h (htypes honBoard)

/-- An event that leaves the board alone is sound. -/
theorem SoundEvent.of_quiet (h : event.1.onBoard = false) : SoundEvent event := by
  refine .other event ?_ ?_
  · intro hname
    rw [hname] at h
    cases h
  · intro hname
    rw [hname] at h
    cases h

/-- Events that leave the board alone may be left out. -/
theorem lastOnBoard_quiet (hmore : ∀ event ∈ more, event.1.onBoard = false) :
    lastOnBoard (pending ++ more ++ rest) = lastOnBoard (pending ++ rest) := by
  have hnone : more.filter (fun event => event.1.onBoard) = [] := by
    rw [List.filter_eq_nil_iff]
    exact fun event hevent => Bool.eq_false_iff.mp (hmore event hevent)
  unfold lastOnBoard
  rw [List.filter_append, List.filter_append, hnone, List.append_nil, List.filter_append]

/-- An event on the board that comes last is the last one. -/
theorem lastOnBoard_concat (h : event.1.onBoard = true) :
    lastOnBoard (pending ++ [event]) = some event := by
  have hlast : [event].filter (fun event => event.1.onBoard) = [event] := by simp [h]
  unfold lastOnBoard
  rw [List.filter_append, hlast]
  exact List.getLast?_concat

/-- The oldest event counts if there is no other. -/
theorem lastOnBoard_cons : lastOnBoard (event :: pending) =
    (lastOnBoard pending).or (if event.1.onBoard then some event else none) := by
  unfold lastOnBoard
  rw [List.filter_cons]
  split
  · rw [List.getLast?_cons]
    cases (pending.filter fun event => event.1.onBoard).getLast? <;> rfl
  · rw [Option.or_none]

theorem CarriesState.name {e : GameEngine} (h : CarriesState event e) : event.1 = .state := by
  obtain ⟨e₀, roomId, rfl, -⟩ := h
  rfl

theorem CarriesState.of_eq {e e' : GameEngine} (h : CarriesState event e)
    (hboard : e'.board = e.board) (hscore : e'.scoreboard = e.scoreboard) :
    CarriesState event e' := by
  obtain ⟨e₀, roomId, hevent, hboard₀, hscore₀⟩ := h
  exact ⟨e₀, roomId, hevent, hboard₀.trans hboard.symm, hscore₀.trans hscore.symm⟩

end Events

/-! ### The invariant -/

/-- The last event to come that writes the board carries the state of the engine, or there is none
and the window shows it, if it shows the game at all. -/
def Agrees (gc : ChessGameController) (pending : List ClientEvent) (e : GameEngine) : Prop :=
  match lastOnBoard pending with
  | some event => CarriesState event e
  | none => gc.screen = .game → gc.Shows e

/-- **The window is in step with the engine**, with these events to come. -/
structure Synced (gc : ChessGameController) (pending : List ClientEvent) (e : GameEngine) : Prop where
  sound : ∀ event ∈ pending, SoundEvent event
  agrees : e.hasActiveMotion = false → Agrees gc pending e

section Invariant

variable {gc gc' : ChessGameController} {pending more rest : List ClientEvent} {e e' : GameEngine}

/-- What the window shows depends on its board, its scores and its animations. -/
theorem ChessGameController.Shows.of_eq (h : gc.Shows e) (hboard : gc'.board = gc.board)
    (hscore : gc'.score = gc.score) (hmotions : gc'.activeMotions = gc.activeMotions) :
    gc'.Shows e := by
  obtain ⟨hpieces, hscores, hstill⟩ := h
  exact ⟨by rwa [hboard], hscore.trans hscores, hmotions.trans hstill⟩

theorem ChessGameController.Shows.of_engine (h : gc.Shows e) (hboard : e'.board = e.board)
    (hscore : e'.scoreboard = e.scoreboard) : gc.Shows e' := by
  obtain ⟨hpieces, hscores, hstill⟩ := h
  exact ⟨by rwa [hboard], by rwa [hscore], hstill⟩

/-- The window counts only if nothing that writes the board is to come. -/
theorem Agrees.of_shows (h : Agrees gc pending e)
    (hshows : (gc.screen = .game → gc.Shows e) → gc'.screen = .game → gc'.Shows e) :
    Agrees gc' pending e := by
  unfold Agrees at h ⊢
  split
  · next event hlast =>
    rw [hlast] at h
    exact h
  · next hlast =>
    rw [hlast] at h
    exact hshows h

theorem Agrees.of_last (h : Agrees gc pending e) (hlast : lastOnBoard rest = lastOnBoard pending) :
    Agrees gc rest e := by
  unfold Agrees at h ⊢
  rwa [hlast]

/-- The engine has changed, but not its position or its scores, and it is no more at rest than
before. -/
theorem Synced.of_engine (h : Synced gc pending e) (hboard : e'.board = e.board)
    (hscore : e'.scoreboard = e.scoreboard)
    (hactive : e'.hasActiveMotion = false → e.hasActiveMotion = false) : Synced gc pending e' := by
  refine ⟨h.sound, fun hrest => ?_⟩
  have hagrees := h.agrees (hactive hrest)
  unfold Agrees at hagrees ⊢
  split
  · next event hlast =>
    rw [hlast] at hagrees
    exact hagrees.of_eq hboard hscore
  · next hlast =>
    rw [hlast] at hagrees
    exact fun hscreen => (hagrees hscreen).of_engine hboard hscore

/-- Something else is to come as well. -/
theorem Synced.quiet (h : Synced gc (pending ++ rest) e)
    (hmore : ∀ event ∈ more, event.1.onBoard = false) : Synced gc (pending ++ more ++ rest) e := by
  refine ⟨fun event hevent => ?_, fun hrest => (h.agrees hrest).of_last (lastOnBoard_quiet hmore)⟩
  rw [List.append_assoc] at hevent
  obtain hevent | hevent := List.mem_append.mp hevent
  · exact h.sound event (List.mem_append_left _ hevent)
  obtain hevent | hevent := List.mem_append.mp hevent
  · exact .of_quiet (hmore event hevent)
  · exact h.sound event (List.mem_append_right _ hevent)

/-- Events that leave the board alone may come. -/
theorem Synced.append_quiet (h : Synced gc pending e)
    (hmore : ∀ event ∈ more, event.1.onBoard = false) : Synced gc (pending ++ more) e := by
  rw [← List.append_nil (pending ++ more)]
  refine Synced.quiet ?_ hmore
  rwa [List.append_nil]

/-- The state of the engine is to come last. -/
theorem Synced.append_state (h : Synced gc pending e) (e' : GameEngine) (roomId : RoomId) :
    Synced gc (pending ++ [(.state, e'.stateFields roomId)]) e' := by
  refine ⟨fun event hevent => ?_, fun _ => ?_⟩
  · obtain hevent | hevent := List.mem_append.mp hevent
    · exact h.sound event hevent
    · rw [List.mem_singleton.mp hevent]
      exact .state e' roomId
  · unfold Agrees
    rw [lastOnBoard_concat rfl]
    exact ⟨e', roomId, rfl, rfl, rfl⟩

/-! ### The server -/

/-- A forfeit ends the game on the board as it is. -/
theorem GameEngine.hasActiveMotion_forceForfeit (e : GameEngine) (winner : Color) :
    (e.forceForfeit winner).board = e.board ∧ (e.forceForfeit winner).scoreboard = e.scoreboard ∧
      (e.forceForfeit winner).hasActiveMotion = e.hasActiveMotion := by
  unfold forceForfeit
  split <;> exact ⟨rfl, rfl, rfl⟩

/-- An accepted move puts a piece in flight, or leaves another there that it meets head-on. -/
theorem GameEngine.hasActiveMotion_of_accepted {color : Color} {startPos endPos : Position}
    (h : (e.tryPlayerMove color startPos endPos).2.1 = true) :
    (e.tryPlayerMove color startPos endPos).1.hasActiveMotion = true := by
  have hrequest : ∀ durationMs, (e.handleMoveRequest startPos endPos durationMs).2 = true →
      (e.handleMoveRequest startPos endPos durationMs).1.hasActiveMotion = true := by
    intro durationMs haccepted
    unfold handleMoveRequest at haccepted ⊢
    -- the engine refuses what may not be launched, and what is illegal
    split
    · next hnone =>
      rw [hnone] at haccepted
      cases haccepted
    next ref hlaunchable =>
    rw [hlaunchable] at haccepted
    dsimp only at haccepted ⊢
    split
    · unfold hasActiveMotion RealTimeArbiter.hasActiveMotion RealTimeArbiter.startMotion
        RealTimeArbiter.resolveCommonRouteCollision
      rw [decide_eq_true_iff]
      dsimp only
      -- the new motion flies, or it has met one that flies
      split
      · next hmeets =>
        -- the one it meets was there before, and stays
        obtain ⟨existing, hmem, hmeets⟩ := List.any_eq_true.mp hmeets
        have hold : existing ∈ e.arbiter.activeMotions := by
          refine (List.mem_append.mp hmem).resolve_right fun hnew => ?_
          rw [List.mem_singleton.mp hnew] at hmeets
          simp at hmeets
        rw [List.length_erase_of_mem (List.mem_append_right _ List.mem_cons_self),
          List.length_append]
        simpa using List.length_pos_of_mem hold
      · simp
    · next hillegal =>
      rw [if_neg hillegal] at haccepted
      cases haccepted
  -- the adapter has refused nothing
  unfold tryPlayerMove at h ⊢
  split
  · next hover =>
    rw [if_pos hover] at h
    cases h
  next hrunning =>
  rw [if_neg hrunning] at h
  split
  · next hnone =>
    rw [hnone] at h
    cases h
  next ref hpiece =>
  rw [hpiece] at h
  dsimp only at h ⊢
  split
  · next hcolor =>
    rw [if_pos hcolor] at h
    cases h
  next hcolor =>
  rw [if_neg hcolor] at h
  split
  · next hok => exact hrequest _ hok
  · next hrefused =>
    rw [if_neg hrefused] at h
    cases h

/-- What the window queues for messages of the server. -/
def eventsOf (messages : List Message) : List ClientEvent :=
  (messages.flatMap fun m => m.toWire.frames).flatMap NetworkClient.queued

theorem eventsOf_nil : eventsOf [] = [] := rfl

theorem eventsOf_append (messages messages' : List Message) :
    eventsOf (messages ++ messages') = eventsOf messages ++ eventsOf messages' := by
  unfold eventsOf
  rw [List.flatMap_append, List.flatMap_append]

/-- A state is one event, which carries it. -/
theorem eventsOf_state (e : GameEngine) (roomId : RoomId) :
    eventsOf [.state (e.snapshotState roomId)] = [(.state, e.stateFields roomId)] := by
  unfold eventsOf
  rw [List.flatMap_cons, List.flatMap_nil, List.append_nil, frames_state]
  rfl

/-- Messages that are none of the game leave the board alone. -/
theorem eventsOf_aside {m : Message} (hm : m.Aside) :
    ∀ event ∈ eventsOf [m], event.1.onBoard = false := by
  intro event hevent
  obtain ⟨data, hdata, hqueued⟩ := List.mem_flatMap.mp hevent
  rw [List.flatMap_cons, List.flatMap_nil, List.append_nil] at hdata
  refine queued_quiet ?_ event hqueued
  cases m with
  | state | roomCreated | roomJoined | matchFound => exact absurd hm id
  | _ =>
    rw [List.mem_singleton.mp hdata]
    simp [boardTypes, Message.toWire, WireMessage.type, MessageType.value]

/-- **What a member is told keeps his window in step.** -/
theorem Synced.heard {roomId : RoomId} {news : List Message} (h : Synced gc pending e)
    (hheard : Heard roomId e news e') : Synced gc (pending ++ eventsOf news) e' := by
  induction hheard with
  | start => rwa [eventsOf_nil, List.append_nil]
  | aside m hm hheard ih =>
    rw [eventsOf_append, ← List.append_assoc]
    exact ih.append_quiet (eventsOf_aside hm)
  | @tick news e' hheard ih =>
    rw [eventsOf_append, ← List.append_assoc]
    unfold tickNews
    split
    · rw [eventsOf_state]
      exact ih.append_state _ roomId
    · next hnot =>
      -- nothing is said, so the engine was at rest already or is not yet
      rw [eventsOf_nil, List.append_nil]
      by_cases hrest : e'.hasActiveMotion = false
      · rw [GameEngine.updateGameClock_of_resting (Or.inl hrest)]
        exact ih
      · refine ⟨ih.sound, fun hafter => absurd ?_ hnot⟩
        unfold finishedNow
        rw [hafter, Bool.of_not_eq_false hrest]
        rfl
  | forfeit winner hheard ih =>
    obtain ⟨hboard, hscore, hactive⟩ := GameEngine.hasActiveMotion_forceForfeit _ winner
    exact ih.of_engine hboard hscore fun hrest => hactive.symm.trans hrest

end Invariant

/-! ### The window -/

/-- The client has queued events that leave the board alone. -/
def NetworkClient.Adds (net net' : NetworkClient) : Prop :=
  ∃ more, net'.events = net.events ++ more ∧ ∀ event ∈ more, event.1.onBoard = false

namespace NetworkClient.Adds

variable {net net' net'' : NetworkClient}

theorem of_eq (h : net'.events = net.events) : net.Adds net' :=
  ⟨[], h.trans (List.append_nil _).symm, fun _ hevent => absurd hevent List.not_mem_nil⟩

theorem refl (net : NetworkClient) : net.Adds net := of_eq rfl

/-- Two such changes are one. -/
theorem trans (h : net.Adds net') (h' : net'.Adds net'') : net.Adds net'' := by
  obtain ⟨more, hevents, hquiet⟩ := h
  obtain ⟨more', hevents', hquiet'⟩ := h'
  refine ⟨more ++ more', ?_, fun event hevent => ?_⟩
  · rw [hevents', hevents, List.append_assoc]
  · exact (List.mem_append.mp hevent).elim (hquiet event) (hquiet' event)

/-- An event that is not on the board may be queued. -/
theorem put (net : NetworkClient) (data : Fields) {name : EventName} (h : name.onBoard = false) :
    net.Adds (net.put data name) := by
  refine ⟨[(name, data)], rfl, fun event hevent => ?_⟩
  rw [List.mem_singleton.mp hevent]
  exact h

/-- Sending queues nothing. -/
theorem send (net : NetworkClient) (m : WireMessage) : net.Adds (net.send m) := by
  unfold NetworkClient.send
  split
  · exact of_eq rfl
  · exact put net _ rfl

/-- An answer to a login queues nothing on the board. -/
theorem httpLogin (net : NetworkClient) (py : Builtins) (username password : String)
    (response : HttpResponse) : net.Adds (net.httpLogin py username password response) := by
  cases response with
  | refused reason => exact put net _ rfl
  | failed => exact send net _
  | answered data =>
    unfold NetworkClient.httpLogin
    dsimp only
    -- the login is good, and the token is sent if there is one
    have hlogin : net.Adds (net.onLoginOk data) := put net data rfl
    split
    · split
      · exact hlogin.trans (send _ _)
      · exact hlogin
    · exact put net _ rfl

end NetworkClient.Adds

/-- The window has left the game, or shows what it has shown. -/
structure ChessGameController.Passes (gc gc' : ChessGameController) : Prop where
  net : gc.net.Adds gc'.net
  shown : gc'.screen = .game → gc.screen = .game ∧ gc'.board = gc.board ∧ gc'.score = gc.score ∧
    gc'.activeMotions = gc.activeMotions

namespace ChessGameController

section Window

variable {gc gc' : ChessGameController}

/-- Only the network side has changed, and what the window does not draw. -/
theorem Passes.of_net (hnet : gc.net.Adds gc'.net) (hscreen : gc'.screen = gc.screen)
    (hboard : gc'.board = gc.board) (hscore : gc'.score = gc.score)
    (hmotions : gc'.activeMotions = gc.activeMotions) : gc.Passes gc' :=
  ⟨hnet, fun h => ⟨hscreen.symm.trans h, hboard, hscore, hmotions⟩⟩

theorem Passes.refl (gc : ChessGameController) : gc.Passes gc :=
  .of_net (.refl _) rfl rfl rfl rfl

theorem Passes.left (hnet : gc.net.Adds gc'.net) (hscreen : gc'.screen ≠ .game) : gc.Passes gc' :=
  ⟨hnet, fun h => absurd h hscreen⟩

/-- A login leaves the board alone. -/
theorem passes_tryLogin (gc : ChessGameController) : gc.Passes gc.tryLogin := by
  unfold tryLogin
  dsimp only
  split
  · exact .refl gc
  split
  · exact .of_net (.of_eq rfl) rfl rfl rfl rfl
  · exact .refl gc

/-- A click on the board leaves the board alone: it selects, or sends. -/
theorem passes_handleBoardClick (gc : ChessGameController) (board : ClientBoard)
    (position : Position) : gc.Passes (gc.handleBoardClick board position) := by
  unfold handleBoardClick
  split
  · -- the first click
    split
    · exact .refl gc
    split
    · exact .refl gc
    split
    · exact .of_net (.refl _) rfl rfl rfl rfl
    · exact .refl gc
  · -- the second one
    split
    · exact .of_net (.refl _) rfl rfl rfl rfl
    split
    · exact .of_net (.refl _) rfl rfl rfl rfl
    · exact .of_net (.send _ _) rfl rfl rfl rfl

/-- **So does every click.** -/
theorem passes_onMouseClick (gc : ChessGameController) (boardWidth x y : Int) :
    gc.Passes (gc.onMouseClick boardWidth x y) := by
  unfold onMouseClick
  split
  · -- the form of the login
    unfold clickLogin
    split
    · exact passes_tryLogin gc
    split
    · exact .of_net (.refl _) rfl rfl rfl rfl
    split
    · exact .of_net (.refl _) rfl rfl rfl rfl
    · exact .refl gc
  · -- the lobby
    unfold clickLobby
    split
    · exact .of_net (.send _ _) rfl rfl rfl rfl
    split
    · exact .of_net (.send _ _) rfl rfl rfl rfl
    split
    · exact .of_net (.send _ _) rfl rfl rfl rfl
    split
    · exact .left (.refl _) nofun
    · exact .refl gc
  · -- the form of a room
    unfold clickJoin
    split
    · exact .left (.refl _) nofun
    · exact .refl gc
  · -- the game, which the button at its end leaves
    unfold clickGame
    split
    · split
      · exact .left (.of_eq rfl) nofun
      · exact .refl gc
    split
    · exact .refl gc
    split
    · exact .refl gc
    split
    · exact .refl gc
    split
    · exact .refl gc
    · exact passes_handleBoardClick gc _ _

/-- **So does every key.** -/
theorem passes_handleKey (gc : ChessGameController) (key : Nat) : gc.Passes (gc.handleKey key) := by
  unfold handleKey
  -- a game that is left
  split
  · split
    · exact .left (.of_eq rfl) nofun
    · exact .refl gc
  · -- the form of the login
    unfold handleLoginKey
    split
    · split
      · exact .of_net (.refl _) rfl rfl rfl rfl
      · exact passes_tryLogin gc
    split
    · split
      · exact .of_net (.refl _) rfl rfl rfl rfl
      · exact .of_net (.refl _) rfl rfl rfl rfl
    · split
      · exact .of_net (.refl _) rfl rfl rfl rfl
      · exact .of_net (.refl _) rfl rfl rfl rfl
  · -- the form of a room
    unfold handleJoinKey
    dsimp only
    split
    · split
      · exact .refl gc
      · exact .of_net (.send _ _) rfl rfl rfl rfl
    · exact .of_net (.refl _) rfl rfl rfl rfl
  · exact .refl gc

/-- An `ack` is read without an exception. -/
theorem exists_applyAck (py : Builtins) (gc : ChessGameController) (m : AckMessage) :
    ∃ gc', gc.applyAck py m.toDict = .ok gc' ∧ gc'.net = gc.net := by
  have hstart : getD m.toDict "start" .null = positionItems m.startPos :=
    getD_of_get (by simp [AckMessage.toDict])
  have hend : getD m.toDict "end" .null = positionItems m.endPos :=
    getD_of_get (by simp [AckMessage.toDict])
  unfold applyAck
  split
  · exact ⟨gc, rfl, rfl⟩
  · next board _ =>
    dsimp only
    rw [hstart, hend]
    exact ⟨gc.startMotion board m.startPos m.endPos, rfl, net_startMotion _ _ _⟩

end Window

end ChessGameController

section Client

open ChessGameController

variable {gc gc' : ChessGameController} {pending rest : List ClientEvent} {e : GameEngine}

/-- The user, or the network thread on its own. -/
theorem Synced.passes (h : Synced gc (gc.net.events ++ rest) e) (hpasses : gc.Passes gc') :
    Synced gc' (gc'.net.events ++ rest) e := by
  obtain ⟨⟨more, hevents, hquiet⟩, hshown⟩ := hpasses
  have hsynced := h.quiet hquiet
  rw [hevents]
  refine ⟨hsynced.sound, fun hrest => (hsynced.agrees hrest).of_shows fun hshows hscreen => ?_⟩
  obtain ⟨hscreen, hboard, hscore, hmotions⟩ := hshown hscreen
  exact (hshows hscreen).of_eq hboard hscore hmotions

/-- A window that shows the game has no animations, so drawing changes nothing. -/
theorem Synced.updateMotions (h : Synced gc (gc.net.events ++ rest) e) (hscreen : gc.screen = .game)
    (dtMs : Int) : Synced (gc.updateMotions dtMs) ((gc.updateMotions dtMs).net.events ++ rest) e := by
  rw [net_updateMotions]
  refine ⟨h.sound, fun hrest => (h.agrees hrest).of_shows fun hshows _ => ?_⟩
  have hstill : gc.updateMotions dtMs = gc := if_pos (Or.inl (hshows hscreen).still)
  rw [hstill]
  exact hshows hscreen

/-- The oldest event has been taken. -/
theorem Synced.taken {event : ClientEvent} (h : Synced gc (event :: pending) e)
    (hstate : CarriesState event e → gc'.Shows e)
    (hquiet : event.1.onBoard = false → (gc.screen = .game → gc.Shows e) → gc'.screen = .game →
      gc'.Shows e) : Synced gc' pending e := by
  refine ⟨fun event hevent => h.sound event (List.mem_cons_of_mem _ hevent), fun hrest => ?_⟩
  have hagrees := h.agrees hrest
  unfold Agrees at hagrees ⊢
  rw [lastOnBoard_cons] at hagrees
  split
  · next last hlast =>
    rw [hlast] at hagrees
    exact hagrees
  · next hlast =>
    rw [hlast, Option.none_or] at hagrees
    cases honBoard : event.1.onBoard with
    | true =>
      -- it was the last one
      rw [if_pos honBoard] at hagrees
      exact fun _ => hstate hagrees
    | false =>
      rw [if_neg (by simp [honBoard])] at hagrees
      exact hquiet honBoard hagrees

/-- **The window takes every event without an exception**, and stays in step. -/
theorem Synced.pollEvent (h : Synced gc (gc.net.events ++ rest) e) (py : Builtins)
    (inputTxt : Option (List String)) :
    ∃ gc', gc.pollEvent py inputTxt = .ok gc' ∧ Synced gc' (gc'.net.events ++ rest) e := by
  unfold ChessGameController.pollEvent
  cases hevents : gc.net.events with
  | nil => exact ⟨gc, rfl, by rwa [hevents] at h ⊢⟩
  | cons event events =>
    rw [hevents, List.cons_append] at h
    dsimp only
    -- `gc'` has the events that are left
    generalize hnext : { gc with net := { gc.net with events := events } } = next
    have hnet : next.net.events = events := by rw [← hnext]
    have hsame : ∀ {gc' : ChessGameController}, gc'.net = next.net →
        Synced gc' (events ++ rest) e → Synced gc' (gc'.net.events ++ rest) e := by
      intro gc' hgc' hsynced
      rwa [hgc', hnet]
    have hname : CarriesState event e → event.1 = .state := CarriesState.name
    cases h.sound event List.mem_cons_self with
    | state e₀ roomId =>
      obtain ⟨gc', happly, -, hgc', -⟩ := shows_applyState py next e₀ roomId
      refine ⟨gc', happly, hsame hgc' (h.taken (fun hcarries => ?_) nofun)⟩
      -- the engine may have moved on since, but not its board
      obtain ⟨e₁, roomId₁, hevent, hboard, hscore⟩ := hcarries
      obtain ⟨gc'', happly', hshows, -⟩ := shows_applyState py next e₁ roomId₁
      rw [← (Prod.mk.inj hevent).2, happly] at happly'
      rw [Except.ok.inj happly']
      exact hshows.of_engine hboard.symm hscore.symm
    | ack m =>
      obtain ⟨gc', happly, hgc'⟩ := exists_applyAck py next m
      exact ⟨gc', happly, hsame hgc' (h.taken (fun hcarries => absurd (hname hcarries) nofun) nofun)⟩
    | other _ hstate hack =>
      have hnever : ∀ {gc' : ChessGameController}, CarriesState event e → gc'.Shows e :=
        fun hcarries => absurd (hname hcarries) hstate
      have hshown : ∀ {gc' : ChessGameController}, gc'.board = next.board →
          gc'.score = next.score → gc'.activeMotions = next.activeMotions →
            (gc'.screen = .game → next.screen = .game) →
              (gc.screen = .game → gc.Shows e) → gc'.screen = .game → gc'.Shows e := by
        intro gc' hboard hscore hmotions hscreen hshows hgame
        have hold : next.screen = .game := hscreen hgame
        rw [← hnext] at hboard hscore hmotions hold
        exact (hshows hold).of_eq hboard hscore hmotions
      unfold ChessGameController.handleEvent
      split
      · exact ⟨_, rfl, hsame rfl (h.taken hnever fun _ _ hgame => absurd hgame nofun)⟩
      · next hname =>
        refine ⟨_, rfl, hsame rfl (h.taken hnever fun honBoard => ?_)⟩
        rw [hname] at honBoard
        cases honBoard
      · next hname => exact absurd hname hstate
      · next hname => exact absurd hname hack
      · exact ⟨_, rfl, hsame rfl (h.taken hnever fun _ => hshown rfl rfl rfl id)⟩
      · exact ⟨_, rfl, hsame rfl (h.taken hnever fun _ => hshown rfl rfl rfl id)⟩

end Client

/-! ### The server and the client -/

/-- A server, the client of one user, and the frames on their way to it, the oldest first. -/
structure ClientServer where
  server : Server
  wire : List WireData := []
  client : ChessGameController

namespace ClientServer

/-- What may happen to the two of them. -/
inductive Step where
  /-- Something happens to the server. -/
  | server (env : Env) (event : Event)
  /-- The user is sent into the room: a reply that says so, and the state. -/
  | enter (m : WireMessage)
  /-- Any other frame for the user. -/
  | answer (m : WireMessage)
  /-- The network thread of the client reads a frame. -/
  | receive
  /-- Something happens to the client. -/
  | client (input : ClientInput)

/-- The frames for the user that an event of the server leads to. -/
def framesTo (userId : UserId) (s t : Server) (event : Event) : List WireData :=
  ((event.acks userId s).filterMap MoveOutcome.toWire).flatMap WireMessage.frames ++
    (messagesTo userId (t.outbox.drop s.outbox.length)).flatMap fun m => m.toWire.frames

/-- The state of the room, if it has an engine. -/
def stateFrames (s : Server) (roomId : RoomId) : List WireData :=
  match getEngine s roomId with
  | none => []
  | some engine => (Message.toWire (.state (engine.snapshotState roomId))).frames

section Run

variable (cfg : Config) (py : Builtins) (loads : String → Except LoadError Json) (boardWidth : Int)
  (roomId : RoomId) (userId : UserId)

/-- **A step of the server, the network or the client.** -/
def step (t : ClientServer) : Step → Except ChessGameController.HandlerError ClientServer
  | .server env event =>
    let server := t.server.step cfg (env, event)
    .ok { t with server := server, wire := t.wire ++ framesTo userId t.server server event }
  | .enter m => .ok { t with wire := t.wire ++ (m.frames ++ stateFrames t.server roomId) }
  | .answer m => .ok { t with wire := t.wire ++ m.frames }
  | .receive =>
    -- the oldest frame is read first
    match t.wire with
    | [] => .ok t
    | data :: wire =>
      .ok { t with wire := wire, client := { t.client with net := t.client.net.handle data } }
  | .client input => do
    let client ← t.client.step py loads boardWidth input
    return { t with client := client }

/-- The system after the steps, unless an exception has ended the client. -/
def run (t : ClientServer) (steps : List Step) :
    Except ChessGameController.HandlerError ClientServer :=
  steps.foldlM (step cfg py loads boardWidth roomId userId) t

end Run

/-- The message brings a user into a room. -/
def Enters (m : WireMessage) : Prop :=
  match m with
  | .roomCreated _ | .roomJoined _ | .rejoinedRoom _ | .matchFound _ => True
  | _ => False

/-- The step does not keep the user from being told of the game. Frames come from the server only,
and those that write the board come with an event of the server or with the room. -/
def Step.Undisturbed (roomId : RoomId) (userId : UserId) : Step → Prop
  | .server env event => event.Undisturbed roomId userId env
  | .enter m => Enters m
  | .answer m => m.type.value ∉ boardTypes
  | .receive => True
  | .client input => ∀ raw, input ≠ .frame raw

/-- What the window has still to take. -/
def pending (t : ClientServer) : List ClientEvent :=
  t.client.net.events ++ t.wire.flatMap NetworkClient.queued

/-- **The client is in step with the room of its user.** -/
structure InStep (roomId : RoomId) (userId : UserId) (t : ClientServer) : Prop where
  sits : t.server.Sits roomId userId
  synced : ∃ e, t.server.engines.get? roomId = some e ∧ Synced t.client t.pending e

section Steps

variable (cfg : Config) (py : Builtins) (loads : String → Except LoadError Json) (boardWidth : Int)
  {roomId : RoomId} {userId : UserId} {t : ClientServer}

/-- A frame of a message is of the type of the message. -/
theorem type_of_mem_frames {m : WireMessage} {data : WireData} (h : data ∈ m.frames) :
    data.type = m.type.value := by
  unfold WireMessage.frames at h
  split at h
  · rw [List.mem_singleton.mp h]
  · exact absurd h List.not_mem_nil

/-- Frames of other types leave the board alone. -/
theorem frames_quiet {m : WireMessage} (h : m.type.value ∉ boardTypes) :
    ∀ event ∈ m.frames.flatMap NetworkClient.queued, event.1.onBoard = false := by
  intro event hevent
  obtain ⟨data, hdata, hqueued⟩ := List.mem_flatMap.mp hevent
  exact queued_quiet (by rwa [type_of_mem_frames hdata]) event hqueued

/-- The state follows the room, so whatever else was to come does not count. -/
theorem synced_enter {gc : ChessGameController} {pending : List ClientEvent} {e : GameEngine}
    (hsound : ∀ event ∈ pending, SoundEvent event) {m : WireMessage} (hm : Enters m)
    (s : Server) (hengine : s.engines.get? roomId = some e) :
    Synced gc (pending ++ (m.frames ++ stateFrames s roomId).flatMap NetworkClient.queued) e := by
  have hstate : (stateFrames s roomId).flatMap NetworkClient.queued =
      [(.state, e.stateFields roomId)] := by
    unfold stateFrames getEngine
    rw [hengine]
    dsimp only
    rw [frames_state]
    rfl
  -- the reply makes the window enter the game
  have henter : ∃ fields, m.frames.flatMap NetworkClient.queued = [(.enterGame, fields)] := by
    cases m with
    | roomCreated | roomJoined | rejoinedRoom | matchFound => exact ⟨_, rfl⟩
    | _ => exact absurd hm id
  obtain ⟨fields, henter⟩ := henter
  rw [List.flatMap_append, hstate, henter, ← List.append_assoc]
  -- what was to come is sound, and so are the two new events
  refine ⟨fun event hevent => ?_, fun _ => ?_⟩
  · obtain hevent | hevent := List.mem_append.mp hevent
    · obtain hevent | hevent := List.mem_append.mp hevent
      · exact hsound event hevent
      · rw [List.mem_singleton.mp hevent]
        exact .other _ nofun nofun
    · rw [List.mem_singleton.mp hevent]
      exact .state e roomId
  · -- the last of them carries the state
    unfold Agrees
    rw [lastOnBoard_concat rfl]
    exact ⟨e, roomId, rfl, rfl, rfl⟩

/-- An event of the server. -/
theorem InStep.server (h : t.InStep roomId userId) {env : Env} {event : Event}
    (hevent : event.Undisturbed roomId userId env) :
    InStep roomId userId { t with
      server := t.server.step cfg (env, event)
      wire := t.wire ++ framesTo userId t.server (t.server.step cfg (env, event)) event } := by
  obtain ⟨e, hengine, hsynced⟩ := h.synced
  obtain ⟨hsits, hnews⟩ : (t.server.step cfg (env, event)).Sits roomId userId ∧
      News userId roomId t.server (t.server.step cfg (env, event)) event :=
    heard_step h.sits hengine hevent
  unfold pending at hsynced
  refine ⟨hsits, ?_⟩
  unfold pending
  dsimp only
  rw [List.flatMap_append, ← List.append_assoc]
  cases hnews with
  -- the user hears what the news of the engine say
  | heard e₀ e' sent hbefore hafter hsent hacks hheard =>
    obtain rfl : e₀ = e := Option.some.inj (hbefore.symm.trans hengine)
    have hframes : framesTo userId t.server (t.server.step cfg (env, event)) event =
        (messagesTo userId sent).flatMap fun m => m.toWire.frames := by
      unfold framesTo
      rw [hacks, hsent, List.drop_left]
      rfl
    rw [hframes]
    exact ⟨e', hafter, hsynced.heard hheard⟩
  -- the user's own move, or that of the other player: an `ack` comes
  | moved e₀ color startPos endPos hbefore hok hafter hsent hacks =>
    have hframes : ∃ m : AckMessage,
        framesTo userId t.server (t.server.step cfg (env, event)) event =
          [⟨"ack", m.toDict⟩] := by
      unfold framesTo
      rw [hacks, hsent, List.drop_length]
      exact ⟨{ startPos := startPos, endPos := endPos, roomId := .string roomId.text }, rfl⟩
    obtain ⟨m, hframes⟩ := hframes
    rw [hframes]
    refine ⟨_, hafter, fun event hevent => ?_, fun hrest => ?_⟩
    · obtain hevent | hevent := List.mem_append.mp hevent
      · exact hsynced.sound event hevent
      · rw [show event = (.ack, m.toDict) from List.mem_singleton.mp hevent]
        exact .ack m
    · -- a piece is in flight now
      exact absurd (hrest.symm.trans (GameEngine.hasActiveMotion_of_accepted hok)) nofun

/-- Another frame for the user leaves the board alone. -/
theorem InStep.answer (h : t.InStep roomId userId) {m : WireMessage}
    (hm : m.type.value ∉ boardTypes) :
    InStep roomId userId { t with wire := t.wire ++ m.frames } := by
  obtain ⟨e, hengine, hsynced⟩ := h.synced
  refine ⟨h.sits, e, hengine, ?_⟩
  unfold pending at hsynced ⊢
  dsimp only
  rw [List.flatMap_append, ← List.append_assoc]
  exact hsynced.append_quiet (frames_quiet hm)

/-- A frame goes from the wire to the queue. -/
theorem InStep.receive (h : t.InStep roomId userId) {data : WireData} {wire : List WireData}
    (hwire : t.wire = data :: wire) :
    InStep roomId userId
      { t with wire := wire, client := { t.client with net := t.client.net.handle data } } := by
  obtain ⟨e, hengine, hsynced⟩ := h.synced
  refine ⟨h.sits, e, hengine, ?_⟩
  unfold pending at hsynced ⊢
  dsimp only
  rw [hwire, List.flatMap_cons, ← List.append_assoc] at hsynced
  rw [queued_handle]
  refine ⟨hsynced.sound, fun hrest => (hsynced.agrees hrest).of_shows fun hshows hscreen => ?_⟩
  exact (hshows hscreen).of_eq rfl rfl rfl

/-- Something happens to the client; no exception ends it. -/
theorem InStep.client (h : t.InStep roomId userId) {input : ClientInput}
    (hinput : ∀ raw, input ≠ .frame raw) :
    ∃ gc, t.client.step py loads boardWidth input = .ok gc ∧
      InStep roomId userId { t with client := gc } := by
  obtain ⟨e, hengine, hsynced⟩ := h.synced
  have hkept : ∀ gc, Synced gc (gc.net.events ++ t.wire.flatMap NetworkClient.queued) e →
      InStep roomId userId { t with client := gc } := fun gc hgc => ⟨h.sits, e, hengine, hgc⟩
  -- most inputs leave the board alone
  have hpasses : ∀ gc, t.client.Passes gc → InStep roomId userId { t with client := gc } :=
    fun gc hgc => hkept gc (hsynced.passes hgc)
  cases input with
  | opened =>
    exact ⟨_, rfl, hpasses _ (.of_net (.put { t.client.net with connected := true } [] rfl)
      rfl rfl rfl rfl)⟩
  | closed => exact ⟨_, rfl, hpasses _ (.of_net (.of_eq rfl) rfl rfl rfl rfl)⟩
  | frame raw => exact absurd rfl (hinput raw)
  | httpLogin login response =>
    by_cases hlogin : login ∈ t.client.net.logins
    · refine ⟨_, if_pos hlogin, hpasses _ (.of_net ?_ rfl rfl rfl rfl)⟩
      exact .httpLogin { t.client.net with logins := t.client.net.logins.erase login } py _ _ _
    · exact ⟨t.client, if_neg hlogin, hkept _ hsynced⟩
  -- only an event that is taken writes the board
  | poll inputTxt =>
    obtain ⟨gc, hpoll, hgc⟩ := hsynced.pollEvent py inputTxt
    exact ⟨gc, hpoll, hkept gc hgc⟩
  | update dtMs =>
    refine ⟨_, rfl, hkept _ ?_⟩
    split
    · next hscreen => exact hsynced.updateMotions hscreen dtMs
    · exact hsynced
  | click x y => exact ⟨_, rfl, hpasses _ (ChessGameController.passes_onMouseClick _ _ _ _)⟩
  | key key => exact ⟨_, rfl, hpasses _ (ChessGameController.passes_handleKey _ _)⟩

/-- **Step lemma.** -/
theorem InStep.step (h : t.InStep roomId userId) {step : Step}
    (hstep : step.Undisturbed roomId userId) :
    ∃ t', t.step cfg py loads boardWidth roomId userId step = .ok t' ∧
      t'.InStep roomId userId := by
  cases step with
  | server env event => exact ⟨_, rfl, h.server cfg hstep⟩
  | enter m =>
    -- the state comes behind the reply
    obtain ⟨e, hengine, hsynced⟩ := h.synced
    refine ⟨_, rfl, h.sits, e, hengine, ?_⟩
    unfold pending at hsynced ⊢
    dsimp only
    rw [List.flatMap_append, ← List.append_assoc]
    exact synced_enter hsynced.sound hstep t.server hengine
  | answer m => exact ⟨_, rfl, h.answer hstep⟩
  | receive =>
    unfold ClientServer.step
    dsimp only
    split
    · exact ⟨t, rfl, h⟩
    · next data wire hwire => exact ⟨_, rfl, h.receive hwire⟩
  | client input =>
    obtain ⟨gc, hgc, hin⟩ := h.client py loads boardWidth hstep
    refine ⟨{ t with client := gc }, ?_, hin⟩
    unfold ClientServer.step
    dsimp only
    rw [hgc]
    rfl

/-- **Run lemma.** -/
theorem InStep.run (h : t.InStep roomId userId) {steps : List Step}
    (hsteps : ∀ step ∈ steps, step.Undisturbed roomId userId) :
    ∃ t', t.run cfg py loads boardWidth roomId userId steps = .ok t' ∧
      t'.InStep roomId userId := by
  induction steps generalizing t with
  | nil => exact ⟨t, rfl, h⟩
  | cons step steps ih =>
    obtain ⟨next, hnext, hin⟩ := h.step cfg py loads boardWidth (hsteps step List.mem_cons_self)
    obtain ⟨t', hrun, hin'⟩ := ih hin fun step hstep => hsteps step (List.mem_cons_of_mem _ hstep)
    refine ⟨t', ?_, hin'⟩
    unfold ClientServer.run at hrun ⊢
    rw [List.foldlM_cons, hnext]
    exact hrun

end Steps

end ClientServer

/-- Alice has created her room, and is told so. -/
def createdGame : List (Env × Event) := [(Small.env ["wR . bK"], .createRoom Small.alice)]

/-- The reply to her. -/
def createdReply : WireMessage :=
  .roomCreated { roomId := Small.room.text, color := "w", playerCount := 1 }

/-- Alice moves her rook; her window is drawn once before the rook has landed. -/
def firstMoveSteps : List ClientServer.Step :=
  [.receive, .receive, .client (.poll (some ["Board:", "wR . bK"])), .client (.poll none),
    .server (Small.env []) (.submitMove Small.alice ⟨0, 0⟩ ⟨0, 1⟩), .receive, .client (.poll none),
    .client (.update 100)] ++
    List.replicate 20 (.server (Small.env []) .tickAll) ++ [.receive, .client (.poll none)]

end KungFuChess
