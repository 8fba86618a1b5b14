import KungFuChess.Server.Actions
import KungFuChess.Transport.ConnectionRegistry
import KungFuChess.Transport.Protocol

/-!
# The message router

`MessageRouter` decodes a frame, finds the handler of its type and calls the services. The
handlers of `login` and `auth` are open to every socket; all others run for the user the socket
is bound to, which is the only thing a handler learns about who is asking.

The services change the state before a handler awaits anything, and after the first `await`
it only reads and sends. So one frame is one step of the process, with the frames it sends
listed in `sent`.

A frame does to the services what some events of `Server` do, and to the registry what some
events of the registry do (`handleRaw_handled`): `submit_move` is called for a valid `move`
message of a bound socket, with the user of the socket, and every other call is quiet, that is
it touches no engine.
-/

namespace KungFuChess

open Effect RoomService

/-- The frames a socket is sent. -/
inductive Frame where
  | error (reason : String)
  | loginOk (username : String) (elo : Int) (userId : UserId) (token : String)
  | authOk (userId : UserId) (username : String) (elo : Int)
  | rejoinedRoom (roomId : RoomId) (color : Option PlayerRole)
  | ack (startPos endPos : Option Position) (roomId : Option RoomId)
  | payload (message : Option Message)
deriving DecidableEq, Repr

/-- What `AuthService.login` answers. -/
structure LoginResult where
  ok : Bool
  reason : String
  user : Option User := none
  token : Option String := none
deriving DecidableEq, Repr

/-- The outside world of the transport during one frame. -/
structure RouterEnv where
  env : Env := {}
  loads : String → Except LoadError Json
  /-- `AuthService.login`, up to the row of a new user. -/
  login : String → String → LoginResult := fun _ _ => { ok := false, reason := "wrong password" }
  /-- `AuthService.authenticate`. -/
  authenticate : String → Option User := fun _ => none
  /-- The sockets on which `send` raises. -/
  closed : WebSocket → Bool := fun _ => false

/-- The in-process server with its transport. -/
structure ServerProcess where
  server : Server
  registry : ConnectionRegistry := {}
  /-- The frames sent so far. The code does not read them. -/
  sent : List (WebSocket × Frame) := []

/-- What a handler may raise. -/
inductive RouterExn where
  /-- `json.loads` has failed otherwise than by a syntax error. -/
  | loadError
  /-- An `assert` on a good answer has failed. -/
  | assertionError
  /-- The socket has gone while a frame is sent. -/
  | connectionClosed (ws : WebSocket)
  /-- An exception of a service. -/
  | service (exn : Exn)
deriving DecidableEq, Repr

/-- The coroutine of a frame, which stops at an exception and keeps what it has done. -/
abbrev RouterM := EStateM RouterExn ServerProcess

/-- The events that touch no engine. -/
def Event.Quiet : Event → Prop
  | .register _ _ | .play _ | .cancelPlay _ | .createRoom _ | .joinRoom _ _ | .reconnect _ => True
  | _ => False

/-! ### Sessions -/

namespace SessionService

/-- `_finalize`. -/
def finalize (user : User) (token : String) : ServerM SessionOutcome := do
  let roomId? ← reconnect user.userId
  let s ← get
  return { ok := true
           userId := user.userId
           username := user.username
           elo := user.elo
           token := token
           rejoinRoomId := roomId?
           rejoinColor := roomId?.map fun roomId =>
            (memberRole s roomId user.userId).getD .viewer }

/-- `SessionService.login`. -/
def login (renv : RouterEnv) (username password : String) : ServerM SessionOutcome :=
  let result := renv.login username password
  match result.ok, result.user, result.token with
  | true, some user, some token => do
    -- the row of a user who is new
    UserStore.register user.userId user.username
    finalize user token
  | _, _, _ => return { ok := false, reason := result.reason }

/-- `SessionService.authenticate`. -/
def authenticate (renv : RouterEnv) (token : String) : ServerM SessionOutcome :=
  match renv.authenticate token with
  | none => return { ok := false, reason := "invalid or expired token" }
  | some user => finalize user token

end SessionService

namespace MessageRouter

/-! ### Sending -/

/-- A call of a service. -/
def service {α : Type} (x : ServerM α) : RouterM α := fun p =>
  match x p.server with
  | .ok a s => .ok a { p with server := s }
  | .error exn s => .error (.service exn) { p with server := s }

/-- `ctx.websocket.send(encode(...))`. -/
def send (renv : RouterEnv) (ws : WebSocket) (frame : Frame) : RouterM Unit :=
  if renv.closed ws then throw (.connectionClosed ws)
  else modify fun p => { p with sent := p.sent ++ [(ws, frame)] }

/-- `broadcast_users`; a socket that cannot be written to is skipped. -/
def broadcast (renv : RouterEnv) (userIds : List UserId) (frame : Frame) : RouterM Unit :=
  modify fun p =>
    { p with
      sent := p.sent ++
        (p.registry.broadcastUsers userIds frame).filter fun sent => !renv.closed sent.1 }

/-- The state of a room, if it has an engine. -/
def sendState (renv : RouterEnv) (ws : WebSocket) (roomId : RoomId) : RouterM Unit := do
  let p ← get
  match GameService.getEngine p.server roomId with
  | none => pure ()
  | some engine => send renv ws (.payload (some (.state (engine.snapshotState roomId))))

/-- The room a reply has brought the user into. -/
def enteredRoom : Option Message → Option RoomId
  | some (.roomCreated roomId _ _) => some roomId
  | some (.roomJoined roomId _ _ _) => some roomId
  | _ => none

/-- A user who has entered a room is sent its state. -/
def sendEntered (renv : RouterEnv) (ws : WebSocket) (payload : Option Message) : RouterM Unit :=
  match enteredRoom payload with
  | none => pure ()
  | some roomId => sendState renv ws roomId

/-- The broadcast of an outcome, if it has one. -/
def broadcastOutcome (renv : RouterEnv) (outcome : CommandOutcome) : RouterM Unit :=
  if outcome.broadcastPayload.isSome ∧ outcome.broadcastUserIds ≠ [] then
    broadcast renv outcome.broadcastUserIds (.payload outcome.broadcastPayload)
  else pure ()

/-- `_send_command_outcome`; no service of the process sets `extra_payloads`. -/
def sendCommandOutcome (renv : RouterEnv) (ws : WebSocket) (outcome : CommandOutcome) :
    RouterM Unit :=
  if outcome.ok then do
    send renv ws (.payload outcome.payload)
    broadcastOutcome renv outcome
    sendEntered renv ws outcome.payload
  else send renv ws (.error outcome.reason)

/-- The frame that answers a `login` or an `auth`. -/
def sessionFrame (isLogin : Bool) (userId : UserId) (username : String) (elo : Int)
    (token : String) : Frame :=
  if isLogin then .loginOk username elo userId token else .authOk userId username elo

/-- A user who is back in a room is told so. -/
def sendRejoined (renv : RouterEnv) (ws : WebSocket) (outcome : SessionOutcome) : RouterM Unit :=
  match outcome.rejoinRoomId with
  | none => pure ()
  | some roomId => do
    send renv ws (.rejoinedRoom roomId outcome.rejoinColor)
    sendState renv ws roomId

/-- `_apply_session`. -/
def applySession (renv : RouterEnv) (ws : WebSocket) (outcome : SessionOutcome) (isLogin : Bool) :
    RouterM Unit :=
  if outcome.ok then
    match outcome.fields with
    | none => throw .assertionError
    | some (userId, username, elo, token) => do
      modify fun p => { p with registry := p.registry.bindUser ws userId username elo token }
      send renv ws (sessionFrame isLogin userId username elo token)
      sendRejoined renv ws outcome
  else send renv ws (.error outcome.reason)

/-! ### The handlers -/

/-- `_on_login`. It is refused on a socket that is logged in already. -/
def onLogin (renv : RouterEnv) (ws : WebSocket) (data : WireData) : RouterM Unit := do
  let p ← get
  if p.registry.authenticated ws then send renv ws (.error "already logged in")
  else
    match Protocol.parseLogin data with
    | .error message => send renv ws (.error message)
    | .ok (username, password) => do
      let outcome ← service (SessionService.login renv username password)
      applySession renv ws outcome true

/-- `_on_auth`. It is taken from every socket. -/
def onAuth (renv : RouterEnv) (ws : WebSocket) (data : WireData) : RouterM Unit :=
  match Protocol.parseAuth data with
  | .error message => send renv ws (.error message)
  | .ok token => do
    let outcome ← service (SessionService.authenticate renv token)
    applySession renv ws outcome false

section Authed

variable (cfg : Config) (renv : RouterEnv) (ws : WebSocket) (userId : UserId)

/-- `_on_play`. -/
def onPlay (_ : WireData) : RouterM Unit := do
  let outcome ← service (LobbyService.play cfg renv.env userId)
  sendCommandOutcome renv ws outcome

/-- `_on_cancel_play`. -/
def onCancelPlay (_ : WireData) : RouterM Unit := do
  let outcome ← service (LobbyService.cancelPlay cfg userId)
  sendCommandOutcome renv ws outcome

/-- `_on_room_create`. -/
def onRoomCreate (_ : WireData) : RouterM Unit := do
  let outcome ← service (LobbyService.createRoom renv.env userId)
  sendCommandOutcome renv ws outcome

/-- `_on_room_join`. -/
def onRoomJoin (data : WireData) : RouterM Unit :=
  match Protocol.parseRoomJoin data with
  | .error message => send renv ws (.error message)
  | .ok roomId => do
    let outcome ← service (LobbyService.joinRoom renv.env userId roomId)
    sendCommandOutcome renv ws outcome

/-- `_on_move`. The move is the user's of the socket, whatever the frame says. -/
def onMove (data : WireData) : RouterM Unit :=
  match Protocol.parseMove data with
  | .error message => send renv ws (.error message)
  | .ok (startPos, endPos) => do
    let outcome ← service (GameService.submitMove userId startPos endPos)
    if outcome.ok then
      -- everybody in the room is told of a move that is accepted
      broadcast renv outcome.memberIds (.ack outcome.startPos outcome.endPos outcome.roomId)
    else send renv ws (.error outcome.reason)

/-- `_authed_handlers`. -/
def authedHandlers : List (String × (WireData → RouterM Unit)) :=
  [("play", onPlay cfg renv ws userId), ("cancel_play", onCancelPlay cfg renv ws userId),
    ("room_create", onRoomCreate renv ws userId), ("room_join", onRoomJoin renv ws userId),
    ("move", onMove renv ws userId)]

end Authed

/-- `_public_handlers`. -/
def publicHandlers (renv : RouterEnv) (ws : WebSocket) : List (String × (WireData → RouterM Unit)) :=
  [("login", onLogin renv ws), ("auth", onAuth renv ws)]

/-- `_dispatch`: the public types first, then the types for users. -/
def dispatch (cfg : Config) (renv : RouterEnv) (ws : WebSocket) (data : WireData) :
    RouterM Unit :=
  match (publicHandlers renv ws).lookup data.type with
  | some handler => handler data
  | none => do
    let p ← get
    match p.registry.userOf ws with
    | none => send renv ws (.error "please login first")
    | some userId =>
      match (authedHandlers cfg renv ws userId).lookup data.type with
      | none => send renv ws (.error ("unknown message type: " ++ data.type))
      | some handler => handler data

/-- `handle_raw`. What a handler raises is answered with an error. -/
def handleRaw (cfg : Config) (renv : RouterEnv) (ws : WebSocket) (raw : String) :
    RouterM Unit :=
  match Protocol.decode renv.loads raw with
  | .error (.protocolError message) => send renv ws (.error message)
  | .error .other => throw .loadError
  | .ok data =>
    tryCatch (dispatch cfg renv ws data) fun _ => send renv ws (.error "internal server error")

/-! ### What a frame does -/

/-- Nothing but frames. -/
def Silent {α : Type} (x : RouterM α) : Prop :=
  ∀ s reg, Keeps (fun p => p.server = s ∧ p.registry = reg) x

section Sending

variable (renv : RouterEnv) (ws : WebSocket)

/-- Sending changes neither the services nor the registry. -/
theorem send_silent (frame : Frame) : Silent (send renv ws frame) := by
  intro s reg
  unfold send
  exact Keeps.ite (Keeps.throw _) (keeps_modify fun _ h => h)

/-- Nor does a broadcast. -/
theorem broadcast_silent (userIds : List UserId) (frame : Frame) :
    Silent (broadcast renv userIds frame) := fun _ _ => keeps_modify fun _ h => h

/-- Nor does the state of a room. -/
theorem sendState_silent (roomId : RoomId) : Silent (sendState renv ws roomId) := by
  intro s reg
  unfold sendState
  refine Keeps.bind Keeps.get fun p => ?_
  split
  · exact Keeps.pure _
  · exact send_silent renv ws _ s reg

/-- Nor does the news of a command. -/
theorem broadcastOutcome_silent (outcome : CommandOutcome) :
    Silent (broadcastOutcome renv outcome) := by
  intro s reg
  unfold broadcastOutcome
  split
  · exact broadcast_silent renv _ _ s reg
  · exact Keeps.pure _

/-- Nor does the answer to who enters a room. -/
theorem sendEntered_silent (payload : Option Message) : Silent (sendEntered renv ws payload) := by
  intro s reg
  unfold sendEntered
  split
  · exact Keeps.pure _
  · exact sendState_silent renv ws _ s reg

/-- Nor does the answer to a command. -/
theorem sendCommandOutcome_silent (outcome : CommandOutcome) :
    Silent (sendCommandOutcome renv ws outcome) := by
  intro s reg
  unfold sendCommandOutcome
  refine Keeps.ite ?_ (send_silent renv ws _ s reg)
  refine (send_silent renv ws _ s reg).bind fun _ => ?_
  exact (broadcastOutcome_silent renv outcome s reg).bind fun _ =>
    sendEntered_silent renv ws _ s reg

/-- Nor does the news of a room that is found again. -/
theorem sendRejoined_silent (outcome : SessionOutcome) : Silent (sendRejoined renv ws outcome) := by
  intro s reg
  unfold sendRejoined
  split
  · exact Keeps.pure _
  · exact (send_silent renv ws _ s reg).bind fun _ => sendState_silent renv ws _ s reg

/-- `_apply_session` writes to the registry what the registry's own function says. -/
theorem applySession_spec (outcome : SessionOutcome) (isLogin : Bool) (p : ServerProcess) :
    wp (applySession renv ws outcome isLogin)
      (fun _ q => q.server = p.server ∧ q.registry = p.registry.applySession ws outcome)
      (fun _ q => q.server = p.server ∧ q.registry = p.registry.applySession ws outcome) p := by
  unfold applySession ConnectionRegistry.applySession
  split
  · split
    · next hfields =>
      rw [hfields]
      exact ⟨rfl, rfl⟩
    · next userId username elo token hfields =>
      rw [hfields, wp_bind, wp_modify]
      exact Keeps.bind (send_silent renv ws _ _ _) (fun _ => sendRejoined_silent renv ws _ _ _) _
        ⟨rfl, rfl⟩
  · exact send_silent renv ws _ _ _ p ⟨rfl, rfl⟩

end Sending

section Calls

variable {α β : Type} {x : ServerM α} {p : ServerProcess}

/-- A service runs on the state of the services. -/
@[simp] theorem wp_service {Q : α → ServerProcess → Prop} {E : RouterExn → ServerProcess → Prop} :
    wp (service x) Q E p ↔
      wp x (fun a s => Q a { p with server := s })
        (fun exn s => E (.service exn) { p with server := s }) p.server := by
  unfold service wp
  cases hx : x p.server with
  | ok a s => simp only [hx]
  | error exn s => simp only [hx]

/-- A service call and a reply. -/
theorem service_reply {k : α → RouterM β} (hk : ∀ a, Silent (k a)) :
    wp (service x >>= k) (fun _ q => q.server = after x p.server ∧ q.registry = p.registry)
      (fun _ q => q.server = after x p.server ∧ q.registry = p.registry) p := by
  have hcall : wp (service x) (fun _ q => q.server = after x p.server ∧ q.registry = p.registry)
      (fun _ q => q.server = after x p.server ∧ q.registry = p.registry) p := by
    rw [wp_service]
    exact wp_iff_after.mpr ⟨rfl, rfl⟩
  exact wp_bind_of_keeps hcall fun a => hk a _ _

end Calls

/-! ### Frames and events -/

/-- The frame has done to the services what the events do, and to the registry at most what the
answer to a `login` or an `auth` does. -/
inductive Handled (cfg : Config) (renv : RouterEnv) (ws : WebSocket) (raw : String)
    (p q : ServerProcess) : Prop where
  | quiet (events : List Event) (hquiet : ∀ event ∈ events, event.Quiet)
      (hserver : q.server = p.server.play cfg (events.map fun event => (renv.env, event)))
      (hregistry : q.registry = p.registry ∨
        ∃ outcome, q.registry = p.registry.onLogin ws outcome ∨
          q.registry = p.registry.onAuth ws outcome)
  | move (data : WireData) (userId : UserId) (startPos endPos : Position)
      (hdecode : Protocol.decode renv.loads raw = .ok data) (htype : data.type = "move")
      (hparse : Protocol.parseMove data = .ok (startPos, endPos))
      (huser : p.registry.userOf ws = some userId)
      (hserver : q.server = p.server.step cfg (renv.env, .submitMove userId startPos endPos))
      (hregistry : q.registry = p.registry)

section Handlers

variable {cfg : Config} {renv : RouterEnv} {ws : WebSocket} {raw : String} {p q : ServerProcess}

/-- A frame may do nothing. -/
theorem Handled.idle (hserver : q.server = p.server) (hregistry : q.registry = p.registry) :
    Handled cfg renv ws raw p q :=
  .quiet [] nofun hserver (Or.inl hregistry)

/-- Or what one quiet event does. -/
theorem Handled.one {event : Event} (hquiet : event.Quiet)
    (hserver : q.server = p.server.step cfg (renv.env, event)) (hregistry : q.registry = p.registry) :
    Handled cfg renv ws raw p q :=
  .quiet [event] (fun _ hevent => List.mem_singleton.mp hevent ▸ hquiet) hserver
    (Or.inl hregistry)

/-- A handler that only sends has handled the frame. -/
theorem Silent.handled {α : Type} {x : RouterM α} (hx : Silent x)
    (h : Handled cfg renv ws raw p q) :
    wp x (fun _ => Handled cfg renv ws raw p) (fun _ => Handled cfg renv ws raw p) q := by
  have hmono : ∀ r : ServerProcess, r.server = q.server ∧ r.registry = q.registry →
      Handled cfg renv ws raw p r := by
    rintro r ⟨hserver, hregistry⟩
    cases h with
    | quiet events hquiet hserver' hregistry' =>
      exact .quiet events hquiet (hserver.trans hserver') (hregistry ▸ hregistry')
    | move data userId startPos endPos hdecode htype hparse huser hserver' hregistry' =>
      exact .move data userId startPos endPos hdecode htype hparse huser (hserver.trans hserver')
        (hregistry.trans hregistry')
  exact wp_mono (hx q.server q.registry q ⟨rfl, rfl⟩) (fun _ r hr => hmono r hr)
    (fun _ r hr => hmono r hr)

/-- A refusal. -/
theorem send_handled (frame : Frame) :
    wp (send renv ws frame) (fun _ => Handled cfg renv ws raw p)
      (fun _ => Handled cfg renv ws raw p) p :=
  (send_silent renv ws frame).handled (.idle rfl rfl)

/-- One service call that is a quiet event, and its reply. -/
theorem reply_handled {α : Type} {x : ServerM α} {k : α → RouterM Unit} (event : Event)
    (hk : ∀ a, Silent (k a)) (hquiet : event.Quiet)
    (hevent : p.server.step cfg (renv.env, event) = after x p.server) :
    wp (service x >>= k) (fun _ => Handled cfg renv ws raw p)
      (fun _ => Handled cfg renv ws raw p) p := by
  refine wp_mono (service_reply hk) ?_ ?_
  · rintro _ q ⟨hserver, hregistry⟩
    exact .one hquiet (hserver.trans hevent.symm) hregistry
  · rintro _ q ⟨hserver, hregistry⟩
    exact .one hquiet (hserver.trans hevent.symm) hregistry

/-- A `play` is an event. -/
theorem onPlay_handled (userId : UserId) (data : WireData) :
    wp (onPlay cfg renv ws userId data) (fun _ => Handled cfg renv ws raw p)
      (fun _ => Handled cfg renv ws raw p) p :=
  reply_handled (.play userId) (sendCommandOutcome_silent renv ws) trivial
    (after_bind_pure _ _)

/-- So is a `cancel_play`. -/
theorem onCancelPlay_handled (userId : UserId) (data : WireData) :
    wp (onCancelPlay cfg renv ws userId data) (fun _ => Handled cfg renv ws raw p)
      (fun _ => Handled cfg renv ws raw p) p :=
  reply_handled (.cancelPlay userId) (sendCommandOutcome_silent renv ws) trivial
    (after_bind_pure _ _)

/-- In process nothing is entered into an allocator when a room has been opened or joined. -/
theorem after_bind_unit {x : ServerM CommandOutcome} {k : CommandOutcome → ServerM Unit}
    (hk : ∀ outcome, k outcome = pure ()) (s : Server) : after (x >>= k) s = after x s := by
  rw [funext hk]
  exact after_bind_pure x _

/-- So is a `room_create`. -/
theorem onRoomCreate_handled (hcfg : cfg.deployment = .inProcess) (userId : UserId)
    (data : WireData) :
    wp (onRoomCreate renv ws userId data) (fun _ => Handled cfg renv ws raw p)
      (fun _ => Handled cfg renv ws raw p) p := by
  refine reply_handled (.createRoom userId) (sendCommandOutcome_silent renv ws) trivial ?_
  -- in process there is no directory to write
  refine after_bind_unit (fun outcome => ?_) _
  unfold bindPlayers
  rw [hcfg]
  exact ite_self _

/-- So is a `room_join`, if it can be parsed. -/
theorem onRoomJoin_handled (hcfg : cfg.deployment = .inProcess) (userId : UserId)
    (data : WireData) :
    wp (onRoomJoin renv ws userId data) (fun _ => Handled cfg renv ws raw p)
      (fun _ => Handled cfg renv ws raw p) p := by
  unfold onRoomJoin
  split
  · exact send_handled _
  next roomId _ =>
  refine reply_handled (.joinRoom userId roomId) (sendCommandOutcome_silent renv ws)
    trivial ?_
  refine after_bind_unit (fun outcome => ?_) _
  unfold bindPlayer
  rw [hcfg]
  exact ite_self _

/-- **A move is an event of the user of the socket.** -/
theorem onMove_handled {userId : UserId} {data : WireData}
    (hdecode : Protocol.decode renv.loads raw = .ok data) (htype : data.type = "move")
    (huser : p.registry.userOf ws = some userId) :
    wp (onMove renv ws userId data) (fun _ => Handled cfg renv ws raw p)
      (fun _ => Handled cfg renv ws raw p) p := by
  unfold onMove
  -- a frame that cannot be parsed is answered, nothing else
  split
  · exact send_handled _
  next startPos endPos hparse =>
  have hevent : p.server.step cfg (renv.env, .submitMove userId startPos endPos) =
      after (GameService.submitMove userId startPos endPos) p.server := after_bind_pure _ _
  have hreply : ∀ q : ServerProcess,
      q.server = after (GameService.submitMove userId startPos endPos) p.server ∧
        q.registry = p.registry → Handled cfg renv ws raw p q := fun q hq =>
    .move data userId startPos endPos hdecode htype hparse huser (hq.1.trans hevent.symm) hq.2
  refine wp_mono (service_reply fun outcome => ?_) (fun _ q hq => hreply q hq)
    (fun _ q hq => hreply q hq)
  -- the answer goes to the room, or to the socket
  split
  · exact broadcast_silent renv _ _
  · exact send_silent renv ws _

/-! ### Sessions as events -/

/-- The end of a session call is a `reconnect`. -/
theorem after_finalize (user : User) (token : String) (s : Server) :
    after (SessionService.finalize user token) s = s.step cfg (renv.env, .reconnect user.userId) := by
  have hreads : after (SessionService.finalize user token) s =
      after (reconnect user.userId >>= fun _ => pure ()) s :=
    after_bind_congr (wp_of_forall (fun _ _ => rfl) (fun _ _ => trivial))
  exact hreads

/-- What a `login` and an `auth` do to the services. -/
theorem after_login (username password : String) (s : Server) :
    ∃ events : List Event, (∀ event ∈ events, event.Quiet) ∧
      after (SessionService.login renv username password) s =
        s.play cfg (events.map fun event => (renv.env, event)) := by
  unfold SessionService.login
  dsimp only
  split
  · next user token _ _ _ =>
    -- a user who may be new, and who may be back
    refine ⟨[.register user.userId user.username, .reconnect user.userId], ?_, ?_⟩
    · simp [Event.Quiet]
    · exact after_finalize user token _
  · exact ⟨[], nofun, rfl⟩

/-- A token that is valid brings its user back, and does nothing else. -/
theorem after_authenticate (token : String) (s : Server) :
    ∃ events : List Event, (∀ event ∈ events, event.Quiet) ∧
      after (SessionService.authenticate renv token) s =
        s.play cfg (events.map fun event => (renv.env, event)) := by
  unfold SessionService.authenticate
  split
  · exact ⟨[], nofun, rfl⟩
  · next user _ =>
    refine ⟨[.reconnect user.userId], ?_, ?_⟩
    · simp [Event.Quiet]
    · exact after_finalize user token _

/-- A session call, and the answer applied to the registry. -/
theorem session_spec (x : ServerM SessionOutcome) (isLogin : Bool) :
    wp (service x >>= fun outcome => applySession renv ws outcome isLogin)
      (fun _ q => q.server = after x p.server ∧
        (q.registry = p.registry ∨ ∃ outcome, q.registry = p.registry.applySession ws outcome))
      (fun _ q => q.server = after x p.server ∧
        (q.registry = p.registry ∨ ∃ outcome, q.registry = p.registry.applySession ws outcome))
      p := by
  rw [wp_bind, wp_service]
  refine wp_mono (wp_iff_after (P := fun s => s = after x p.server).mpr rfl) ?_ ?_
  · rintro outcome _ rfl
    refine wp_mono (applySession_spec renv ws outcome isLogin _) ?_ ?_
    · exact fun _ q hq => ⟨hq.1, Or.inr ⟨outcome, hq.2⟩⟩
    · exact fun _ q hq => ⟨hq.1, Or.inr ⟨outcome, hq.2⟩⟩
  · rintro _ _ rfl
    exact ⟨rfl, Or.inl rfl⟩

/-- **A `login` is some quiet events**, and at most a login of the registry. -/
theorem onLogin_handled (data : WireData) :
    wp (onLogin renv ws data) (fun _ => Handled cfg renv ws raw p)
      (fun _ => Handled cfg renv ws raw p) p := by
  unfold onLogin
  rw [wp_bind, wp_get]
  -- the socket is logged in, or the frame cannot be parsed
  split
  · exact send_handled _
  next hfree =>
  split
  · exact send_handled _
  next username password _ =>
  obtain ⟨events, hquiet, hafter⟩ := after_login username password p.server
  have hhandled : ∀ q : ServerProcess,
      q.server = after (SessionService.login renv username password) p.server ∧
        (q.registry = p.registry ∨ ∃ outcome, q.registry = p.registry.applySession ws outcome) →
      Handled cfg renv ws raw p q := by
    rintro q ⟨hserver, hregistry⟩
    refine .quiet events hquiet (hserver.trans hafter) (hregistry.imp_right ?_)
    rintro ⟨outcome, hregistry⟩
    refine ⟨outcome, Or.inl ?_⟩
    unfold ConnectionRegistry.onLogin
    rw [if_neg hfree]
    exact hregistry
  exact wp_mono (session_spec _ _) (fun _ q hq => hhandled q hq) (fun _ q hq => hhandled q hq)

/-- **So is an `auth`.** -/
theorem onAuth_handled (data : WireData) :
    wp (onAuth renv ws data) (fun _ => Handled cfg renv ws raw p)
      (fun _ => Handled cfg renv ws raw p) p := by
  unfold onAuth
  split
  · -- no token: the error is sent
    exact send_handled _
  next token _ =>
  obtain ⟨events, hquiet, hafter⟩ := after_authenticate token p.server
  -- the registry is as it was, or has the session applied
  have hhandled : ∀ q : ServerProcess,
      q.server = after (SessionService.authenticate renv token) p.server ∧
        (q.registry = p.registry ∨ ∃ outcome, q.registry = p.registry.applySession ws outcome) →
      Handled cfg renv ws raw p q := by
    rintro q ⟨hserver, hregistry⟩
    refine .quiet events hquiet (hserver.trans hafter) (hregistry.imp_right ?_)
    exact fun ⟨outcome, hregistry⟩ => ⟨outcome, Or.inr hregistry⟩
  exact wp_mono (session_spec _ _) (fun _ q hq => hhandled q hq) (fun _ q hq => hhandled q hq)

/-! ### Dispatch -/

/-- A handler that has been found is an entry of its table. -/
theorem mem_of_lookup {V : Type} {table : List (String × V)} {type : String} {handler : V}
    (h : table.lookup type = some handler) : (type, handler) ∈ table := by
  obtain ⟨pre, post, rfl, -⟩ := List.lookup_eq_some_iff.mp h
  exact List.mem_append_right pre List.mem_cons_self

/-- **Every handler is some events.** -/
theorem dispatch_handled (hcfg : cfg.deployment = .inProcess) {data : WireData}
    (hdecode : Protocol.decode renv.loads raw = .ok data) :
    wp (dispatch cfg renv ws data) (fun _ => Handled cfg renv ws raw p)
      (fun _ => Handled cfg renv ws raw p) p := by
  unfold dispatch
  split
  · next handler hhandler =>
    -- `login` and `auth` need no session
    have hmem := mem_of_lookup hhandler
    simp only [publicHandlers, List.mem_cons, Prod.mk.injEq, List.not_mem_nil, or_false] at hmem
    obtain ⟨-, rfl⟩ | ⟨-, rfl⟩ := hmem
    · exact onLogin_handled data
    · exact onAuth_handled data
  · rw [wp_bind, wp_get]
    split
    · exact send_handled _
    -- the socket is somebody's, and the handler is one of five
    next userId huser =>
    split
    · exact send_handled _
    next handler hhandler =>
    have hmem := mem_of_lookup hhandler
    simp only [authedHandlers, List.mem_cons, Prod.mk.injEq, List.not_mem_nil, or_false] at hmem
    obtain ⟨-, rfl⟩ | ⟨-, rfl⟩ | ⟨-, rfl⟩ | ⟨-, rfl⟩ | ⟨htype, rfl⟩ := hmem
    · exact onPlay_handled userId data
    · exact onCancelPlay_handled userId data
    · exact onRoomCreate_handled hcfg userId data
    · exact onRoomJoin_handled hcfg userId data
    · exact onMove_handled hdecode htype huser

/-- **A frame is handled as its events say**, wherever an exception may cut it. -/
theorem handleRaw_handled (hcfg : cfg.deployment = .inProcess) (ws : WebSocket) (raw : String)
    (p : ServerProcess) :
    Handled cfg renv ws raw p (after (handleRaw cfg renv ws raw) p) := by
  refine wp_iff_after.mp ?_
  unfold handleRaw
  split
  -- the frame is no message, or the loader has failed
  · exact send_handled _
  · exact Handled.idle rfl rfl
  next data hdecode =>
  rw [wp_tryCatch]
  refine wp_mono (dispatch_handled hcfg hdecode) (fun _ _ hq => hq) fun _ q hq => ?_
  exact (send_silent renv ws _).handled hq

end Handlers

end MessageRouter

end KungFuChess
