import Mathlib.Data.List.DropRight
import KungFuChess.Client.GameController
import KungFuChess.Transport.WireRoundTrip

/-!
# Whatever the client sends, the server can read

The user types and clicks, frames arrive that may say anything, and login requests end one way or
another. `ClientInput` is one such thing, and a run of the client is a list of them, up to the
exception that ends the program, if there is one.

The client sends nothing but the seven requests of the protocol, and the parser of the server's
handler takes every one of them and reads what the client meant (`sent_run`). For a login and for a
room this rests on the `strip` before the check, for a token on the `str` of it, and a move is read
off the squares of a board.
-/

namespace KungFuChess

open Protocol

/-- What happens to the client. -/
inductive ClientInput where
  | opened
  | closed
  | frame (raw : String)
  /-- The request of a login thread ends. -/
  | httpLogin (login : String × String) (response : NetworkClient.HttpResponse)
  /-- The window takes an event; with `input.txt` as it is then. -/
  | poll (inputTxt : Option (List String))
  /-- The window draws, `dtMs` milliseconds after the last time. -/
  | update (dtMs : Nat)
  | click (x y : Int)
  | key (key : Nat)

namespace ChessGameController

variable (py : Builtins) (loads : String → Except LoadError Json) (boardWidth : Int)

/-- **A step of the client**, or the exception that ends the program. -/
def step (gc : ChessGameController) : ClientInput → Except HandlerError ChessGameController
  | .opened => .ok { gc with net := gc.net.opened }
  | .closed => .ok { gc with net := gc.net.closed }
  | .frame raw => .ok { gc with net := gc.net.handleRaw loads raw }
  -- a login that is not running cannot be answered
  | .httpLogin login response =>
    if login ∈ gc.net.logins then
      .ok { gc with
        net := { gc.net with logins := gc.net.logins.erase login }.httpLogin py login.1 login.2
          response }
    else .ok gc
  | .poll inputTxt => gc.pollEvent py inputTxt
  -- animations run on the screen of the game only
  | .update dtMs => .ok (if gc.screen = .game then gc.updateMotions dtMs else gc)
  | .click x y => .ok (gc.onMouseClick boardWidth x y)
  | .key key => .ok (gc.handleKey key)

/-- The client after the inputs, unless an exception has ended the program. -/
def run (gc : ChessGameController) (inputs : List ClientInput) :
    Except HandlerError ChessGameController := inputs.foldlM (step py loads boardWidth) gc

/-- What a run has that is known to have ended in a client. -/
theorem exists_of_toOption {α : Type} {gc : Except HandlerError ChessGameController}
    {f : ChessGameController → α} {a : α} (h : gc.toOption.map f = some a) :
    ∃ gc', gc = .ok gc' ∧ f gc' = a := by
  cases gc with
  | error error => cases h
  | ok gc' => exact ⟨gc', rfl, Option.some.inj h⟩

/-- **The invariant rule** for runs that no exception has ended. -/
theorem run_invariant {P : ChessGameController → Prop}
    (hstep : ∀ gc input gc', gc.step py loads boardWidth input = .ok gc' → P gc → P gc')
    {gc gc' : ChessGameController} {inputs : List ClientInput}
    (hrun : gc.run py loads boardWidth inputs = .ok gc') (h : P gc) : P gc' := by
  unfold run at hrun
  -- by induction on the inputs; an exception ends the run
  induction inputs generalizing gc with
  | nil => exact Except.ok.inj hrun ▸ h
  | cons input inputs ih =>
    rw [List.foldlM_cons] at hrun
    cases hinput : gc.step py loads boardWidth input with
    | error error =>
      rw [hinput] at hrun
      cases hrun
    | ok next =>
      rw [hinput] at hrun
      exact ih hrun (hstep gc input next hinput h)

end ChessGameController

/-! ### What is sent -/

/-- The message is a request, and the parser of its handler reads from its dict what it says. The
two squares of a move differ. -/
def Protocol.WireMessage.Understood : WireMessage → Prop
  | .login m => parseLogin ⟨"login", m.toDict⟩ = .ok (m.username, m.password)
  | .auth m => parseAuth ⟨"auth", m.toDict⟩ = .ok m.token
  | .move m => parseMove ⟨"move", m.toDict⟩ = .ok (m.startPos, m.endPos) ∧ m.startPos ≠ m.endPos
  | .roomJoin m => ∃ roomId, parseRoomJoin ⟨"room_join", m.toDict⟩ = .ok roomId ∧
      roomId.text = m.roomId
  | .play _ | .cancelPlay _ | .roomCreate _ => True
  | _ => False

section Understood

theorem understood_move {startPos endPos : Position} (h : startPos ≠ endPos) :
    WireMessage.Understood (.move { startPos := startPos, endPos := endPos }) := ⟨rfl, h⟩

theorem understood_login {username password : String} (hstrip : strip username = username)
    (husername : username ≠ "") (hpassword : password ≠ "") :
    WireMessage.Understood (.login { username := username, password := password }) := by
  let m : LoginMessage := { username := username, password := password }
  have hfirst : stringField strip "username" ⟨"login", m.toDict⟩ = .ok username :=
    stringField_of_get (by simp [m, LoginMessage.toDict]) hstrip husername
  have hsecond : stringField id "password" ⟨"login", m.toDict⟩ = .ok password :=
    stringField_of_get (by simp [m, LoginMessage.toDict]) rfl hpassword
  change parseLogin ⟨"login", m.toDict⟩ = _
  unfold parseLogin
  rw [hfirst, hsecond]
  rfl

theorem understood_auth {token : String} (h : token ≠ "") :
    WireMessage.Understood (.auth { token := token }) := by
  let m : AuthMessage := { token := token }
  have hfield : stringField id "token" ⟨"auth", m.toDict⟩ = .ok token :=
    stringField_of_get (by simp [m, AuthMessage.toDict]) rfl h
  change parseAuth ⟨"auth", m.toDict⟩ = _
  unfold parseAuth
  rw [hfield]
  rfl

theorem understood_roomJoin {roomId : String} (hstrip : strip roomId = roomId) (h : roomId ≠ "") :
    WireMessage.Understood (.roomJoin { roomId := roomId }) := by
  let m : RoomJoinMessage := { roomId := roomId }
  have hfield : stringField strip "room_id" ⟨"room_join", m.toDict⟩ = .ok roomId :=
    stringField_of_get (by simp [m, RoomJoinMessage.toDict]) hstrip h
  refine ⟨⟨roomId, h⟩, ?_, rfl⟩
  change parseRoomJoin ⟨"room_join", m.toDict⟩ = _
  unfold parseRoomJoin
  rw [hfield]
  change (if h : roomId ≠ "" then _ else _) = _
  rw [dif_pos h]
  rfl

/-- A text that has been stripped is stripped. -/
theorem strip_strip (text : String) : strip (strip text) = strip text := by
  have hstrip : ∀ line : String, InputTxtBoardLoader.strip line =
      (line.toList.dropWhile BoardParser.isSpace).rdropWhile BoardParser.isSpace := fun _ => rfl
  -- what is left begins with the character that `dropWhile` has stopped at
  have hfront : ∀ l : List Char, ((l.dropWhile BoardParser.isSpace).rdropWhile
      BoardParser.isSpace).dropWhile BoardParser.isSpace =
        (l.dropWhile BoardParser.isSpace).rdropWhile BoardParser.isSpace := by
    intro l
    rw [List.dropWhile_eq_self_iff]
    intro hpos
    have hbegins := List.rdropWhile_prefix BoardParser.isSpace (l.dropWhile BoardParser.isSpace)
    rw [hbegins.getElem hpos]
    exact List.dropWhile_get_zero_not _ _ _
  unfold Protocol.strip
  rw [hstrip, hstrip, String.toList_ofList, hfront, List.rdropWhile_idempotent]

end Understood

/-! ### The network side -/

/-- What has been sent is understood, and what the login threads are going to send will be. -/
structure NetworkClient.Speaks (net : NetworkClient) : Prop where
  sent : ∀ m ∈ net.sent, m.Understood
  logins : ∀ login ∈ net.logins, strip login.1 = login.1 ∧ login.1 ≠ "" ∧ login.2 ≠ ""

namespace NetworkClient.Speaks

variable {net net' : NetworkClient}

/-- What is sent, and the logins that run, decide whether the client speaks well. -/
theorem of_eq (h : net.Speaks) (hsent : net'.sent = net.sent) (hlogins : net'.logins = net.logins) :
    net'.Speaks := by
  refine ⟨?_, ?_⟩
  · rw [hsent]
    exact h.sent
  · rw [hlogins]
    exact h.logins

theorem put (h : net.Speaks) (data : Fields) (name : EventName) : (net.put data name).Speaks :=
  h.of_eq rfl rfl

/-- **No handler of a frame sends anything.** -/
theorem handle (h : net.Speaks) (data : WireData) : (net.handle data).Speaks := by
  -- no handler sends anything
  have hkeeps : ∀ entry ∈ handlers, ∀ data,
      (entry.2 net data).sent = net.sent ∧ (entry.2 net data).logins = net.logins := by
    simp only [handlers, List.forall_mem_cons, List.not_mem_nil, false_implies, implies_true, and_true]
    exact ⟨fun _ => ⟨rfl, rfl⟩, fun _ => ⟨rfl, rfl⟩, fun _ => ⟨rfl, rfl⟩, fun _ => ⟨rfl, rfl⟩,
      fun _ => ⟨rfl, rfl⟩, fun _ => ⟨rfl, rfl⟩, fun _ => ⟨rfl, rfl⟩, fun _ => ⟨rfl, rfl⟩,
      fun _ => ⟨rfl, rfl⟩, fun _ => ⟨rfl, rfl⟩, fun _ => ⟨rfl, rfl⟩, fun _ => ⟨rfl, rfl⟩,
      fun _ => ⟨rfl, rfl⟩, fun _ => ⟨rfl, rfl⟩, fun _ => ⟨rfl, rfl⟩, fun _ => ⟨rfl, rfl⟩⟩
  unfold NetworkClient.handle
  split
  · next handler hhandler =>
    obtain ⟨pre, post, hsplit, -⟩ := List.lookup_eq_some_iff.mp hhandler
    have hmem : (data.type, handler) ∈ handlers :=
      hsplit ▸ List.mem_append_right pre List.mem_cons_self
    exact h.of_eq (hkeeps _ hmem data.fields).1 (hkeeps _ hmem data.fields).2
  · exact h.put _ _

/-- Nor does a frame that cannot be read. -/
theorem handleRaw (h : net.Speaks) (loads : String → Except LoadError Json) (raw : String) :
    (net.handleRaw loads raw).Speaks := by
  unfold NetworkClient.handleRaw
  split
  · exact h.put _ _
  · exact h.of_eq rfl rfl
  · exact h.handle _

/-- A request that is understood may be sent. -/
theorem send (h : net.Speaks) {m : WireMessage} (hm : m.Understood) : (net.send m).Speaks := by
  unfold NetworkClient.send
  split
  · refine ⟨fun m' hm' => ?_, h.logins⟩
    obtain hm' | hm' := List.mem_append.mp hm'
    · exact h.sent m' hm'
    · rw [List.mem_singleton.mp hm']
      exact hm
  · exact h.put _ _

/-- A login with its fields checked may be sent. -/
theorem login (h : net.Speaks) {username password : String} (hstrip : strip username = username)
    (husername : username ≠ "") (hpassword : password ≠ "") :
    (net.login username password).Speaks := by
  refine ⟨h.sent, fun entry hentry => ?_⟩
  obtain hentry | hentry := List.mem_append.mp hentry
  · exact h.logins entry hentry
  · rw [List.mem_singleton.mp hentry]
    exact ⟨hstrip, husername, hpassword⟩

/-- The text of a value that is not falsy is not empty. -/
theorem str_ne {py : Builtins} (hstr : ∀ value, py.strOf value ≠ "") {value : Json}
    (h : Builtins.truthy value = true) : py.str value ≠ "" := by
  cases value with
  | null => cases h
  | bool b =>
    cases b
    · exact absurd h nofun
    · exact (by decide : "True" ≠ "")
  -- a number has at least one digit
  | int n =>
    cases n with
    | ofNat n => exact Nat.repr_ne_empty
    | negSucc n => exact fun hempty => absurd (String.append_eq_empty_iff.mp hempty).1 (by decide)
  | string text => exact of_decide_eq_true h
  | float value => exact hstr _
  | array items => exact hstr _
  | object fields => exact hstr _

/-- A login over HTTP sends what the answer says: a token, or the login itself. -/
theorem httpLogin (h : net.Speaks) {py : Builtins} (hstr : ∀ value, py.strOf value ≠ "")
    {username password : String} (hstrip : strip username = username) (husername : username ≠ "")
    (hpassword : password ≠ "") (response : HttpResponse) :
    (net.httpLogin py username password response).Speaks := by
  cases response with
  | refused reason => exact h.put _ _
  | failed => exact h.send (understood_login hstrip husername hpassword)
  | answered data =>
    unfold NetworkClient.httpLogin
    dsimp only
    split
    · split
      · next htoken => exact (h.put _ _).send (understood_auth (str_ne hstr htoken))
      · exact h.put _ _
    · exact h.put _ _

end NetworkClient.Speaks

/-! ### The window -/

namespace ChessGameController

variable {gc gc' : ChessGameController}

/-- An animation sends nothing. -/
theorem net_startMotion (board : ClientBoard) (startPos endPos : Position) :
    (gc.startMotion board startPos endPos).net = gc.net := by
  unfold startMotion
  split
  · rfl
  · split <;> rfl

/-- What an `ack` does, if it does not raise. -/
theorem applyAck_cases {py : Builtins} {data : Fields} (h : gc.applyAck py data = .ok gc') :
    gc' = gc ∨ ∃ board startPos endPos, gc.board = some board ∧
      gc' = gc.startMotion board startPos endPos := by
  unfold applyAck at h
  split at h
  · exact Or.inl (Except.ok.inj h).symm
  next board hboard =>
  dsimp only at h
  split at h
  · -- both squares have to be positions
    cases hstart : readPosition py (getD data "start" .null) with
    | error error =>
      rw [hstart] at h
      cases h
    | ok startPos =>
      rw [hstart] at h
      cases hend : readPosition py (getD data "end" .null) with
      | error error =>
        rw [hend] at h
        cases h
      | ok endPos =>
        rw [hend] at h
        exact Or.inr ⟨board, startPos, endPos, hboard, (Except.ok.inj h).symm⟩
  · exact Or.inl (Except.ok.inj h).symm

/-- What a `state` does, if it does not raise. -/
theorem applyState_cases {py : Builtins} {data : Fields} (h : gc.applyState py data = .ok gc') :
    ∃ state, readState py data = .ok state ∧ gc' =
      { gc with
        activeMotions := []
        board := some state.1
        score := state.2
        gameOver := Builtins.truthy (getD data "game_over" (.bool false))
        winner := getD data "winner" .null } := by
  unfold applyState at h
  cases hstate : readState py data with
  | error error =>
    rw [hstate] at h
    cases h
  | ok state =>
    rw [hstate] at h
    exact ⟨state, rfl, (Except.ok.inj h).symm⟩

/-- The clock of the window sends nothing. -/
theorem net_updateMotions (dtMs : Int) : (gc.updateMotions dtMs).net = gc.net := by
  have hfinish : ∀ (l : List Motion) (gc : ChessGameController),
      (l.foldl finish gc).net = gc.net := by
    intro l
    induction l with
    | nil => exact fun _ => rfl
    | cons m l ih => exact fun gc => ih (gc.finish m)
  unfold updateMotions
  split
  · rfl
  · exact hfinish _ _

/-- Taking an event sends nothing. -/
theorem speaks_handleEvent {py : Builtins} {inputTxt : Option (List String)} {event : ClientEvent}
    (hevent : gc.handleEvent py inputTxt event = .ok gc') (h : gc.net.Speaks) : gc'.net.Speaks := by
  unfold handleEvent at hevent
  split at hevent
  · rw [← Except.ok.inj hevent]
    exact h
  · rw [← Except.ok.inj hevent]
    exact h
  · obtain ⟨state, -, rfl⟩ := applyState_cases hevent
    exact h
  · obtain rfl | ⟨board, startPos, endPos, -, rfl⟩ := applyAck_cases hevent
    · exact h
    · rw [net_startMotion]
      exact h
  · rw [← Except.ok.inj hevent]
    exact h
  · rw [← Except.ok.inj hevent]
    exact h

/-- A login of the form is stripped and checked. -/
theorem speaks_tryLogin (h : gc.net.Speaks) : gc.tryLogin.net.Speaks := by
  unfold tryLogin
  dsimp only
  split
  · exact h
  next hfilled =>
  push Not at hfilled
  split
  · exact h.login (strip_strip _) hfilled.1 hfilled.2
  · exact h

/-- **A click on the board sends a move from the selected square to another.** -/
theorem speaks_handleBoardClick (h : gc.net.Speaks) (board : ClientBoard) (position : Position) :
    (gc.handleBoardClick board position).net.Speaks := by
  unfold handleBoardClick
  split
  · -- nothing is selected: a piece may be, or not
    split
    · exact h
    split
    · exact h
    split <;> exact h
  · -- the selection goes, goes over to another piece, or is sent
    split
    · exact h
    next hne =>
    split
    · exact h
    · exact h.send (understood_move (Ne.symm hne))

/-- **A click sends what is understood, on every screen.** -/
theorem speaks_onMouseClick (h : gc.net.Speaks) (boardWidth x y : Int) :
    (gc.onMouseClick boardWidth x y).net.Speaks := by
  unfold onMouseClick
  split
  · -- the form of the login
    unfold clickLogin
    split
    · exact speaks_tryLogin h
    split
    · exact h
    split <;> exact h
  · -- the lobby, with its three requests
    unfold clickLobby
    split
    · exact h.send trivial
    split
    · exact h.send trivial
    split
    · exact h.send trivial
    split <;> exact h
  · -- the form of a room
    unfold clickJoin
    split <;> exact h
  · -- the game
    unfold clickGame
    split
    · split
      · exact h.of_eq rfl rfl
      · exact h
    split
    · exact h
    split
    · exact h
    split
    · exact h
    split
    · exact h
    · exact speaks_handleBoardClick h _ _

/-- **So does a key.** -/
theorem speaks_handleKey (h : gc.net.Speaks) (key : Nat) : (gc.handleKey key).net.Speaks := by
  unfold handleKey
  split
  · -- on the screen of a game, the key that leaves it
    split
    · exact h.of_eq rfl rfl
    · exact h
  · -- the form of the login: enter goes on to the password, or sends
    unfold handleLoginKey
    split
    · split
      · exact h
      · exact speaks_tryLogin h
    split
    · split <;> exact h
    · split <;> exact h
  · -- the form of a room: enter sends the room if there is one
    unfold handleJoinKey
    dsimp only
    split
    · split
      · exact h
      · next hne => exact h.send (understood_roomJoin (strip_strip _) hne)
    · exact h
  · exact h

/-- **Whatever happens to the client**, it has sent what is understood. -/
theorem speaks_step {py : Builtins} (hstr : ∀ value, py.strOf value ≠ "")
    {loads : String → Except LoadError Json} {boardWidth : Int} {input : ClientInput}
    (hstep : gc.step py loads boardWidth input = .ok gc') (h : gc.net.Speaks) : gc'.net.Speaks := by
  cases input with
  | opened =>
    rw [← Except.ok.inj hstep]
    exact h.of_eq rfl rfl
  | closed =>
    rw [← Except.ok.inj hstep]
    exact h.of_eq rfl rfl
  | frame raw =>
    rw [← Except.ok.inj hstep]
    exact h.handleRaw loads raw
  -- the login has been checked when its thread was started
  | httpLogin login response =>
    rw [step] at hstep
    split at hstep
    · next hlogin =>
      rw [← Except.ok.inj hstep]
      obtain ⟨hstrip, husername, hpassword⟩ := h.logins login hlogin
      have hrest : NetworkClient.Speaks { gc.net with logins := gc.net.logins.erase login } :=
        ⟨h.sent, fun entry hentry => h.logins entry (List.mem_of_mem_erase hentry)⟩
      exact hrest.httpLogin hstr hstrip husername hpassword response
    · rw [← Except.ok.inj hstep]
      exact h
  | poll inputTxt =>
    rw [step, pollEvent] at hstep
    split at hstep
    · rw [← Except.ok.inj hstep]
      exact h
    · refine speaks_handleEvent hstep ?_
      exact h.of_eq rfl rfl
  | update dtMs =>
    rw [← Except.ok.inj hstep]
    split
    · rw [net_updateMotions]
      exact h
    · exact h
  | click x y =>
    rw [← Except.ok.inj hstep]
    exact speaks_onMouseClick h boardWidth x y
  | key key =>
    rw [← Except.ok.inj hstep]
    exact speaks_handleKey h key

end ChessGameController

/-- **Whatever the client sends, the server can read.** `str` of a float, a list or a dict is never
empty. -/
theorem sent_run {py : Builtins} (hstr : ∀ value, py.strOf value ≠ "")
    (loads : String → Except LoadError Json) (boardWidth : Int) (inputs : List ClientInput)
    {gc : ChessGameController}
    (hrun : ChessGameController.run py loads boardWidth {} inputs = .ok gc) :
    ∀ m ∈ gc.net.sent, m.Understood := by
  have hstart : NetworkClient.Speaks {} :=
    ⟨fun _ hm => absurd hm List.not_mem_nil, fun _ hlogin => absurd hlogin List.not_mem_nil⟩
  exact (ChessGameController.run_invariant py loads boardWidth
    (fun _ _ _ hstep h => ChessGameController.speaks_step hstr hstep h) hrun hstart).sent

/-- The coercions of the language; the runs below call none of them. -/
def Small.builtins : Builtins where
  strOf := fun _ => "[]"
  intOf := fun _ => .error .valueError
  dictOf := fun _ => .error .valueError

/-- Alice's room has been created. -/
def createdFrame : String := "\x7b\"type\": \"room_created\", \"color\": \"w\"\x7d"

/-- Alice's move has been accepted. -/
def ackFrame : String :=
  "\x7b\"type\": \"ack\", \"start\": [0, 0], \"end\": [0, 1]\x7d"

/-- What `json.loads` makes of the two frames. -/
def Small.loads (raw : String) : Except LoadError Json :=
  if raw = createdFrame then
    .ok (.object [("type", .string "room_created"), ("color", .string "w")])
  else if raw = ackFrame then
    .ok (.object [("type", .string "ack"), ("start", .array [.int 0, .int 0]),
      ("end", .array [.int 0, .int 1])])
  else .error (.jsonDecodeError "Expecting value: line 1 column 1 (char 0)")

/-- Alice logs in as `A`, creates a room and moves her rook. -/
def firstMoveInputs : List ClientInput :=
  [.opened, .poll none, .key 65, .key 9, .key 112, .click 60 380,
    .httpLogin ("A", "p") (.answered [("ok", .bool true), ("token", .string "t")]), .poll none,
    .click 60 320, .frame createdFrame, .poll (some ["Board:", "wR . bK"]), .click 10 10,
    .click 110 10]

/-- The three requests are understood. -/
theorem sent_run_firstMove :
    ∃ gc, ChessGameController.run Small.builtins Small.loads 800 {} firstMoveInputs = .ok gc ∧
      gc.net.sent.length = 3 ∧ ∀ m ∈ gc.net.sent, m.Understood := by
  have hsent : ((ChessGameController.run Small.builtins Small.loads 800 {}
      firstMoveInputs).toOption.map fun gc => gc.net.sent.length) = some 3 := by decide +kernel
  obtain ⟨gc, hrun, hlength⟩ := ChessGameController.exists_of_toOption hsent
  have hstr : ∀ value, Small.builtins.strOf value ≠ "" := fun _ => (by decide : "[]" ≠ "")
  exact ⟨gc, hrun, hlength, sent_run hstr Small.loads 800 firstMoveInputs hrun⟩

end KungFuChess
