import KungFuChess.Transport.WireMessages

/-!
# Messages survive the wire

For each class, `from_dict` of `to_dict` is the message (`fromDict_toDict` in its namespace). The
coercions are the identity on what a `to_dict` writes, `value or {}` gives back the empty dict it
takes for a missing one, and a field that is left out when `None` is read as `None`. Four classes
ask for more: a login and a room identifier are stripped, they and the two secrets must not be
empty, and a state has to consist of snapshots (`WireMessage.WellFormed`).

`wire_sound` puts `encode` and `decode` around it. The JSON library is needed on one text only,
that of the dict of the message.
-/

namespace KungFuChess

namespace Protocol

open Builtins

/-! ### Class by class -/

section Classes

variable (py : Builtins)

/-- The two squares come back. -/
@[simp] theorem MoveMessage.fromDict_toDict (m : MoveMessage) :
    MoveMessage.fromDict py m.toDict = .ok m := by
  have htype : get m.toDict "type" = some (.string "move") := by simp [toDict]
  have hstart : get m.toDict "start" = some (positionItems m.startPos) := by simp [toDict]
  have hend : get m.toDict "end" = some (positionItems m.endPos) := by simp [toDict]
  -- the check, then the two positions
  rw [fromDict, checkType_of_get htype, positionField_of_get hstart, positionField_of_get hend]
  rfl

/-- So does the room, be it `None` or not. -/
@[simp] theorem AckMessage.fromDict_toDict (m : AckMessage) :
    AckMessage.fromDict m.toDict = .ok m := by
  have hstart : get m.toDict "start" = some (positionItems m.startPos) := by simp [toDict]
  have hend : get m.toDict "end" = some (positionItems m.endPos) := by simp [toDict]
  have haccepted : get m.toDict "accepted" = some (.bool m.accepted) := by simp [toDict]
  -- the room may have been left out
  have hroom : getD m.toDict "room_id" .null = m.roomId := getD_optional (by simp)
  rw [fromDict, positionField_of_get hstart, positionField_of_get hend, getD_of_get haccepted,
    hroom]
  rfl

/-- A reason is its own `str`. -/
@[simp] theorem ErrorMessage.fromDict_toDict (m : ErrorMessage) :
    ErrorMessage.fromDict py m.toDict = .ok m := by
  simp [fromDict, toDict, getD]

/-- A greeting survives the wire. -/
@[simp] theorem WelcomeMessage.fromDict_toDict (m : WelcomeMessage) :
    WelcomeMessage.fromDict py m.toDict = .ok m := by
  simp [fromDict, toDict, getD]

/-- So does a login that is accepted. -/
@[simp] theorem LoginOkMessage.fromDict_toDict (m : LoginOkMessage) :
    LoginOkMessage.fromDict py m.toDict = .ok m := by
  simp [fromDict, toDict, getD]

/-- So does a session that is accepted. -/
@[simp] theorem AuthOkMessage.fromDict_toDict (m : AuthOkMessage) :
    AuthOkMessage.fromDict py m.toDict = .ok m := by
  simp [fromDict, toDict, getD]

/-- The ratings come back as they are, none as none. -/
@[simp] theorem GameOverMessage.fromDict_toDict (m : GameOverMessage) :
    GameOverMessage.fromDict py m.toDict = .ok m := by
  -- `dict(... or {})` gives back the ratings, the empty ones included
  have hwinner : get m.toDict "winner" = some (.string m.winner) := by simp [toDict]
  have hratings : get m.toDict "ratings" = some (.object m.ratings.entries) := by simp [toDict]
  have hroom : getD m.toDict "room_id" .null = m.roomId := getD_optional (by simp)
  rw [fromDict, getD_of_get hwinner, getD_of_get hratings, hroom, dict_object, str_string]
  rfl

/-- The seconds are an integer, and come back as one. -/
@[simp] theorem DisconnectCountdownMessage.fromDict_toDict (m : DisconnectCountdownMessage) :
    DisconnectCountdownMessage.fromDict py m.toDict = .ok m := by
  simp [fromDict, toDict, getD]

/-- A colour of a viewer is `None`, and stays so. -/
@[simp] theorem RejoinedRoomMessage.fromDict_toDict (m : RejoinedRoomMessage) :
    RejoinedRoomMessage.fromDict py m.toDict = .ok m := by
  simp [fromDict, toDict, getD]

/-- A status survives the wire. -/
@[simp] theorem PlayQueuedMessage.fromDict_toDict (m : PlayQueuedMessage) :
    PlayQueuedMessage.fromDict py m.toDict = .ok m := by
  simp [fromDict, toDict, getD]

/-- A truth value does too. -/
@[simp] theorem PlayCancelledMessage.fromDict_toDict (m : PlayCancelledMessage) :
    PlayCancelledMessage.fromDict m.toDict = .ok m := by
  simp [fromDict, toDict, getD]

/-- So does an open room. -/
@[simp] theorem RoomCreatedMessage.fromDict_toDict (m : RoomCreatedMessage) :
    RoomCreatedMessage.fromDict py m.toDict = .ok m := by
  simp [fromDict, toDict, getD]

/-- So does a room that has been joined. -/
@[simp] theorem RoomJoinedMessage.fromDict_toDict (m : RoomJoinedMessage) :
    RoomJoinedMessage.fromDict py m.toDict = .ok m := by
  simp [fromDict, toDict, getD]

/-- So does the news of who has joined. -/
@[simp] theorem RoomUpdateMessage.fromDict_toDict (m : RoomUpdateMessage) :
    RoomUpdateMessage.fromDict py m.toDict = .ok m := by
  simp [fromDict, toDict, getD]

/-- The players come back as they are, and the colour if there is one. -/
@[simp] theorem MatchFoundMessage.fromDict_toDict (m : MatchFoundMessage) :
    MatchFoundMessage.fromDict py m.toDict = .ok m := by
  have hroom : get m.toDict "room_id" = some (.string m.roomId) := by simp [toDict]
  have hplayers : get m.toDict "players" = some (.object m.players.entries) := by simp [toDict]
  -- the colour may have been left out
  have hcolor : getD m.toDict "color" .null = m.color := getD_optional (by simp)
  rw [fromDict, getD_of_get hroom, getD_of_get hplayers, hcolor, dict_object, str_string]
  rfl

/-- A reason of a timeout survives the wire. -/
@[simp] theorem MatchTimeoutMessage.fromDict_toDict (m : MatchTimeoutMessage) :
    MatchTimeoutMessage.fromDict py m.toDict = .ok m := by
  simp [fromDict, toDict, getD]

/-! ### What a client sends -/

/-- A string that is clean and not empty passes its check as it is. -/
theorem stringField_of_get {clean : String → String} {key text : String} {data : WireData}
    (h : get data.fields key = some (.string text)) (hclean : clean text = text) (hne : text ≠ "") :
    stringField clean key data = .ok text := by
  rw [stringField, h]
  dsimp only
  rw [hclean, if_neg hne]

/-- **A login survives the wire** if its name is stripped and nothing is empty. -/
theorem LoginMessage.fromDict_toDict (m : LoginMessage) (hstrip : strip m.username = m.username)
    (husername : m.username ≠ "") (hpassword : m.password ≠ "") :
    LoginMessage.fromDict py m.toDict = .ok m := by
  have htype : get m.toDict "type" = some (.string "login") := by simp [toDict]
  have hfirst : stringField strip "username" ⟨"login", m.toDict⟩ = .ok m.username :=
    stringField_of_get (by simp [toDict]) hstrip husername
  have hsecond : stringField id "password" ⟨"login", m.toDict⟩ = .ok m.password :=
    stringField_of_get (by simp [toDict]) rfl hpassword
  rw [fromDict, checkType_of_get htype, ok_bind, hfirst, hsecond]
  rfl

/-- **A token does** unless it is empty. -/
theorem AuthMessage.fromDict_toDict (m : AuthMessage) (htoken : m.token ≠ "") :
    AuthMessage.fromDict py m.toDict = .ok m := by
  have htype : get m.toDict "type" = some (.string "auth") := by simp [toDict]
  have hfield : stringField id "token" ⟨"auth", m.toDict⟩ = .ok m.token :=
    stringField_of_get (by simp [toDict]) rfl htoken
  rw [fromDict, checkType_of_get htype, ok_bind, hfield]
  rfl

/-- **A room does** if it is stripped and not empty. -/
theorem RoomJoinMessage.fromDict_toDict (m : RoomJoinMessage) (hstrip : strip m.roomId = m.roomId)
    (hroom : m.roomId ≠ "") : RoomJoinMessage.fromDict py m.toDict = .ok m := by
  have htype : get m.toDict "type" = some (.string "room_join") := by simp [toDict]
  have hfield : stringField strip "room_id" ⟨"room_join", m.toDict⟩ = .ok m.roomId :=
    stringField_of_get (by simp [toDict]) hstrip hroom
  rw [fromDict, checkType_of_get htype, ok_bind, hfield]
  rfl

/-! ### States -/

/-- A snapshot of a piece survives the wire. -/
theorem PieceSnapshot.fromDict_toDict (p : PieceSnapshot) :
    PieceSnapshot.fromDict py p.toDict = .ok p := by
  have hrow : item p.toDict "row" = .ok (.int p.row) := item_of_get (by simp [toDict])
  have hcol : item p.toDict "col" = .ok (.int p.col) := item_of_get (by simp [toDict])
  have hcolor : item p.toDict "color" = .ok (.string p.color) := item_of_get (by simp [toDict])
  have htype : item p.toDict "type" = .ok (.string p.type) := item_of_get (by simp [toDict])
  have hstatus : item p.toDict "status" = .ok (.string p.status) := item_of_get (by simp [toDict])
  rw [fromDict, hrow, hcol, hcolor, htype, hstatus]
  rfl

/-- The list of snapshots, piece by piece. -/
theorem pieces_roundTrip {pieces : List PieceEntry}
    (hpieces : ∀ entry ∈ pieces, ∃ piece, entry = .snapshot piece) :
    ∃ items, pieces.mapM PieceEntry.toDict = .ok items ∧
      items.mapM (PieceEntry.fromDict py) = .ok pieces := by
  induction pieces with
  | nil => exact ⟨[], rfl, rfl⟩
  | cons entry pieces ih =>
    -- the head is written and read by itself, the rest is the induction hypothesis
    obtain ⟨piece, rfl⟩ := hpieces entry List.mem_cons_self
    obtain ⟨items, hto, hfrom⟩ := ih fun e he => hpieces e (List.mem_cons_of_mem _ he)
    refine ⟨.object piece.toDict :: items, ?_, ?_⟩
    · rw [List.mapM_cons, hto]
      rfl
    · rw [List.mapM_cons, hfrom, PieceEntry.fromDict, PieceSnapshot.fromDict_toDict]
      rfl

/-- **A state survives the wire** if it consists of snapshots. -/
theorem StateMessage.fromDict_toDict (m : StateMessage)
    (hpieces : ∀ entry ∈ m.pieces, ∃ piece, entry = .snapshot piece) :
    ∃ fields, m.toDict = .ok fields ∧ StateMessage.fromDict py fields = .ok m := by
  -- the pieces go over one by one, the other fields as they are
  obtain ⟨items, hto, hfrom⟩ := pieces_roundTrip py hpieces
  refine ⟨_, by rw [toDict, hto]; rfl, ?_⟩
  generalize hfields : [("type", Json.string "state"), ("pieces", .array items),
    ("score", .object m.score.entries), ("game_over", .bool m.gameOver), ("winner", m.winner)] ++
      optional "room_id" m.roomId = fields
  have hitems : get fields "pieces" = some (.array items) := by simp [← hfields]
  have hscore : get fields "score" = some (.object m.score.entries) := by simp [← hfields]
  have hover : get fields "game_over" = some (.bool m.gameOver) := by simp [← hfields]
  have hwinner : get fields "winner" = some m.winner := by simp [← hfields]
  have hroom : getD fields "room_id" .null = m.roomId := hfields ▸ getD_optional (by simp)
  rw [fromDict, getD_of_get hitems, getD_of_get hscore, getD_of_get hover, getD_of_get hwinner,
    hroom, elements_array, dict_object, truthy_bool]
  change (items.mapM (PieceEntry.fromDict py) >>= _) = _
  rw [hfrom]
  rfl

end Classes

/-! ### Every message -/

namespace WireMessage

/-- What is asked of a message beyond the types of its fields. -/
def WellFormed : WireMessage → Prop
  | .state m => ∀ entry ∈ m.pieces, ∃ piece, entry = .snapshot piece
  | .login m => strip m.username = m.username ∧ m.username ≠ "" ∧ m.password ≠ ""
  | .auth m => m.token ≠ ""
  | .roomJoin m => strip m.roomId = m.roomId ∧ m.roomId ≠ ""
  | _ => True

/-- The dict of a message names its class. -/
theorem get_type {m : WireMessage} {fields : Fields} (hto : m.toDict = .ok fields) :
    get fields "type" = some (.string m.type.value) := by
  cases m with
  | state m =>
    obtain ⟨items, -, h⟩ := bind_eq_ok.mp hto
    rw [← Except.ok.inj h]
    simp [type, MessageType.value]
  | ack m | gameOver m | matchFound m =>
    -- the last field may be left out
    rw [← Except.ok.inj hto]
    exact (get_append _ _).trans (by rw [get_optional_of_ne (by decide)]; rfl)
  | _ m =>
    rw [← Except.ok.inj hto]
    rfl

/-- **The dict of a message is read back.** -/
theorem fromDict_toDict (py : Builtins) {m : WireMessage} (hm : m.WellFormed) :
    ∃ fields, m.toDict = .ok fields ∧ fromDict py fields m.type = .ok m := by
  cases m with
  | state m =>
    obtain ⟨fields, hto, hfrom⟩ := StateMessage.fromDict_toDict py m hm
    exact ⟨fields, hto, by rw [type, fromDict, hfrom]; rfl⟩
  -- the three classes that ask for more
  | login m =>
    exact ⟨m.toDict, rfl, by rw [type, fromDict, m.fromDict_toDict py hm.1 hm.2.1 hm.2.2]; rfl⟩
  | auth m => exact ⟨m.toDict, rfl, by rw [type, fromDict, m.fromDict_toDict py hm]; rfl⟩
  | roomJoin m => exact ⟨m.toDict, rfl, by rw [type, fromDict, m.fromDict_toDict py hm.1 hm.2]; rfl⟩
  -- nothing to read
  | play m | cancelPlay m | roomCreate m => exact ⟨m.toDict, rfl, rfl⟩
  | _ m => exact ⟨m.toDict, rfl, by simp [fromDict, type]⟩

/-- `encode`; `dumps` is the printer of the JSON library. -/
def encode (dumps : Json → String) (m : WireMessage) : Except FieldError String := do
  return dumps (.object (← m.toDict))

/-- The message is encoded, the text is decoded, and the class that the type names reads the
message back. -/
def Survives (py : Builtins) (dumps : Json → String) (loads : String → Except LoadError Json)
    (m : WireMessage) : Prop :=
  ∃ text data, m.encode dumps = .ok text ∧ decode loads text = .ok data ∧
    data.type = m.type.value ∧ fromDict py data.fields m.type = .ok m

end WireMessage

/-! ### What is turned away -/

/-- The classes a client sends take no message of another type, and no position but a list of two
integers. -/
structure ChecksInput (py : Builtins) : Prop where
  move : ∀ data m, MoveMessage.fromDict py data = .ok m →
    get data "type" = some (.string "move") ∧
      get data "start" = some (.array [.int m.startPos.row, .int m.startPos.col]) ∧
      get data "end" = some (.array [.int m.endPos.row, .int m.endPos.col])
  login : ∀ data m, LoginMessage.fromDict py data = .ok m →
    get data "type" = some (.string "login")
  auth : ∀ data m, AuthMessage.fromDict py data = .ok m → get data "type" = some (.string "auth")
  roomJoin : ∀ data m, RoomJoinMessage.fromDict py data = .ok m →
    get data "type" = some (.string "room_join")

/-- **The four parsers of a client's messages check their input.** -/
theorem checksInput (py : Builtins) : ChecksInput py := by
  refine ⟨fun data m h => ?_, fun data m h => ?_, fun data m h => ?_, fun data m h => ?_⟩
  · obtain ⟨_, htype, h⟩ := bind_eq_ok.mp h
    obtain ⟨startPos, hstart, h⟩ := bind_eq_ok.mp h
    obtain ⟨endPos, hend, h⟩ := bind_eq_ok.mp h
    rw [← Except.ok.inj h]
    exact ⟨(get_of_checkType htype).1, get_of_positionField hstart, get_of_positionField hend⟩
  all_goals
    obtain ⟨_, htype, -⟩ := bind_eq_ok.mp h
    exact (get_of_checkType htype).1

/-! ### The parsers of the handlers

A handler parses a frame that `decode` has accepted. What it gets, and the text of the error it
gets instead, is what `from_dict` of the class gives on the dict. -/

section Handlers

variable {py : Builtins} {raw : String} {loads : String → Except LoadError Json} {data : WireData}

/-- The `type` of a decoded frame is that of its dict. -/
theorem get_of_decode (h : decode loads raw = .ok data) :
    get data.fields "type" = some (.string data.type) := by
  unfold decode at h
  -- only an object whose type is a string that is not empty is let through
  split at h
  · exact absurd h nofun
  · exact absurd h nofun
  · split at h
    · next htype =>
      split at h
      · exact absurd h nofun
      · rw [← Except.ok.inj h]
        exact htype
    · exact absurd h nofun
  · exact absurd h nofun

/-- The check of the class is the check of the handler. -/
theorem checkType_eq (h : decode loads raw = .ok data) (type : String) :
    checkType py type data.fields =
      ((expectType type data).mapError .protocolError).map fun _ => data := by
  rw [checkType, getD_of_get (get_of_decode h), expectType]
  dsimp only
  split
  · next htype =>
    rw [← htype]
    rfl
  · rfl

/-- A move is parsed as its class reads it. -/
theorem parseMove_eq (h : decode loads raw = .ok data) : MoveMessage.fromDict py data.fields =
    ((parseMove data).mapError .protocolError).map fun move => ⟨move.1, move.2⟩ := by
  rw [MoveMessage.fromDict, checkType_eq h, parseMove, positionField, positionField]
  -- both stop at the same step, with the same text
  cases expectType "move" data with
  | error e => rfl
  | ok _ =>
    cases parsePosition (get data.fields "start") "start" with
    | error e => rfl
    | ok startPos =>
      cases parsePosition (get data.fields "end") "end" with
      | error e => rfl
      | ok endPos => rfl

/-- So is a login. -/
theorem parseLogin_eq (h : decode loads raw = .ok data) : LoginMessage.fromDict py data.fields =
    ((parseLogin data).mapError .protocolError).map fun login => ⟨login.1, login.2⟩ := by
  rw [LoginMessage.fromDict, checkType_eq h, parseLogin]
  -- the type, the name, the password: the first that fails gives the error
  cases expectType "login" data with
  | error e => rfl
  | ok _ =>
    change (stringField strip "username" data).mapError FieldError.protocolError >>= _ = _
    cases stringField strip "username" data with
    | error e => rfl
    | ok username =>
      change (stringField id "password" data).mapError FieldError.protocolError >>= _ = _
      cases stringField id "password" data with
      | error e => rfl
      | ok password => rfl

/-- So is a token. -/
theorem parseAuth_eq (h : decode loads raw = .ok data) : AuthMessage.fromDict py data.fields =
    ((parseAuth data).mapError .protocolError).map AuthMessage.mk := by
  rw [AuthMessage.fromDict, checkType_eq h, parseAuth]
  cases expectType "auth" data with
  | error e => rfl
  | ok _ =>
    change (stringField id "token" data).mapError FieldError.protocolError >>= _ = _
    cases stringField id "token" data with
    | error e => rfl
    | ok token => rfl

/-- So is a room. -/
theorem parseRoomJoin_eq (h : decode loads raw = .ok data) :
    RoomJoinMessage.fromDict py data.fields =
      ((parseRoomJoin data).mapError .protocolError).map fun roomId => ⟨roomId.text⟩ := by
  rw [RoomJoinMessage.fromDict, checkType_eq h, parseRoomJoin]
  cases expectType "room_join" data with
  | error e => rfl
  | ok _ =>
    change (stringField strip "room_id" data).mapError FieldError.protocolError >>= _ = _
    cases hfield : stringField strip "room_id" data with
    | error e => rfl
    | ok roomId =>
      -- the field is not empty, so the second check passes
      have hne : roomId ≠ "" := by
        unfold stringField at hfield
        split at hfield
        · next text _ =>
          split at hfield
          · exact absurd hfield nofun
          · next hclean => exact Except.ok.inj hfield ▸ hclean
        · exact absurd hfield nofun
      change _ = Except.map _ (Except.mapError _ (if h : roomId ≠ "" then _ else _))
      rw [dif_pos hne]
      rfl

end Handlers

/-- **Every message survives the wire**, if the JSON library reads back the text of its dict; and
what a client sends is checked. -/
theorem wire_sound (py : Builtins) (dumps : Json → String) (loads : String → Except LoadError Json)
    (m : WireMessage) (hm : m.WellFormed)
    (hjson : ∀ fields, m.toDict = .ok fields →
      loads (dumps (.object fields)) = .ok (.object fields)) :
    m.Survives py dumps loads ∧ ChecksInput py := by
  obtain ⟨fields, hto, hfrom⟩ := m.fromDict_toDict py hm
  have htype := WireMessage.get_type hto
  refine ⟨⟨dumps (.object fields), ⟨m.type.value, fields⟩, ?_, ?_, rfl, hfrom⟩, checksInput py⟩
  · rw [WireMessage.encode, hto]
    rfl
  · rw [decode, hjson fields hto]
    dsimp only
    rw [htype]
    exact if_neg m.type.value_ne

/-- Alice logs in. -/
theorem wire_sound_login :
    (WireMessage.login { username := "Alice", password := "secret" }).Survives
        ⟨fun _ => "", fun _ => .error .valueError, fun _ => .error .typeError⟩
        (fun _ => "\x7b\"type\": \"login\", \"username\": \"Alice\", \"password\": \"secret\"\x7d")
        (fun _ => .ok (.object [("type", .string "login"), ("username", .string "Alice"),
          ("password", .string "secret")])) ∧
      ChecksInput ⟨fun _ => "", fun _ => .error .valueError, fun _ => .error .typeError⟩ :=
  wire_sound _ _ _ _ ⟨by decide, by decide, by decide⟩
    fun _ h => congrArg (fun fields => Except.ok (Json.object fields)) (Except.ok.inj h)

end Protocol

end KungFuChess
