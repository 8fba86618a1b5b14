import KungFuChess.Transport.Protocol
import KungFuChess.Server.RoomService

/-!
# Reading and writing the fields of a message

A `from_dict` reads each field with `data.get` and one of the coercions of the language, a
`to_dict` writes the fields as they are. This file has one definition for each way to read a
field, and for each the lemma that what has been written is read back.

The coercions are written out for the values that a `to_dict` puts under the field. What they do
to other values, as far as it depends on how the language prints or parses, is a parameter.
-/

namespace KungFuChess

namespace Protocol

/-- A dict, as the pairs of its text. -/
abbrev Fields := List (String × Json)

/-- The exceptions of `from_dict` and `to_dict`. -/
inductive FieldError where
  | protocolError (message : String)
  | keyError (key : String)
  | typeError
  | valueError
  | attributeError
deriving DecidableEq, Repr

/-- What follows a step that has succeeded. -/
theorem ok_bind {α β : Type} (a : α) (f : α → Except FieldError β) : Except.ok a >>= f = f a := rfl

/-- A program that returns has returned at each of its steps. -/
theorem bind_eq_ok {α β : Type} {x : Except FieldError α} {f : α → Except FieldError β} {b : β} :
    x >>= f = .ok b ↔ ∃ a, x = .ok a ∧ f a = .ok b := by
  cases x with
  | ok a => exact ⟨fun h => ⟨a, rfl, h⟩, fun ⟨a', ha, h⟩ => Except.ok.inj ha ▸ h⟩
  | error e => exact ⟨fun h => absurd h nofun, fun ⟨_, ha, _⟩ => absurd ha nofun⟩

/-! ### Coercions -/

/-- The coercions of values that no `to_dict` writes. -/
structure Builtins where
  /-- `str` of a float, a list or a dict. -/
  strOf : Json → String
  /-- `int` of a string. -/
  intOf : String → Except FieldError Int
  /-- `dict` of a list. -/
  dictOf : List Json → Except FieldError (Dict String Json)

namespace Builtins

variable (py : Builtins)

/-- `str` on a value of a message. -/
def str : Json → String
  | .string text => text
  | .null => "None"
  | .bool b => if b then "True" else "False"
  | .int n => toString n
  | value => py.strOf value

/-- `int` on a value of a message. -/
def int : Json → Except FieldError Int
  | .int n => .ok n
  -- a truth value is an integer of the language
  | .bool b => .ok (if b then 1 else 0)
  -- `int` cuts the fraction off
  | .float value => .ok (RoomService.truncate value)
  | .string text => py.intOf text
  | _ => .error .typeError

/-- `bool`. -/
def truthy : Json → Bool
  | .null => false
  | .bool b => b
  | .int n => n ≠ 0
  | .float value => value ≠ 0
  | .string text => text ≠ ""
  | .array items => !items.isEmpty
  | .object fields => !fields.isEmpty

/-- `dict(value or {})`. -/
def dict (value : Json) : Except FieldError (Dict String Json) :=
  -- `None` and all that is empty give the empty dict
  if truthy value then
    match value with
    | .object fields => .ok (Dict.ofList fields)
    | .array items => py.dictOf items
    | .string _ => .error .valueError
    | _ => .error .typeError
  else .ok Dict.empty

@[simp] theorem str_string (text : String) : py.str (.string text) = text := rfl

@[simp] theorem int_int (n : Int) : py.int (.int n) = .ok n := rfl

@[simp] theorem truthy_bool (b : Bool) : truthy (.bool b) = b := rfl

/-- A dict that has been written is read back, the empty one included. -/
@[simp] theorem dict_object (d : Dict String Json) : py.dict (.object d.entries) = .ok d := by
  have hofList := Dict.ofList_entries d
  unfold dict
  split
  · exact congrArg Except.ok hofList
  · next hempty =>
    have hnil : d.entries = [] := by simpa [truthy] using hempty
    rw [hnil] at hofList
    exact congrArg Except.ok hofList

end Builtins

/-! ### Fields -/

section Get

variable {fields : Fields} {key k : String} {value default : Json}

@[simp] theorem get_nil : get [] key = none := rfl

/-- A later pair with the key comes before the first. -/
@[simp] theorem get_cons : get ((k, value) :: fields) key =
    (get fields key).or (if k = key then some value else none) := by
  unfold get
  -- the search begins at the last pair, so this one is asked after the others
  rw [List.reverse_cons, List.find?_append, List.find?_singleton]
  cases hfind : fields.reverse.find? fun field => field.1 = key with
  | none => by_cases hk : k = key <;> simp [hk]
  | some field => rfl

/-- The fields behind come before those in front. -/
@[simp] theorem get_append (before after : Fields) : get (before ++ after) key =
    (get after key).or (get before key) := by
  unfold get
  rw [List.reverse_append, List.find?_append]
  cases after.reverse.find? fun field => field.1 = key with
  | none => rfl
  | some field => rfl

/-- `data.get(key, default)`. -/
def getD (fields : Fields) (key : String) (default : Json) : Json := (get fields key).getD default

/-- `data[key]`. -/
def item (fields : Fields) (key : String) : Except FieldError Json :=
  match get fields key with
  | some value => .ok value
  | none => .error (.keyError key)

theorem getD_of_get (h : get fields key = some value) : getD fields key default = value := by
  rw [getD, h, Option.getD_some]

theorem item_of_get (h : get fields key = some value) : item fields key = .ok value := by
  rw [item, h]

/-- A field that is written unless it is `None`. -/
def optional (key : String) : Json → Fields
  | .null => []
  | value => [(key, value)]

/-- An optional field is read unless it is `None`. -/
theorem get_optional : get (optional key value) k =
    match value with
    | .null => none
    | value => if key = k then some value else none := by
  cases value <;> simp [optional]

/-- Behind fields without the key, it is read back, `None` included. -/
theorem getD_optional (h : get fields key = none) :
    getD (fields ++ optional key value) key .null = value := by
  unfold getD
  rw [get_append, get_optional, h]
  cases value <;> simp

/-- It is in the way of no other field. -/
@[simp] theorem get_optional_of_ne (h : key ≠ k) : get (optional key value) k = none := by
  rw [get_optional]
  cases value <;> simp [h]

end Get

/-! ### Positions and types -/

/-- `[position[0], position[1]]`. -/
def positionItems (position : Position) : Json := .array [.int position.row, .int position.col]

/-- `parse_position(data.get(key), key)`. -/
def positionField (fields : Fields) (key : String) : Except FieldError Position :=
  (parsePosition (get fields key) key).mapError .protocolError

/-- A position that is written is read. -/
theorem positionField_of_get {fields : Fields} {key : String} {position : Position}
    (h : get fields key = some (positionItems position)) :
    positionField fields key = .ok position := by
  rw [positionField, h]
  rfl

/-- **Nothing but a list of two integers is a position**, and a `bool` is none. -/
theorem get_of_positionField {fields : Fields} {key : String} {position : Position}
    (h : positionField fields key = .ok position) :
    get fields key = some (positionItems position) := by
  unfold positionField parsePosition at h
  split at h
  · next row col hget =>
    rw [hget, ← Except.ok.inj h]
    rfl
  · exact absurd h nofun

/-- The check that four of the `from_dict` begin with; it returns what `decode` would have. -/
def checkType (py : Builtins) (type : String) (fields : Fields) : Except FieldError WireData :=
  match getD fields "type" .null with
  | .string got =>
    if got = type then .ok ⟨type, fields⟩
    else .error (.protocolError ("expected type '" ++ type ++ "', got '" ++ got ++ "'"))
  | got => .error (.protocolError ("expected type '" ++ type ++ "', got '" ++ py.str got ++ "'"))

/-- The type that is written passes the check. -/
theorem checkType_of_get {py : Builtins} {type : String} {fields : Fields}
    (h : get fields "type" = some (.string type)) :
    checkType py type fields = .ok ⟨type, fields⟩ := by
  rw [checkType, getD_of_get h]
  exact if_pos rfl

/-- What passes the check has the type. -/
theorem get_of_checkType {py : Builtins} {type : String} {fields : Fields} {data : WireData}
    (h : checkType py type fields = .ok data) :
    get fields "type" = some (.string type) ∧ data = ⟨type, fields⟩ := by
  unfold checkType getD at h
  cases hget : get fields "type" with
  | none =>
    -- `None` is no string, so the type is not the one expected
    rw [hget] at h
    exact absurd h nofun
  | some value =>
    rw [hget, Option.getD_some] at h
    split at h
    · next got =>
      split at h
      · next hgot => exact ⟨by rw [hgot], (Except.ok.inj h).symm⟩
      · exact absurd h nofun
    · exact absurd h nofun

end Protocol

end KungFuChess
