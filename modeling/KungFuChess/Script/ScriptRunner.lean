import Mathlib.Data.List.DropRight
import KungFuChess.Engine.BoardPrinter
import KungFuChess.Engine.Controller

/-!
# The script runner

`ScriptRunner.run_script`, the program behind `main`: a text with a board section and a commands
section is read, the board is parsed, and the commands are run one after the other. What the
program prints is collected; an exception that nobody catches ends the run after what has been
printed so far.
-/

namespace KungFuChess

open BoardParser

/-- The exceptions a command can raise. -/
inductive ScriptError where
  | indexError
  | valueError
deriving DecidableEq, Repr

/-! ### Integers -/

namespace ScriptRunner

/-- The zeros of the decimal digits that `int` reads, each followed by the other nine. -/
def decimalZeros : List Nat :=
  [0x30, 0x660, 0x6f0, 0x7c0, 0x966, 0x9e6, 0xa66, 0xae6, 0xb66, 0xbe6, 0xc66, 0xce6, 0xd66, 0xde6,
    0xe50, 0xed0, 0xf20, 0x1040, 0x1090, 0x17e0, 0x1810, 0x1946, 0x19d0, 0x1a80, 0x1a90, 0x1b50,
    0x1bb0, 0x1c40, 0x1c50, 0xa620, 0xa8d0, 0xa900, 0xa9d0, 0xa9f0, 0xaa50, 0xabf0, 0xff10, 0x104a0,
    0x10d30, 0x11066, 0x110f0, 0x11136, 0x111d0, 0x112f0, 0x11450, 0x114d0, 0x11650, 0x116c0,
    0x11730, 0x118e0, 0x11950, 0x11c50, 0x11d50, 0x11da0, 0x11f50, 0x16a60, 0x16ac0, 0x16b50,
    0x1d7ce, 0x1d7d8, 0x1d7e2, 0x1d7ec, 0x1d7f6, 0x1e140, 0x1e2f0, 0x1e4f0, 0x1e950, 0x1fbf0]

/-- The value of a decimal digit of any script. -/
def digitValue (c : Char) : Option Nat :=
  (decimalZeros.find? fun first => decide (first ≤ c.toNat ∧ c.toNat < first + 10)).map (c.toNat - ·)

/-- The longest number of digits that `int` converts. -/
def maxStrDigits : Nat := 4300

/-- `int(text)`, for a text without white space: a sign, and digits with single underscores
between them. -/
def intOf (text : List Char) : Except ScriptError Int :=
  let signed : Int × List Char :=
    match text with
    | '-' :: rest => (-1, rest)
    | '+' :: rest => (1, rest)
    | rest => (1, rest)
  let groups := signed.2.splitOn '_'
  if [] ∈ groups then .error .valueError
  else
    match groups.flatten.mapM digitValue with
    | none => .error .valueError
    | some digits =>
      if maxStrDigits < digits.length then .error .valueError
      else .ok (signed.1 * (digits.foldl (fun value digit => 10 * value + digit) 0 : Nat))

/-- `int(parts[index])`. -/
def intArg (parts : List (List Char)) (index : Nat) : Except ScriptError Int :=
  match parts[index]? with
  | none => .error .indexError
  | some text => intOf text

end ScriptRunner

/-! ### Commands -/

/-- The board and the engine are those of the controller; all three are missing until a board is
read. What has been printed so far is kept in `output`. -/
structure ScriptRunner where
  controller : Option Controller := none
  output : List String := []

namespace ScriptRunner

/-- `click X Y`. -/
def click (r : ScriptRunner) (x y : Int) : ScriptRunner :=
  { r with controller := r.controller.map fun c => c.click x y }

/-- The request goes to the engine; the selection of the controller stays. -/
def jump (r : ScriptRunner) (x y : Int) : ScriptRunner :=
  { r with
    controller := r.controller.map fun c =>
      match BoardMapper.toPosition c.engine.board x y with
      | none => c
      | some position => { c with engine := (c.engine.handleJumpRequest position).1 } }

/-- `wait MS`. -/
def wait (r : ScriptRunner) (ms : Int) : ScriptRunner :=
  { r with controller := r.controller.map fun c => { c with engine := c.engine.updateGameClock ms } }

/-- `print board`. -/
def printBoard (r : ScriptRunner) : ScriptRunner :=
  match r.controller with
  | none => r
  | some c => { r with output := r.output ++ BoardPrinter.printBoard c.engine.board }

/-- One command. Its arguments are read whether there is a board or not. -/
def runCommand (r : ScriptRunner) (command : List Char) : Except ScriptError ScriptRunner :=
  let parts := tokens (String.ofList command)
  match parts with
  | [] => .ok r
  | cmdType :: _ =>
    if cmdType = "click".toList then do
      let x ← intArg parts 1
      let y ← intArg parts 2
      .ok (r.click x y)
    else if cmdType = "jump".toList then do
      let x ← intArg parts 1
      let y ← intArg parts 2
      .ok (r.jump x y)
    else if cmdType = "wait".toList then do
      let ms ← intArg parts 1
      .ok (r.wait ms)
    else if command = "print board".toList then .ok r.printBoard
    else .ok r

/-- The loop over the commands, up to the first exception. -/
def runCommands (r : ScriptRunner) : List (List Char) → ScriptRunner × Option ScriptError
  | [] => (r, none)
  | command :: commands =>
    match r.runCommand command with
    | .ok r => r.runCommands commands
    | .error err => (r, some err)

/-! ### Scripts -/

/-- The characters `str.splitlines` breaks at. -/
def isLineBreak (c : Char) : Bool :=
  let n := c.toNat
  decide (10 ≤ n ∧ n ≤ 13) || decide (28 ≤ n ∧ n ≤ 30) || n ∈ [0x85, 0x2028, 0x2029]

/-- `line.strip()`. -/
def strip (line : List Char) : List Char := (line.dropWhile isSpace).rdropWhile isSpace

/-- The stripped lines that are not empty. A line break of two characters has an empty line
between them, which is dropped with the others. -/
def scriptLines (rawInput : String) : List (List Char) :=
  ((rawInput.toList.splitOnP isLineBreak).map strip).filter (· ≠ [])

/-- The lines of the two sections, as far as they have been read. -/
structure Sections where
  boardLines : List (List Char) := []
  commandLines : List (List Char) := []
  isCommandsSection : Bool := false
deriving DecidableEq, Repr

/-- The loop over the lines. The commands section has no end. -/
def Sections.read (s : Sections) (line : List Char) : Sections :=
  if line = "Board:".toList then s
  else if line = "Commands:".toList then { s with isCommandsSection := true }
  else if s.isCommandsSection then { s with commandLines := s.commandLines ++ [line] }
  else { s with boardLines := s.boardLines ++ [line] }

/-- The two sections of a script. -/
def sections (rawInput : String) : Sections := (scriptLines rawInput).foldl Sections.read {}

/-- The runner with its board, or the error of the parser. -/
def load (boardLines : List (List Char)) : Except ChessValidationError ScriptRunner :=
  if boardLines = [] then .ok {}
  else
    match parseInitialBoard (boardLines.map String.ofList) with
    | .error err => .error err
    | .ok board => .ok { controller := some { engine := GameEngine.new board } }

/-- What the program has printed, and the exception it ends with. -/
def runScript (rawInput : String) : ScriptRunner × Option ScriptError :=
  match load (sections rawInput).boardLines with
  | .error err => ({ output := [err.message] }, none)
  | .ok r => r.runCommands (sections rawInput).commandLines

end ScriptRunner

end KungFuChess
