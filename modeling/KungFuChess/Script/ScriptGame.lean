import KungFuChess.Engine.PieceLoss
import KungFuChess.Script.ScriptRunner

/-!
# Every script plays a game

The commands of a script come down to actions, and which actions they are does not depend on the
board: `runCommands_eq` reads off a list of commands the actions that are run and the exception,
if any, that ends them. With a board each action is a few calls of the engine, so a script plays a
game, and what it prints are the boards of that game (`plays_runScript`). What the engine keeps
over a game then holds of the printed lines (`printed_runScript`): no piece is printed on two
squares of a board, and every piece printed is one of the pieces of the board section, under its
own name or, for a pawn, as a queen.
-/

namespace KungFuChess

open GameEngine BoardParser

/-- The calls that a click makes. -/
theorem Controller.exists_play_click (c : Controller) (x y : Int) :
    ∃ more, (c.click x y).engine = c.engine.play more := by
  have hcase := Controller.click_cases c x y
  generalize c.click x y = c' at hcase ⊢
  cases hcase with
  | idle | selects | deselects => exact ⟨[], rfl⟩
  | asks selected call => exact ⟨[call], rfl⟩

namespace ScriptRunner

/-! ### Actions -/

/-- What a command does. -/
inductive Action where
  | click (x y : Int)
  | jump (x y : Int)
  | wait (ms : Int)
  | printBoard
  | skip
deriving DecidableEq, Repr

/-- What the action does. -/
def act (r : ScriptRunner) : Action → ScriptRunner
  | .click x y => r.click x y
  | .jump x y => r.jump x y
  | .wait ms => r.wait ms
  | .printBoard => r.printBoard
  | .skip => r

/-- A command is the same action, or raises the same exception, in every state. -/
theorem runCommand_eq (command : List Char) :
    (∃ action, ∀ r : ScriptRunner, r.runCommand command = .ok (r.act action)) ∨
      ∃ err, ∀ r : ScriptRunner, r.runCommand command = .error err := by
  unfold runCommand
  -- the arguments are read before the board is looked at
  dsimp only
  generalize hparts : tokens (String.ofList command) = parts
  have hargs : ∀ f : Int → Int → Action,
      (∃ action, ∀ r : ScriptRunner, (do
          let x ← intArg parts 1
          let y ← intArg parts 2
          .ok (r.act (f x y)) : Except ScriptError ScriptRunner) = .ok (r.act action)) ∨
        ∃ err, ∀ r : ScriptRunner, (do
          let x ← intArg parts 1
          let y ← intArg parts 2
          .ok (r.act (f x y)) : Except ScriptError ScriptRunner) = .error err := by
    intro f
    cases intArg parts 1 with
    | error err => exact Or.inr ⟨err, fun _ => rfl⟩
    | ok x =>
      cases intArg parts 2 with
      | error err => exact Or.inr ⟨err, fun _ => rfl⟩
      | ok y => exact Or.inl ⟨f x y, fun _ => rfl⟩
  cases parts with
  | nil => exact Or.inl ⟨.skip, fun _ => rfl⟩
  | cons cmdType rest =>
    dsimp only
    split
    · exact hargs .click
    · split
      · exact hargs .jump
      · split
        · cases intArg (cmdType :: rest) 1 with
          | error err => exact Or.inr ⟨err, fun _ => rfl⟩
          | ok ms => exact Or.inl ⟨.wait ms, fun _ => rfl⟩
        · split
          · exact Or.inl ⟨.printBoard, fun _ => rfl⟩
          · exact Or.inl ⟨.skip, fun _ => rfl⟩

/-- **Commands are actions**, the same in every state, up to the same exception. -/
theorem runCommands_eq (commands : List (List Char)) :
    ∃ (actions : List Action) (err : Option ScriptError), ∀ r : ScriptRunner,
      r.runCommands commands = (actions.foldl act r, err) := by
  induction commands with
  | nil => exact ⟨[], none, fun _ => rfl⟩
  | cons command commands ih =>
    obtain ⟨actions, err, hrest⟩ := ih
    obtain ⟨action, haction⟩ | ⟨err', herr⟩ := runCommand_eq command
    · refine ⟨action :: actions, err, fun r => ?_⟩
      rw [runCommands, haction]
      exact hrest _
    · refine ⟨[], some err', fun r => ?_⟩
      rw [runCommands, herr]
      rfl

/-! ### Games -/

/-- The script has played the calls on the board, and has printed the board of the game after
some of its prefixes. -/
structure Plays (r : ScriptRunner) (board : Board) (calls : List Call)
    (printed : List (List Call)) : Prop where
  engine : r.controller.map Controller.engine = some ((GameEngine.new board).play calls)
  prefixes : ∀ before ∈ printed, before <+: calls
  ordered : printed.Pairwise (· <+: ·)
  output : r.output = printed.flatMap fun before =>
    BoardPrinter.printBoard ((GameEngine.new board).play before).board

variable {board : Board} {r : ScriptRunner} {calls : List Call} {printed : List (List Call)}

/-- More calls, and nothing printed. -/
theorem Plays.goOn (h : r.Plays board calls printed) (controller : Option Controller)
    (more : List Call) (hengine : ∀ c, r.controller = some c →
      controller.map Controller.engine = some (c.engine.play more)) :
    ({ r with controller := controller } : ScriptRunner).Plays board (calls ++ more) printed := by
  obtain ⟨c, hc, hcalls⟩ := Option.map_eq_some_iff.mp h.engine
  refine ⟨?_, fun before hbefore => (h.prefixes before hbefore).trans (List.prefix_append _ _),
    h.ordered, h.output⟩
  have hplay : (GameEngine.new board).play (calls ++ more) =
      ((GameEngine.new board).play calls).play more := List.foldl_append
  rw [hplay, ← hcalls]
  exact hengine c hc

/-- **One action.** -/
theorem Plays.act (h : r.Plays board calls printed) (action : Action) :
    ∃ more last, (r.act action).Plays board (calls ++ more) (printed ++ last) := by
  obtain ⟨c, hc, hcalls⟩ := Option.map_eq_some_iff.mp h.engine
  have hsame : ∀ c', r.controller = some c' → c' = c := fun c' hc' =>
    Option.some.inj (hc'.symm.trans hc)
  cases action with
  -- an action makes no call, or those of a click, a jump or a wait; printing shows the game so far
  | skip =>
    refine ⟨[], [], ?_⟩
    rw [List.append_nil, List.append_nil]
    exact h
  | click x y =>
    obtain ⟨more, hmore⟩ := c.exists_play_click x y
    refine ⟨more, [], (List.append_nil printed).symm ▸ h.goOn _ more fun c' hc' => ?_⟩
    rw [hsame c' hc', hc, ← hmore]
    rfl
  | jump x y =>
    cases hposition : BoardMapper.toPosition c.engine.board x y with
    | none =>
      refine ⟨[], [], (List.append_nil printed).symm ▸ h.goOn _ [] fun c' hc' => ?_⟩
      rw [hsame c' hc', hc, Option.map_some, hposition]
      rfl
    | some position =>
      refine ⟨[.jump position], [], (List.append_nil printed).symm ▸ h.goOn _ _ fun c' hc' => ?_⟩
      rw [hsame c' hc', hc, Option.map_some, hposition]
      rfl
  | wait ms =>
    refine ⟨[.tick ms], [], (List.append_nil printed).symm ▸ h.goOn _ _ fun c' hc' => ?_⟩
    rw [hsame c' hc', hc]
    rfl
  -- the print shows the calls so far, which no later one takes back
  | printBoard =>
    refine ⟨[], [calls], ?_⟩
    have hprinted : r.act .printBoard = { r with
        output := r.output ++ BoardPrinter.printBoard c.engine.board } := by
      change r.printBoard = _
      rw [ScriptRunner.printBoard, hc]
    rw [hprinted, List.append_nil]
    refine ⟨h.engine, fun before hbefore => ?_, ?_, ?_⟩
    · obtain hbefore | hbefore := List.mem_append.mp hbefore
      · exact h.prefixes before hbefore
      · obtain rfl := List.mem_singleton.mp hbefore
        exact List.prefix_rfl
    · refine List.pairwise_append.mpr ⟨h.ordered, List.pairwise_singleton _ _, ?_⟩
      intro before hbefore last hlast
      rw [List.mem_singleton.mp hlast]
      exact h.prefixes before hbefore
    · rw [List.flatMap_append, List.flatMap_singleton, ← h.output, ← hcalls]

/-- **Any number of actions.** -/
theorem Plays.foldl_act (h : r.Plays board calls printed) (actions : List Action) :
    ∃ calls' printed', (actions.foldl ScriptRunner.act r).Plays board calls' printed' := by
  induction actions generalizing r calls printed with
  | nil => exact ⟨calls, printed, h⟩
  | cons action actions ih =>
    obtain ⟨more, last, hstep⟩ := h.act action
    exact ih hstep

/-- Without a board nothing happens. -/
theorem foldl_act_of_none (h : r.controller = none) (actions : List Action) :
    actions.foldl ScriptRunner.act r = r := by
  have hact : ∀ action, r.act action = r := fun action => by
    obtain ⟨controller, output⟩ := r
    obtain rfl : controller = none := h
    cases action <;> rfl
  exact Run.stable (P := fun t => t = r) (fun t action ht => by rw [ht, hact]) rfl

/-- **A script plays a game** on the board of its board section. -/
theorem plays_runScript {rawInput : String} (hne : (sections rawInput).boardLines ≠ [])
    (hparse : parseInitialBoard ((sections rawInput).boardLines.map String.ofList) = .ok board) :
    ∃ calls printed, (runScript rawInput).1.Plays board calls printed := by
  have hload : load (sections rawInput).boardLines =
      .ok { controller := some { engine := GameEngine.new board } } := by
    rw [load, if_neg hne, hparse]
  obtain ⟨actions, err, hrun⟩ := runCommands_eq (sections rawInput).commandLines
  have hnew : ({ controller := some { engine := GameEngine.new board } } : ScriptRunner).Plays
      board [] [] :=
    ⟨rfl, fun _ hbefore => absurd hbefore List.not_mem_nil, .nil, rfl⟩
  rw [runScript, hload]
  dsimp only
  rw [hrun]
  exact hnew.foldl_act actions

end ScriptRunner

/-! ### What is printed -/

/-- Named as before, or a pawn before and its queen now. -/
def Piece.NamedAfter (a b : Piece) : Prop := a.NamedAs b ∨ b.pieceType = .p ∧ a.NamedAs b.queen

/-- Names are inherited. -/
theorem Piece.NamedAfter.trans {a b c : Piece} (h : a.NamedAfter b) (h' : b.NamedAfter c) :
    a.NamedAfter c := by
  obtain h | ⟨hpawn, h⟩ := h <;> obtain h' | ⟨hpawn', h'⟩ := h'
  · exact Or.inl (h.trans h')
  · exact Or.inr ⟨hpawn', h.trans h'⟩
  · exact Or.inr ⟨h'.pieceType.symm.trans hpawn, h.trans h'.queen⟩
  · -- a queen is no pawn
    exact absurd (hpawn.symm.trans h'.pieceType) (by simp [Piece.queen])

section Names

variable {e : GameEngine}

/-- A call renames nothing but a pawn. -/
theorem namedAfter_call (h : FlightInv e e.arbiter.activeMotions) (c : Call) (ref : PieceRef) :
    ((e.call c).piece ref).NamedAfter (e.piece ref) := by
  have hcase := call_cases h c
  generalize e.call c = e' at hcase
  cases hcase with
  | rejected => exact Or.inl (Piece.NamedAs.refl _)
  | launched m => exact Or.inl (named_setStatus m.piece ref m.status)
  | cancelled m => exact Or.inl (named_setStatus m.piece ref .moving)
  | ticked ms =>
    exact Run.stable (P := fun t : GameEngine => (t.piece ref).NamedAfter (e.piece ref))
      (fun t m ht => Piece.NamedAfter.trans ((land_cases t m).named ref) ht)
      (Or.inl (Piece.NamedAs.refl _))

/-- So does a game. -/
theorem namedAfter_play (h : FlightInv e e.arbiter.activeMotions) (calls : List Call)
    (ref : PieceRef) : ((e.play calls).piece ref).NamedAfter (e.piece ref) := by
  induction calls generalizing e with
  | nil => exact Or.inl (Piece.NamedAs.refl _)
  | cons c calls ih => exact (ih (h.call c)).trans (namedAfter_call h c ref)

/-- And it brings no new piece. -/
theorem knownPieces_play {pieces : Set PieceRef} (h : FlightInv e e.arbiter.activeMotions)
    (hknown : KnownPieces pieces e e.arbiter.activeMotions) (calls : List Call) :
    KnownPieces pieces (e.play calls) (e.play calls).arbiter.activeMotions :=
  (Run.stable (P := fun t : GameEngine => KnownPieces pieces t t.arbiter.activeMotions ∧
      FlightInv t t.arbiter.activeMotions)
    (fun _ c ht => ⟨ht.1.call ht.2 c, ht.2.call c⟩) ⟨hknown, h⟩).1

end Names

/-- The pieces of the second board are pieces of the first one, each on one square and each
under its own name or, if it was a pawn, as a queen. -/
def ComesFrom (board board' : Board) : Prop :=
  board'.size = board.size ∧
    ∃ source : Position → Position,
      (∀ p p', board'.pieceAt p ≠ none → board'.pieceAt p' ≠ none → source p = source p' → p = p') ∧
      ∀ p piece, board'.pieceAt p = some piece →
        ∃ piece₀, board.pieceAt (source p) = some piece₀ ∧ piece.NamedAfter piece₀

/-- **What stands on the board in a game comes from the board it began on.** -/
theorem comesFrom_play {board : Board} (h : Parsed board) (calls : List Call) :
    ComesFrom board ((GameEngine.new board).play calls).board := by
  have hflights := (FlightInv.new h).play calls
  have hknown : KnownPieces {ref | ∃ p, board.getPiece p = some ref}
      ((GameEngine.new board).play calls) _ :=
    @knownPieces_play _ {ref | ∃ p, board.getPiece p = some ref} (FlightInv.new h)
      ⟨fun p ref hp => ⟨p, hp⟩, fun m hm => absurd hm List.not_mem_nil⟩ calls
  refine ⟨((OnBoard.new h).play (FlightInv.new h) calls).sized,
    fun p => (((GameEngine.new board).play calls).board.getPiece p).elim p PieceRef.origin,
    fun p p' hp hp' hsource => ?_, fun p piece hpiece => ?_⟩
  · obtain ⟨piece, hpiece⟩ := Option.ne_none_iff_exists'.mp hp
    obtain ⟨piece', hpiece'⟩ := Option.ne_none_iff_exists'.mp hp'
    obtain ⟨ref, href, -⟩ := Option.map_eq_some_iff.mp hpiece
    obtain ⟨ref', href', -⟩ := Option.map_eq_some_iff.mp hpiece'
    -- the piece on a square is the object created on its source
    have heq : ref = ref' := by
      obtain ⟨origin⟩ := ref
      obtain ⟨origin'⟩ := ref'
      dsimp only at hsource
      rw [href, href'] at hsource
      exact congrArg PieceRef.mk hsource
    exact hflights.placed p p' ref href (heq ▸ href')
  · obtain ⟨ref, href, rfl⟩ := Option.map_eq_some_iff.mp hpiece
    obtain ⟨p₀, hp₀⟩ := hknown.onGrid p ref href
    obtain rfl := h.origin p₀ ref hp₀
    refine ⟨board.piece ⟨p₀⟩, ?_, namedAfter_play (FlightInv.new h) calls ⟨p₀⟩⟩
    dsimp only
    rw [href, Option.elim_some, Board.pieceAt, hp₀, Option.map_some]

/-- **What a script prints.** Without a board section nothing is printed, and an error of the
parser is all that is; else the script plays a game and prints some of its boards in order, and
their pieces come from the board of the board section. -/
theorem printed_runScript (rawInput : String) :
    ((ScriptRunner.sections rawInput).boardLines = [] ∧
        (ScriptRunner.runScript rawInput).1.output = []) ∨
      (∃ err, parseInitialBoard ((ScriptRunner.sections rawInput).boardLines.map String.ofList) =
          .error err ∧ ScriptRunner.runScript rawInput = ({ output := [err.message] }, none)) ∨
      ∃ board calls printed,
        parseInitialBoard ((ScriptRunner.sections rawInput).boardLines.map String.ofList) = .ok board ∧
          (ScriptRunner.runScript rawInput).1.Plays board calls printed ∧
          ∀ before ∈ printed, ComesFrom board ((GameEngine.new board).play before).board := by
  -- no board section, a board that is rejected, a board that is played on
  by_cases hne : (ScriptRunner.sections rawInput).boardLines = []
  · obtain ⟨actions, err, hrun⟩ :=
      ScriptRunner.runCommands_eq (ScriptRunner.sections rawInput).commandLines
    refine Or.inl ⟨hne, ?_⟩
    have hload : ScriptRunner.load (ScriptRunner.sections rawInput).boardLines = .ok {} := by
      rw [ScriptRunner.load, if_pos hne]
    rw [ScriptRunner.runScript, hload]
    dsimp only
    rw [hrun, ScriptRunner.foldl_act_of_none rfl]
  · refine Or.inr ?_
    cases hparse : parseInitialBoard ((ScriptRunner.sections rawInput).boardLines.map String.ofList) with
    | error err =>
      refine Or.inl ⟨err, rfl, ?_⟩
      have hload : ScriptRunner.load (ScriptRunner.sections rawInput).boardLines = .error err := by
        rw [ScriptRunner.load, if_neg hne, hparse]
      rw [ScriptRunner.runScript, hload]
    | ok board =>
      obtain ⟨calls, printed, hplays⟩ := ScriptRunner.plays_runScript hne hparse
      exact Or.inr ⟨board, calls, printed, rfl, hplays,
        fun before _ => comesFrom_play (Parsed.of_parseInitialBoard hparse) before⟩

end KungFuChess
