import KungFuChess.Engine.Resume
import KungFuChess.Script.ScriptGame

/-!
# Resuming a script

A script can be cut in two where nothing is under way and no square is selected: the second half,
run on the printed board, prints what it would have printed after the first half, and ends with
the same exception (`resumed_runScript`).
-/

namespace KungFuChess

open GameEngine BoardParser

variable {σ : PieceRef → PieceRef → Prop} {shift : Int} {lead : Int × Int}

/-! ### Controllers -/

/-- The controllers have the same square selected, and their engines look alike. -/
structure Controller.Alike (σ : PieceRef → PieceRef → Prop) (shift : Int) (lead : Int × Int)
    (c c' : Controller) : Prop where
  engine : c.engine.Alike σ shift lead c'.engine
  selected : c'.selected = c.selected

namespace Controller.Alike

variable {c c' : Controller}

/-- A click hits the same square on both boards. -/
theorem toPosition (h : c.Alike σ shift lead c') (x y : Int) :
    BoardMapper.toPosition c'.engine.board x y = BoardMapper.toPosition c.engine.board x y := by
  obtain ⟨hrows, hcols⟩ := Prod.mk.inj h.engine.board.size
  unfold BoardMapper.toPosition
  rw [hrows, hcols]

/-- Which holds a piece on both or on neither. -/
theorem isSome_getPiece (h : c.Alike σ shift lead c') (p : Position) :
    (c'.engine.board.getPiece p).isSome = (c.engine.board.getPiece p).isSome := by
  have hpiece := congrArg Option.isSome (h.engine.board.pieceAt p)
  unfold Board.pieceAt at hpiece
  rw [Option.isSome_map, Option.isSome_map] at hpiece
  exact hpiece

/-- **A click keeps two controllers alike.** -/
theorem click (hσ : Relator.BiUnique σ) (h : c.Alike σ shift lead c') (x y : Int) :
    (c.click x y).Alike σ shift lead (c'.click x y) := by
  unfold Controller.click
  rw [h.toPosition, h.selected]
  cases BoardMapper.toPosition c.engine.board x y with
  | none => exact h
  | some position =>
    cases c.selected with
    | none =>
      dsimp only
      rw [h.isSome_getPiece]
      split
      · exact ⟨h.engine, rfl⟩
      · exact h
    | some selected =>
      dsimp only
      have hmove := (h.engine.handleMoveRequest hσ selected position (duration selected position)).1
      split
      · exact ⟨(h.engine.handleJumpRequest hσ selected).1, rfl⟩
      · rw [h.engine.board.pieceAt, h.engine.board.pieceAt]
        -- the pieces on both squares are the same
        cases c.engine.board.pieceAt position with
        | none =>
          cases c.engine.board.pieceAt selected with
          | none => exact ⟨h.engine, rfl⟩
          | some piece => exact ⟨hmove, rfl⟩
        | some clicked =>
          cases c.engine.board.pieceAt selected with
          | none => exact ⟨h.engine, rfl⟩
          | some piece =>
            dsimp only
            split
            · exact ⟨h.engine, rfl⟩
            · exact ⟨hmove, rfl⟩

end Controller.Alike

/-! ### Runners -/

namespace ScriptRunner

/-- The first script has printed `said` before, and from then on what the second has printed. -/
structure Continues (σ : PieceRef → PieceRef → Prop) (shift : Int) (lead : Int × Int)
    (said : List String) (r r' : ScriptRunner) : Prop where
  controller : Option.Rel (Controller.Alike σ shift lead) r.controller r'.controller
  output : r.output = said ++ r'.output

variable {said : List String} {r r' : ScriptRunner}

/-- **One action.** -/
theorem Continues.act (hσ : Relator.BiUnique σ) (h : r.Continues σ shift lead said r')
    (action : Action) : (r.act action).Continues σ shift lead said (r'.act action) := by
  obtain ⟨controller, output⟩ := r
  obtain ⟨controller', output'⟩ := r'
  obtain ⟨hcontroller, houtput⟩ := h
  cases hcontroller with
  | none => cases action <;> exact ⟨Option.Rel.none, houtput⟩
  | @some c c' halike =>
    cases action with
    -- each action finds the two controllers in the same case
    | skip => exact ⟨Option.Rel.some halike, houtput⟩
    | click x y => exact ⟨Option.Rel.some (halike.click hσ x y), houtput⟩
    | wait ms =>
      exact ⟨Option.Rel.some ⟨halike.engine.updateGameClock hσ ms, halike.selected⟩, houtput⟩
    | jump x y =>
      refine ⟨Option.Rel.some ?_, houtput⟩
      dsimp only
      rw [halike.toPosition]
      cases BoardMapper.toPosition c.engine.board x y with
      | none => exact halike
      | some position =>
        exact ⟨(halike.engine.handleJumpRequest hσ position).1, halike.selected⟩
    | printBoard =>
      refine ⟨Option.Rel.some halike, ?_⟩
      have hprinted : BoardPrinter.printBoard c'.engine.board =
          BoardPrinter.printBoard c.engine.board :=
        printBoard_congr halike.engine.board.size halike.engine.board.pieceAt
      change output ++ _ = said ++ (output' ++ _)
      rw [show output = said ++ output' from houtput, hprinted, List.append_assoc]

/-- **Any number of actions.** -/
theorem Continues.foldl_act (hσ : Relator.BiUnique σ) (h : r.Continues σ shift lead said r')
    (actions : List Action) :
    (actions.foldl ScriptRunner.act r).Continues σ shift lead said
      (actions.foldl ScriptRunner.act r') := by
  induction actions generalizing r r' with
  | nil => exact h
  | cons action actions ih => exact ih (h.act hσ action)

/-! ### Texts -/

/-- A text that is appended after a line break adds its lines. -/
theorem scriptLines_append (rawInput more : String) :
    scriptLines (rawInput ++ "\n" ++ more) = scriptLines rawInput ++ scriptLines more := by
  have hbreak : isLineBreak '\n' = true := rfl
  have htext : (rawInput ++ "\n" ++ more).toList = rawInput.toList ++ '\n' :: more.toList := by
    rw [String.toList_append, String.toList_append, List.append_assoc]
    rfl
  unfold scriptLines
  rw [htext, List.splitOnP_append_cons _ _ hbreak, List.map_append, List.filter_append]

/-- What is left of the lines in the commands section. -/
def commandsOf (lines : List (List Char)) : List (List Char) :=
  lines.filter fun line => line ≠ "Board:".toList ∧ line ≠ "Commands:".toList

section CommandsOf

variable {line : List Char} {lines : List (List Char)}

/-- The two headings are no commands. -/
theorem commandsOf_marker (h : line = "Board:".toList ∨ line = "Commands:".toList) :
    commandsOf (line :: lines) = commandsOf lines := by
  refine List.filter_cons_of_neg fun hkept => ?_
  obtain ⟨hboard, hcommands⟩ := of_decide_eq_true hkept
  exact h.elim hboard hcommands

theorem commandsOf_command (hboard : line ≠ "Board:".toList)
    (hcommands : line ≠ "Commands:".toList) :
    commandsOf (line :: lines) = line :: commandsOf lines :=
  List.filter_cons_of_pos (decide_eq_true ⟨hboard, hcommands⟩)

end CommandsOf

/-- In the commands section every other line is a command. -/
theorem foldl_read {s : Sections} (h : s.isCommandsSection = true) (lines : List (List Char)) :
    lines.foldl Sections.read s = { s with commandLines := s.commandLines ++ commandsOf lines } := by
  induction lines generalizing s with
  | nil =>
    rw [commandsOf, List.filter_nil, List.append_nil]
    rfl
  | cons line lines ih =>
    rw [List.foldl_cons, Sections.read]
    -- a heading changes the section, and in the commands section any other line is kept
    by_cases hboard : line = "Board:".toList
    · rw [if_pos hboard, ih h, commandsOf_marker (Or.inl hboard)]
    · rw [if_neg hboard]
      by_cases hcommands : line = "Commands:".toList
      · rw [if_pos hcommands, ih rfl, commandsOf_marker (Or.inr hcommands), ← h]
      · have hrest := @ih { s with commandLines := s.commandLines ++ [line] } h
        rw [if_neg hcommands, if_pos h, hrest, commandsOf_command hboard hcommands]
        dsimp only
        rw [List.append_assoc, List.singleton_append]

/-- So what is appended to a script in its commands section are commands. -/
theorem sections_append {rawInput : String} (h : (sections rawInput).isCommandsSection = true)
    (more : String) :
    sections (rawInput ++ "\n" ++ more) =
      { sections rawInput with
        commandLines := (sections rawInput).commandLines ++ commandsOf (scriptLines more) } := by
  unfold sections
  rw [scriptLines_append, List.foldl_append]
  exact foldl_read h _

/-- Commands run on until one of them raises. -/
theorem runCommands_append (r : ScriptRunner) (commands more : List (List Char)) :
    r.runCommands (commands ++ more) =
      match r.runCommands commands with
      | (r, none) => r.runCommands more
      | (r, some err) => (r, some err) := by
  induction commands generalizing r with
  | nil => rfl
  | cons command commands ih =>
    rw [List.cons_append, runCommands, runCommands]
    cases r.runCommand command with
    | error err => rfl
    | ok r' => exact ih r'

/-! ### The printed board as a script -/

/-- A board section with the printed board, and the head of the commands section. -/
def saveScript (board : Board) : String :=
  "\n".intercalate ("Board:" :: BoardPrinter.printBoard board ++ ["Commands:"])

/-- A line that `strip` leaves alone, without line breaks. -/
structure Stripped (line : List Char) : Prop where
  word : Words.IsWord isLineBreak line
  head : ∀ c ∈ line.head?, isSpace c = false
  last : ∀ c ∈ line.getLast?, isSpace c = false

/-- A stripped line stays as it is. -/
theorem Stripped.strip {line : List Char} (h : Stripped line) : strip line = line := by
  have hdrop : line.dropWhile isSpace = line := by
    cases line with
    | nil => rfl
    | cons c line =>
      have hc := h.head c rfl
      rw [List.dropWhile_cons, hc]
      rfl
  rw [ScriptRunner.strip, hdrop, List.rdropWhile_eq_self_iff]
  intro hne hspace
  have hlast := h.last _ (List.getLast?_eq_some_getLast hne)
  rw [hlast] at hspace
  exact Bool.false_ne_true hspace

/-- And is one line. -/
theorem Stripped.scriptLines {line : String} (h : Stripped line.toList) :
    scriptLines line = [line.toList] := by
  have hkept : decide (line.toList ≠ []) = true := decide_eq_true h.word.nonempty
  rw [ScriptRunner.scriptLines, List.splitOnP_eq_singleton h.word.solid, List.map_singleton, h.strip,
    List.filter_cons_of_pos (p := fun l : List Char => decide (l ≠ [])) hkept, List.filter_nil]

/-- Lines joined by line breaks are read again. -/
theorem scriptLines_join {lines : List String} (h : ∀ line ∈ lines, Stripped line.toList) :
    scriptLines ("\n".intercalate lines) = lines.map String.toList := by
  induction lines with
  | nil => rfl
  | cons line lines ih =>
    have hline := (h line List.mem_cons_self).scriptLines
    have hrest := ih fun l hl => h l (List.mem_cons_of_mem line hl)
    cases lines with
    | nil =>
      rw [String.intercalate_singleton, hline]
      rfl
    | cons line' lines =>
      rw [String.intercalate_cons_cons, scriptLines_append, hline, hrest]
      rfl

/-- Every line break is a space. -/
theorem isLineBreak_eq_false {c : Char} (h : isSpace c = false) : isLineBreak c = false := by
  unfold isSpace at h
  unfold isLineBreak
  simp only [Bool.or_eq_false_iff, decide_eq_false_iff_not, List.mem_cons, not_or, List.not_mem_nil,
    not_false_eq_true, and_true] at h ⊢
  omega

theorem stripped_of_isWord {word : List Char} (h : Words.IsWord isSpace word) : Stripped word :=
  ⟨⟨h.nonempty, fun c hc => isLineBreak_eq_false (h.solid c hc)⟩,
    fun c hc => h.solid c (List.mem_of_mem_head? hc),
    fun c hc => h.solid c (List.mem_of_getLast? hc)⟩

/-- Two stripped lines with a character between them. -/
theorem Stripped.append {line line' : List Char} (h : Stripped line) (h' : Stripped line') {c : Char}
    (hc : isLineBreak c = false) : Stripped (line ++ [c] ++ line') := by
  refine ⟨⟨by simp, fun d hd => ?_⟩, fun d hd => ?_, fun d hd => ?_⟩
  · rw [List.mem_append, List.mem_append, List.mem_singleton] at hd
    obtain (hd | rfl) | hd := hd
    · exact h.word.solid d hd
    · exact hc
    · exact h'.word.solid d hd
  · rw [List.append_assoc, List.head?_append_of_ne_nil _ h.word.nonempty] at hd
    exact h.head d hd
  · rw [List.getLast?_append_of_ne_nil _ h'.word.nonempty] at hd
    exact h'.last d hd

/-- Words that are joined by a space make a stripped line. -/
theorem stripped_join {space : Char} (hspace : isLineBreak space = false) {ws : List (List Char)}
    (hne : ws ≠ []) (hws : ∀ word ∈ ws, Words.IsWord isSpace word) :
    Stripped ([space].intercalate ws) := by
  induction ws with
  | nil => exact absurd rfl hne
  | cons word ws ih =>
    have hword := stripped_of_isWord (hws word List.mem_cons_self)
    cases ws with
    | nil =>
      rw [List.intercalate_singleton]
      exact hword
    | cons word' ws =>
      rw [List.intercalate_cons_cons]
      exact hword.append (ih (List.cons_ne_nil _ _) fun w hw => hws w (List.mem_cons_of_mem word hw))
        hspace

section Printed

variable {board : Board} (h : board.Printable)

include h in
/-- A printed line has nothing to strip. -/
theorem stripped_printRow (hcols : 0 < board.numCols) (row : Nat) :
    Stripped (BoardPrinter.printRow board row).toList := by
  have hwords : ∀ word ∈ (List.range board.numCols).map fun (col : Nat) =>
      (BoardPrinter.printToken board ⟨row, col⟩).toList, Words.IsWord isSpace word := by
    intro word hword
    obtain ⟨col, -, rfl⟩ := List.mem_map.mp hword
    exact BoardPrinter.isWord_printToken h _
  have hspace : " ".toList = [' '] := rfl
  unfold BoardPrinter.printRow
  rw [String.toList_intercalate, List.map_map, hspace]
  refine stripped_join rfl ?_ hwords
  intro hnil
  have hlength := congrArg List.length hnil
  rw [List.length_map, List.length_range] at hlength
  exact absurd hlength hcols.ne'

include h in
/-- A printed line does not head a section: its tokens are readable. -/
theorem printRow_ne_marker (row : Nat) :
    (BoardPrinter.printRow board row).toList ≠ "Board:".toList ∧
      (BoardPrinter.printRow board row).toList ≠ "Commands:".toList := by
  have hreads : ∀ token ∈ tokens (BoardPrinter.printRow board row), ∃ square,
      readToken token = .ok square := fun token htoken => by
    -- the tokens of a heading are not of the grammar
    rw [BoardPrinter.tokens_printRow h] at htoken
    obtain ⟨col, -, rfl⟩ := List.mem_map.mp htoken
    obtain ⟨square, hread, -⟩ := BoardPrinter.readToken_printToken h ⟨row, col⟩
    exact ⟨square, hread⟩
  have hmarker : ∀ marker : String, tokens marker = [marker.toList] →
      readToken marker.toList = .error .unknownToken →
      (BoardPrinter.printRow board row).toList ≠ marker.toList := by
    intro marker hword hunknown heq
    rw [String.toList_inj.mp heq, hword] at hreads
    obtain ⟨square, hread⟩ := hreads _ (List.mem_singleton.mpr rfl)
    exact absurd (hunknown.symm.trans hread) (by simp)
  exact ⟨hmarker "Board:" (by decide) (by decide), hmarker "Commands:" (by decide) (by decide)⟩

end Printed

/-! ### Loading -/

/-- The lines of a script have a word each. -/
theorem tokens_ne_nil {rawInput : String} {line : List Char} (h : line ∈ scriptLines rawInput) :
    tokens (String.ofList line) ≠ [] := by
  obtain ⟨hmem, hne⟩ := List.mem_filter.mp h
  obtain ⟨text, -, rfl⟩ := List.mem_map.mp hmem
  have hne' : strip text ≠ [] := of_decide_eq_true hne
  intro hnil
  unfold tokens at hnil
  rw [String.toList_ofList] at hnil
  -- the last character of a stripped line is no space
  exact List.rdropWhile_last_not isSpace _ hne'
    (Words.sep_of_words_eq_nil hnil _ (List.getLast_mem hne'))

/-- A line of the board section is a line of the script. -/
theorem mem_boardLines {lines : List (List Char)} {s : Sections} {line : List Char}
    (h : line ∈ (lines.foldl Sections.read s).boardLines) : line ∈ s.boardLines ∨ line ∈ lines := by
  induction lines generalizing s with
  | nil => exact Or.inl h
  | cons first lines ih =>
    obtain h | h := ih h
    -- the line is a heading, belongs to the commands, or is one more line of the board
    · unfold Sections.read at h
      split at h
      · exact Or.inl h
      · split at h
        · exact Or.inl h
        · split at h
          · exact Or.inl h
          · obtain h | h := List.mem_append.mp h
            · exact Or.inl h
            · exact Or.inr (List.mem_cons.mpr (Or.inl (List.mem_singleton.mp h)))
    · exact Or.inr (List.mem_cons_of_mem first h)

/-- The board of a script is not empty. -/
theorem size_pos {rawInput : String} {board : Board} (hne : (sections rawInput).boardLines ≠ [])
    (hparse : parseInitialBoard ((sections rawInput).boardLines.map String.ofList) = .ok board) :
    0 < board.numRows ∧ 0 < board.numCols := by
  have hreads := Reads.of_parseInitialBoard hparse
  obtain ⟨line, lines, hlines⟩ := List.exists_cons_of_ne_nil hne
  have hline : line ∈ (sections rawInput).boardLines := hlines ▸ List.mem_cons_self
  refine ⟨?_, ?_⟩
  · rw [hreads.rows, List.length_map, hlines]
    exact Nat.succ_pos _
  · rw [← hreads.width _ (List.mem_map_of_mem hline)]
    obtain hnone | hmem := mem_boardLines hline
    · exact absurd hnone List.not_mem_nil
    · exact List.length_pos_iff.mpr (tokens_ne_nil hmem)

/-- Before the commands section every line that is no marker is a board line. -/
theorem foldl_read_board {lines : List (List Char)} {s : Sections} (h : s.isCommandsSection = false)
    (hlines : ∀ line ∈ lines, line ≠ "Board:".toList ∧ line ≠ "Commands:".toList) :
    lines.foldl Sections.read s = { s with boardLines := s.boardLines ++ lines } := by
  induction lines generalizing s with
  | nil => rw [List.append_nil]; rfl
  | cons line lines ih =>
    obtain ⟨hboard, hcommands⟩ := hlines line List.mem_cons_self
    have hrest := @ih { s with boardLines := s.boardLines ++ [line] } h
      fun l hl => hlines l (List.mem_cons_of_mem line hl)
    rw [List.foldl_cons, Sections.read, if_neg hboard, if_neg hcommands, h,
      if_neg Bool.false_ne_true]
    rw [h] at hrest
    rw [hrest, List.append_assoc, List.singleton_append]

/-- **The script of a printed board has its lines in the board section.** -/
theorem sections_saveScript {board : Board} (h : board.Printable) (hcols : 0 < board.numCols) :
    sections (saveScript board) =
      { boardLines := (BoardPrinter.printBoard board).map String.toList
        isCommandsSection := true } := by
  have hmarker : ∀ marker : String, Words.IsWord isSpace marker.toList → Stripped marker.toList :=
    fun _ hword => stripped_of_isWord hword
  have hstripped : ∀ line ∈ "Board:" :: BoardPrinter.printBoard board ++ ["Commands:"],
      Stripped line.toList := by
    intro line hline
    rw [List.mem_append, List.mem_cons, List.mem_singleton] at hline
    obtain (rfl | hline) | rfl := hline
    · exact hmarker _ ⟨by simp, by simp [isSpace]⟩
    · obtain ⟨row, -, rfl⟩ := List.mem_map.mp hline
      exact stripped_printRow h hcols row
    · exact hmarker _ ⟨by simp, by simp [isSpace]⟩
  have hrows : ∀ line ∈ (BoardPrinter.printBoard board).map String.toList,
      line ≠ "Board:".toList ∧ line ≠ "Commands:".toList := by
    intro line hline
    obtain ⟨text, htext, rfl⟩ := List.mem_map.mp hline
    obtain ⟨row, -, rfl⟩ := List.mem_map.mp htext
    exact printRow_ne_marker h row
  -- the heading, the rows, the second heading
  unfold sections saveScript
  rw [scriptLines_join hstripped, List.map_append, List.map_cons, List.cons_append, List.foldl_cons,
    List.foldl_append]
  have hhead : Sections.read {} "Board:".toList = {} := if_pos rfl
  rw [hhead, foldl_read_board rfl hrows]
  rfl

/-- The runner that a script with a readable board section starts with. -/
theorem load_eq {boardLines : List (List Char)} {board : Board} (hne : boardLines ≠ [])
    (hparse : parseInitialBoard (boardLines.map String.ofList) = .ok board) :
    load boardLines = .ok { controller := some { engine := GameEngine.new board } } := by
  rw [load, if_neg hne, hparse]

/-- More text after the commands is more commands. -/
theorem runScript_append {rawInput : String} {r₀ : ScriptRunner}
    (hload : load (sections rawInput).boardLines = .ok r₀)
    (hsection : (sections rawInput).isCommandsSection = true) {r : ScriptRunner}
    (hrun : runScript rawInput = (r, none)) (more : String) :
    runScript (rawInput ++ "\n" ++ more) = r.runCommands (commandsOf (scriptLines more)) := by
  rw [runScript, hload] at hrun
  rw [runScript, sections_append hsection]
  dsimp only at hrun ⊢
  rw [hload]
  dsimp only
  rw [runCommands_append, hrun]

/-- A script with a controller has read a board. -/
theorem exists_board {rawInput : String} {r : ScriptRunner} {err : Option ScriptError} {c : Controller}
    (hrun : runScript rawInput = (r, err)) (hc : r.controller = some c) :
    (sections rawInput).boardLines ≠ [] ∧ ∃ board,
      parseInitialBoard ((sections rawInput).boardLines.map String.ofList) = .ok board := by
  have hsome : (runScript rawInput).1.controller = some c := by rw [hrun, hc]
  rw [runScript] at hsome
  -- without a board section there is no controller at all
  by_cases hne : (sections rawInput).boardLines = []
  · obtain ⟨actions, err', hactions⟩ := runCommands_eq (sections rawInput).commandLines
    rw [load, if_pos hne] at hsome
    dsimp only at hsome
    rw [hactions, foldl_act_of_none rfl] at hsome
    exact absurd hsome (by simp)
  · refine ⟨hne, ?_⟩
    cases hparse : parseInitialBoard ((sections rawInput).boardLines.map String.ofList) with
    | ok board => exact ⟨board, rfl⟩
    | error err' =>
      rw [load, if_neg hne, hparse] at hsome
      exact absurd hsome (by simp)

/-- The script of a printed board starts with that board and has no commands yet. -/
theorem load_saveScript {board saved : Board} (h : board.Printable) (hrows : 0 < board.numRows)
    (hcols : 0 < board.numCols)
    (hsaved : parseInitialBoard (BoardPrinter.printBoard board) = .ok saved) :
    load (sections (saveScript board)).boardLines =
        .ok { controller := some { engine := GameEngine.new saved } } ∧
      runScript (saveScript board) =
        ({ controller := some { engine := GameEngine.new saved } }, none) := by
  have hsections := sections_saveScript h hcols
  have hload : load (sections (saveScript board)).boardLines =
      .ok { controller := some { engine := GameEngine.new saved } } := by
    rw [hsections]
    refine load_eq (fun hnil => ?_) ?_
    · -- a board with a row is not printed as an empty text
      have hlength := congrArg List.length hnil
      rw [List.length_map, BoardPrinter.printBoard, List.length_map, List.length_range] at hlength
      exact absurd hlength hrows.ne'
    · have hback : String.ofList ∘ String.toList = id := funext fun text => String.ofList_toList
      rw [List.map_map, hback, List.map_id, hsaved]
  refine ⟨hload, ?_⟩
  rw [runScript, hload, hsections]
  rfl

end ScriptRunner

open ScriptRunner in
/-- **A script can be resumed from the printed board.** Where the first part leaves nothing under
way and no square selected, the rest prints the same, and ends the same, after the head of the
first part and after the printed board. -/
theorem resumed_runScript {rawInput : String} {r : ScriptRunner} {c : Controller}
    (hrun : runScript rawInput = (r, none)) (hc : r.controller = some c)
    (hsection : (sections rawInput).isCommandsSection = true) (hsave : Saveable c.engine)
    (hselected : c.selected = none) (more : String) :
    (runScript (rawInput ++ "\n" ++ more)).1.output =
        r.output ++ (runScript (saveScript c.engine.board ++ "\n" ++ more)).1.output ∧
      (runScript (rawInput ++ "\n" ++ more)).2 =
        (runScript (saveScript c.engine.board ++ "\n" ++ more)).2 := by
  obtain ⟨hne, board, hparse⟩ := exists_board hrun hc
  obtain ⟨calls, printed, hplays⟩ := plays_runScript hne hparse
  -- what the first part leaves is a game on its board, hence alike to the one that is resumed
  have hengine : c.engine = (GameEngine.new board).play calls := by
    have hplayed := hplays.engine
    rw [hrun, hc] at hplayed
    exact Option.some.inj hplayed
  rw [hengine] at hsave ⊢
  obtain ⟨saved, σ, hsaved, hσ, halike⟩ := exists_alike_saved hparse calls hsave
  have hprintable := printable_play hparse calls
  have hparsed := Parsed.of_parseInitialBoard hparse
  have hsize := ((OnBoard.new hparsed).play (FlightInv.new hparsed) calls).sized
  obtain ⟨hrows, hcols⟩ := Prod.mk.inj hsize
  obtain ⟨hrows', hcols'⟩ := size_pos hne hparse
  obtain ⟨hload, hstart⟩ := load_saveScript hprintable (hrows ▸ hrows') (hcols ▸ hcols') hsaved
  have hsaveSection :
      (sections (saveScript ((GameEngine.new board).play calls).board)).isCommandsSection = true := by
    rw [sections_saveScript hprintable (hcols ▸ hcols')]
  rw [runScript_append (load_eq hne hparse) hsection hrun,
    runScript_append hload hsaveSection hstart]
  obtain ⟨actions, err, hactions⟩ := runCommands_eq (commandsOf (scriptLines more))
  rw [hactions, hactions]
  have hnow : r.Continues σ (-((GameEngine.new board).play calls).arbiter.motionCounter)
      (-((GameEngine.new board).play calls).scoreboard.scores) r.output
      { controller := some { engine := GameEngine.new saved } } := by
    refine ⟨?_, (List.append_nil _).symm⟩
    rw [hc]
    exact Option.Rel.some ⟨hengine ▸ halike, hselected.symm⟩
  exact ⟨(hnow.foldl_act hσ actions).output, rfl⟩

/-- A rook is moved, and then takes the king. -/
theorem resumed_runScript_rook :
    ∃ c, (ScriptRunner.runScript
          "Board:\nwR . bK\nCommands:\nclick 50 50\nclick 150 50\nwait 1000").1.controller = some c ∧
      (ScriptRunner.runScript ("Board:\nwR . bK\nCommands:\nclick 50 50\nclick 150 50\nwait 1000" ++
          "\n" ++ "print board\nclick 150 50\nclick 250 50\nwait 1000\nprint board")).1.output =
        [] ++ (ScriptRunner.runScript (ScriptRunner.saveScript c.engine.board ++ "\n" ++
          "print board\nclick 150 50\nclick 250 50\nwait 1000\nprint board")).1.output := by
  have hsome : (ScriptRunner.runScript
      "Board:\nwR . bK\nCommands:\nclick 50 50\nclick 150 50\nwait 1000").1.controller.isSome = true := by
    decide +kernel
  obtain ⟨c, hc⟩ := Option.isSome_iff_exists.mp hsome
  have hread : ∀ {α : Type} (f : Controller → α), (ScriptRunner.runScript
      "Board:\nwR . bK\nCommands:\nclick 50 50\nclick 150 50\nwait 1000").1.controller.map f =
        some (f c) := fun f => by rw [hc]; rfl
  refine ⟨c, hc, ?_⟩
  -- the rook has landed, and nothing else moves
  have hsave : Saveable c.engine := by
    refine ⟨?_, ?_, fun p ref href => ?_⟩
    · exact Option.some.inj ((hread fun c => c.engine.gameOver).symm.trans (by decide +kernel))
    · exact Option.some.inj
        ((hread fun c => c.engine.arbiter.activeMotions).symm.trans (by decide +kernel))
    · have hentries : (c.engine.board.grid.entries.all fun entry =>
          decide ((c.engine.piece entry.2).status = .idle)) = true :=
        Option.some.inj ((hread fun c => c.engine.board.grid.entries.all fun entry =>
          decide ((c.engine.piece entry.2).status = .idle)).symm.trans (by decide +kernel))
      exact of_decide_eq_true (List.all_eq_true.mp hentries _ (Dict.mem_entries_iff.mpr href))
  exact (resumed_runScript (Prod.ext rfl (by decide +kernel)) hc (by decide +kernel) hsave
    (Option.some.inj ((hread fun c => c.selected).symm.trans (by decide +kernel))) _).1

end KungFuChess
