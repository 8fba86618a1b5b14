import KungFuChess.Engine.BoardPrinter

/-!
# The grammar of board texts

What `BoardParser.parse_initial_board` accepts, said without splitting or slicing: a token is a
dot, a pair of letters, or a colour letter and a type letter between underscores. A text of
ASCII lines is accepted if its lines have the width of the first and their tokens are of the
grammar; each square of the board then holds what its token says. Otherwise the error names the
first defect in reading order, where the width of a line comes before its tokens
(`parseInitialBoard_grammar`).

The text has to be ASCII because `str.lower` maps the Kelvin sign to the letter of the king.
-/

namespace KungFuChess

open BoardParser

/-! ### The grammar -/

namespace BoardGrammar

/-- The letter of a colour. -/
def colorLetter : Color → Char
  | .w => 'w'
  | .b => 'b'

/-- The letter of a kind of piece. -/
def typeLetter : PieceType → Char
  | .k => 'k'
  | .q => 'q'
  | .r => 'r'
  | .b => 'b'
  | .n => 'n'
  | .p => 'p'

/-- The letter, small or capital. -/
def InAnyCase (letter c : Char) : Prop := c = letter ∨ c = letter.toUpper

/-- The tokens of a piece. The colour of the underscore form is a small letter, and what follows
its second field is free. -/
inductive PieceToken (color : Color) (pieceType : PieceType) : List Char → Prop
  | pair {c d : Char} (hcolor : InAnyCase (colorLetter color) c)
      (htype : InAnyCase (typeLetter pieceType) d) : PieceToken color pieceType [c, d]
  | fields {d : Char} {rest : List Char} (htype : InAnyCase (typeLetter pieceType) d)
      (hrest : rest = [] ∨ ∃ more, rest = '_' :: more) :
      PieceToken color pieceType (colorLetter color :: '_' :: d :: rest)

/-- A dot names no piece. -/
theorem PieceToken.ne_dot {color : Color} {pieceType : PieceType} {token : List Char}
    (h : PieceToken color pieceType token) : token ≠ ['.'] := by
  cases h with
  | pair hcolor htype => simp
  | fields htype hrest => simp

/-- The tokens of the grammar. -/
inductive Token : List Char → Prop
  | dot : Token ['.']
  | piece {color : Color} {pieceType : PieceType} {token : List Char}
      (h : PieceToken color pieceType token) : Token token

/-- The number of tokens of the first line. -/
def columns : List String → Nat
  | [] => 0
  | first :: _ => (tokens first).length

/-- A line of the right width with tokens of the grammar. -/
structure GoodLine (cols : Nat) (line : String) : Prop where
  width : (tokens line).length = cols
  token : ∀ token ∈ tokens line, Token token

/-- The error of the first defect, from the first line to the last. -/
inductive FirstDefect (cols : Nat) : List String → ChessValidationError → Prop
  | width {line : String} {rest : List String} (hwidth : (tokens line).length ≠ cols) :
      FirstDefect cols (line :: rest) .rowWidthMismatch
  | token {line : String} {rest : List String} {token : List Char}
      (hwidth : (tokens line).length = cols) (hmem : token ∈ tokens line)
      (htoken : ¬ Token token) : FirstDefect cols (line :: rest) .unknownToken
  | later {line : String} {rest : List String} {err : ChessValidationError}
      (hline : GoodLine cols line) (hrest : FirstDefect cols rest err) :
      FirstDefect cols (line :: rest) err

/-- The board is of the size of the text and each square holds what its token says. -/
structure Placed (lines : List String) (board : Board) : Prop where
  rows : board.numRows = lines.length
  cols : board.numCols = columns lines
  empty : ∀ (i : Nat) line, lines[i]? = some line → ∀ (j : Nat) token, (tokens line)[j]? = some token →
    (board.pieceAt ⟨i, j⟩ = none ↔ token = ['.'])
  piece : ∀ (i : Nat) line, lines[i]? = some line → ∀ (j : Nat) token, (tokens line)[j]? = some token →
    ∀ color pieceType, PieceToken color pieceType token ↔
      ∃ piece, board.pieceAt ⟨i, j⟩ = some piece ∧ piece.color = color ∧
        piece.pieceType = pieceType ∧ piece.status = .idle
  nothingElse : ∀ p : Position, board.pieceAt p ≠ none →
    0 ≤ p.row ∧ p.row < lines.length ∧ 0 ≤ p.col ∧ p.col < columns lines

end BoardGrammar

open BoardGrammar

/-! ### Letters and tokens -/

/-- Every character is an ASCII character. -/
def Ascii (text : List Char) : Prop := ∀ c ∈ text, c.toNat < 128

section Token

variable {token first : List Char} {color : Color} {pieceType : PieceType} {piece : Piece}

theorem ascii_of_mem_tokens {line : String} (h : Ascii line.toList) (hmem : token ∈ tokens line) :
    Ascii token := by
  have hsplit : token ∈ line.toList.splitOnP isSpace := (List.mem_filter.mp hmem).1
  exact fun c hc => h c (Words.mem_of_mem_splitOnP hsplit hc)

/-- There are 128 characters to look at. -/
theorem of_forall_ascii {P : Char → Prop} (h : ∀ n < 128, P (Char.ofNat n)) {c : Char}
    (hc : c.toNat < 128) : P c := by
  have hchar := h c.toNat hc
  rwa [Char.ofNat_toNat] at hchar

/-- An ASCII character is a small letter after `lower` if it is that letter in any case. -/
theorem lowerChar_eq_iff {c : Char} (hc : c.toNat < 128) :
    (∀ color, lowerChar c = colorLetter color ↔ InAnyCase (colorLetter color) c) ∧
      ∀ pieceType, lowerChar c = typeLetter pieceType ↔ InAnyCase (typeLetter pieceType) c := by
  unfold InAnyCase
  refine ⟨fun color => ?_, fun pieceType => ?_⟩
  · refine of_forall_ascii (P := fun c => lowerChar c = colorLetter color ↔
      c = colorLetter color ∨ c = (colorLetter color).toUpper) ?_ hc
    cases color <;> decide
  · refine of_forall_ascii (P := fun c => lowerChar c = typeLetter pieceType ↔
      c = typeLetter pieceType ∨ c = (typeLetter pieceType).toUpper) ?_ hc
    cases pieceType <;> decide

/-- A colour field is one lower case letter. -/
theorem parseColor_eq_some : parseColor first = some color ↔ first = [colorLetter color] := by
  constructor
  · intro h
    unfold parseColor at h
    split at h
    case h_3 => exact absurd h (by simp)
    all_goals
      rw [← Option.some.inj h]
      rfl
  · rintro rfl
    cases color <;> rfl

/-- So is a type field. -/
theorem parseType_eq_some : parseType first = some pieceType ↔ first = [typeLetter pieceType] := by
  constructor
  · intro h
    unfold parseType at h
    split at h
    case h_7 => exact absurd h (by simp)
    all_goals
      rw [← Option.some.inj h]
      rfl
  · rintro rfl
    cases pieceType <;> rfl

theorem lower_eq_singleton {letter : Char} :
    lower first = [letter] ↔ ∃ c, first = [c] ∧ lowerChar c = letter := by
  unfold lower
  rw [List.map_eq_singleton_iff]

/-- No letter is an underscore. -/
theorem underscore_notMem_pair {c d : Char} (hcolor : InAnyCase (colorLetter color) c)
    (htype : InAnyCase (typeLetter pieceType) d) : '_' ∉ [c, d] := by
  have hc : c ≠ '_' := by
    rintro rfl
    revert hcolor
    cases color <;> simp [InAnyCase, colorLetter]
  have hd : d ≠ '_' := by
    rintro rfl
    revert htype
    cases pieceType <;> simp [InAnyCase, typeLetter]
  simp [hc.symm, hd.symm]

/-- A token with an underscore has a second field. -/
theorem exists_two_fields (h : '_' ∈ token) :
    ∃ first second more, token.splitOn '_' = first :: second :: more := by
  obtain ⟨first, rest, hsplit⟩ : ∃ first rest, token.splitOn '_' = first :: rest :=
    List.exists_cons_of_ne_nil (List.splitOnP_ne_nil _ token)
  obtain ⟨hfirst, ⟨rfl, -⟩ | ⟨tail, rfl, rfl⟩⟩ := Words.splitOn_eq_cons_iff.mp hsplit
  · exact absurd h hfirst
  · obtain ⟨second, more, htail⟩ := List.exists_cons_of_ne_nil (List.splitOnP_ne_nil (· == '_') tail)
    exact ⟨first, second, more, hsplit.trans (congrArg (first :: ·) htail)⟩

/-- The first two fields of the underscore form are cut out one after the other. -/
theorem splitOn_fields (color : Color) {d : Char} {rest : List Char}
    (htype : InAnyCase (typeLetter pieceType) d) (hrest : rest = [] ∨ ∃ more, rest = '_' :: more) :
    ∃ more, (colorLetter color :: '_' :: d :: rest).splitOn '_' =
      [colorLetter color] :: [d] :: more := by
  have hfirst : '_' ∉ [colorLetter color] := by
    cases color <;> simp [colorLetter]
  have hsecond : '_' ∉ [d] := fun hmem => by
    have hw : InAnyCase (colorLetter .w) 'w' := .inl rfl
    exact underscore_notMem_pair hw htype (List.mem_cons_of_mem _ hmem)
  -- the second field ends the token, or another underscore follows it
  obtain ⟨more, htail⟩ : ∃ more, (d :: rest).splitOn '_' = [d] :: more := by
    obtain rfl | ⟨tail, rfl⟩ := hrest
    · exact ⟨_, Words.splitOn_eq_cons_iff.mpr ⟨hsecond, .inl ⟨rfl, rfl⟩⟩⟩
    · exact ⟨_, Words.splitOn_eq_cons_iff.mpr ⟨hsecond, .inr ⟨tail, rfl, rfl⟩⟩⟩
  refine ⟨more, ?_⟩
  rw [← htail]
  exact Words.splitOn_eq_cons_iff.mpr ⟨hfirst, .inr ⟨d :: rest, rfl, rfl⟩⟩

/-- What a token is whose first two fields are a colour letter and a type letter in any case. -/
theorem pieceToken_of_splitOn (h : Ascii token) {second : List Char} {more : List (List Char)}
    (hsplit : token.splitOn '_' = [colorLetter color] :: second :: more)
    (hlower : lower second = [typeLetter pieceType]) : PieceToken color pieceType token := by
  obtain ⟨d, rfl, hd⟩ := lower_eq_singleton.mp hlower
  obtain ⟨-, ⟨-, hnil⟩ | ⟨tail, rfl, hrest⟩⟩ := Words.splitOn_eq_cons_iff.mp hsplit
  · exact absurd hnil (by simp)
  -- what follows the second field starts at an underscore
  obtain ⟨-, hend⟩ := Words.splitOn_eq_cons_iff.mp hrest.symm
  have hd' : InAnyCase (typeLetter pieceType) d := by
    refine ((lowerChar_eq_iff (h d ?_)).2 _).mp hd
    obtain ⟨rfl, -⟩ | ⟨more, rfl, -⟩ := hend <;> simp
  obtain ⟨rfl, -⟩ | ⟨more, rfl, -⟩ := hend
  · exact .fields hd' (.inl rfl)
  · exact .fields hd' (.inr ⟨more, rfl⟩)

/-- The fields of a token are a colour letter and a type letter if the grammar says so. -/
theorem tokenFields_eq_ok (h : Ascii token) :
    tokenFields token = .ok ([colorLetter color], [typeLetter pieceType]) ↔
      PieceToken color pieceType token := by
  constructor
  · intro hfields
    -- the underscore form is split, the pair is cut after its first character
    unfold tokenFields at hfields
    split at hfields
    · next hunderscore =>
      obtain ⟨first, second, more, hsplit⟩ := exists_two_fields hunderscore
      rw [hsplit] at hfields
      obtain ⟨rfl, hlower⟩ := Prod.mk.inj (Except.ok.inj hfields)
      exact pieceToken_of_splitOn h hsplit hlower
    · -- the pair: the type field is all that follows the first character
      split at hfields
      · next c d rest _ =>
        obtain ⟨hcolor, htype⟩ := Prod.mk.inj (Except.ok.inj hfields)
        obtain ⟨d', hd', hlower⟩ := lower_eq_singleton.mp htype
        obtain ⟨rfl, rfl⟩ := List.cons.inj hd'
        refine .pair (((lowerChar_eq_iff (h c (by simp))).1 _).mp (List.cons.inj hcolor).1)
          (((lowerChar_eq_iff (h d (by simp))).2 _).mp hlower)
      · exact absurd hfields (by simp)
  · intro htoken
    cases htoken with
    -- written back, the pair is lowered as a whole
    | @pair c d hcolor htype =>
      have hc := ((lowerChar_eq_iff (h c (by simp))).1 _).mpr hcolor
      have hd := ((lowerChar_eq_iff (h d (by simp))).2 _).mpr htype
      unfold tokenFields
      rw [if_neg (underscore_notMem_pair hcolor htype)]
      simp only [lower, List.map_cons, List.map_nil, hc, hd]
    -- and the fields one after the other
    | @fields d rest htype hrest =>
      have hd := ((lowerChar_eq_iff (h d (by simp))).2 _).mpr htype
      obtain ⟨more, hsplit⟩ := splitOn_fields color htype hrest
      unfold tokenFields
      rw [if_pos (by simp), hsplit]
      simp only [lower, List.map_cons, List.map_nil, hd]

/-- A token that is parsed has the fields of the piece, and is its identifier. -/
theorem parsePiece_eq_ok : parsePiece token = .ok piece ↔
    tokenFields token = .ok ([colorLetter piece.color], [typeLetter piece.pieceType]) ∧
      piece =
        { pieceId := String.ofList token, color := piece.color, pieceType := piece.pieceType } := by
  unfold parsePiece
  constructor
  · -- each of the two fields is the letter of what it is parsed to
    intro h
    split at h
    · exact absurd h (by simp)
    next fields hfields =>
    split at h
    · next hcolor htype =>
      obtain rfl := Except.ok.inj h
      rw [hfields, parseColor_eq_some.mp hcolor, parseType_eq_some.mp htype]
      exact ⟨rfl, rfl⟩
    · exact absurd h (by simp)
  · rintro ⟨hfields, hpiece⟩
    rw [hfields]
    dsimp only
    rw [parseColor_eq_some.mpr rfl, parseType_eq_some.mpr rfl]
    exact congrArg Except.ok hpiece.symm

/-- What is read as a piece is of the grammar. -/
theorem pieceToken_of_readToken (h : Ascii token) (hread : readToken token = .ok (some piece)) :
    PieceToken piece.color piece.pieceType token := by
  unfold readToken at hread
  split at hread
  · exact absurd (Except.ok.inj hread) (by simp)
  · cases hparse : parsePiece token with
    | error err =>
      rw [hparse] at hread
      exact absurd hread (by simp [Except.map])
    | ok piece' =>
      rw [hparse] at hread
      obtain rfl := Option.some.inj (Except.ok.inj hread)
      exact (tokenFields_eq_ok h).mp (parsePiece_eq_ok.mp hparse).1

/-- A token is read as a piece of that colour and type if the grammar says so. -/
theorem readToken_piece (h : Ascii token) : PieceToken color pieceType token ↔
    ∃ piece, readToken token = .ok (some piece) ∧ piece.color = color ∧
      piece.pieceType = pieceType ∧ piece.status = .idle := by
  constructor
  · intro htoken
    have hparse : parsePiece token =
        .ok { pieceId := String.ofList token, color := color, pieceType := pieceType } :=
      parsePiece_eq_ok.mpr ⟨(tokenFields_eq_ok h).mpr htoken, rfl⟩
    have hread : readToken token =
        .ok (some { pieceId := String.ofList token, color := color, pieceType := pieceType }) := by
      rw [readToken, if_neg htoken.ne_dot, hparse]
      rfl
    exact ⟨_, hread, rfl, rfl, rfl⟩
  · rintro ⟨piece, hread, rfl, rfl, -⟩
    exact pieceToken_of_readToken h hread

/-- A dot leaves its square empty, and nothing else does. -/
theorem readToken_dot : readToken token = .ok none ↔ token = ['.'] := by
  unfold readToken
  split
  · next hdot => exact ⟨fun _ => hdot, fun _ => rfl⟩
  · next hdot =>
    refine ⟨fun hread => ?_, fun heq => absurd heq hdot⟩
    cases hparse : parsePiece token with
    | error err =>
      rw [hparse] at hread
      exact absurd hread (by simp [Except.map])
    | ok piece =>
      rw [hparse] at hread
      exact absurd (Except.ok.inj hread) (by simp)

/-- The readable tokens are those of the grammar. -/
theorem readable_iff (h : Ascii token) : (∃ square, readToken token = .ok square) ↔ Token token := by
  constructor
  · rintro ⟨square, hread⟩
    cases square with
    | none =>
      obtain rfl := readToken_dot.mp hread
      exact .dot
    | some piece => exact .piece (pieceToken_of_readToken h hread)
  · intro htoken
    cases htoken with
    | dot => exact ⟨none, readToken_dot.mpr rfl⟩
    | piece hpiece =>
      obtain ⟨piece, hread, -⟩ := (readToken_piece h).mp hpiece
      exact ⟨some piece, hread⟩

end Token

/-! ### The parser -/

section Parse

variable {cols : Nat} {lines : List String} {board : Board} {err : ChessValidationError}

/-- There is one error a token can raise. -/
theorem parsePiece_error {token : List Char} (h : parsePiece token = .error err) :
    err = .unknownToken := by
  have hfields : ∀ err', tokenFields token = .error err' → err' = .unknownToken := by
    intro err' h'
    -- the pair and the underscore form fail alike
    unfold tokenFields at h'
    split at h' <;> split at h'
    · exact absurd h' (by simp)
    · exact (Except.error.inj h').symm
    · exact absurd h' (by simp)
    · exact (Except.error.inj h').symm
  unfold parsePiece at h
  split at h
  · next err' herr =>
    obtain rfl := Except.error.inj h
    exact hfields _ herr
  · split at h
    · exact absurd h (by simp)
    · exact (Except.error.inj h).symm

/-- An accepted row has readable tokens. -/
theorem readable_of_parseRow {row : Int} {toks : List (List Char)} {col : Int} {board' : Board}
    (h : parseRow row col toks board = .ok board') :
    ∀ token ∈ toks, ∃ square, readToken token = .ok square := by
  induction toks generalizing col board with
  | nil => exact fun _ hmem => absurd hmem List.not_mem_nil
  -- by induction on the tokens; a dot is readable, a piece has been parsed
  | cons token toks ih =>
    unfold parseRow at h
    intro token' hmem
    split at h
    · next hdot =>
      obtain rfl | hmem := List.mem_cons.mp hmem
      · exact ⟨none, readToken_dot.mpr hdot⟩
      · exact ih h token' hmem
    next hdot =>
    split at h
    · exact absurd h (by simp)
    · next piece hparse =>
      obtain rfl | hmem := List.mem_cons.mp hmem
      · refine ⟨some piece, ?_⟩
        rw [readToken, if_neg hdot, hparse]
        rfl
      · exact ih h token' hmem

/-- The only error of a row is that of a token. -/
theorem parseRow_error {row : Int} {toks : List (List Char)} {col : Int}
    (h : parseRow row col toks board = .error err) :
    err = .unknownToken ∧ ∃ token ∈ toks, ¬ ∃ square, readToken token = .ok square := by
  -- the token that raised is the bad one, or it comes later in the row
  induction toks generalizing col board with
  | nil => exact absurd h (by simp [parseRow])
  | cons token toks ih =>
    unfold parseRow at h
    split at h
    · obtain ⟨herr, bad, hbad⟩ := ih h
      exact ⟨herr, bad, List.mem_cons_of_mem token hbad.1, hbad.2⟩
    next hdot =>
    split at h
    · next err' hparse =>
      obtain rfl := Except.error.inj h
      refine ⟨parsePiece_error hparse, token, List.mem_cons_self, ?_⟩
      rintro ⟨square, hread⟩
      rw [readToken, if_neg hdot, hparse] at hread
      exact absurd hread (by simp [Except.map])
    · obtain ⟨herr, bad, hbad⟩ := ih h
      exact ⟨herr, bad, List.mem_cons_of_mem token hbad.1, hbad.2⟩

/-- An error of the rows is that of their first defect. -/
theorem firstDefect_of_parseRows {row : Int} (hascii : ∀ line ∈ lines, Ascii line.toList)
    (h : parseRows cols row lines board = .error err) : FirstDefect cols lines err := by
  induction lines generalizing row board with
  | nil => exact absurd h (by simp [parseRows])
  | cons line lines ih =>
    have hline := hascii line List.mem_cons_self
    unfold parseRows at h
    split at h
    · next hwidth =>
      obtain rfl := Except.error.inj h
      exact .width hwidth
    next hwidth =>
    split at h
    · next err' hrow =>
      -- the row has the right width, so a token of it is the first defect
      obtain rfl := Except.error.inj h
      obtain ⟨rfl, token, hmem, hbad⟩ := parseRow_error hrow
      refine .token (not_not.mp hwidth) hmem fun htoken => hbad ?_
      exact (readable_iff (ascii_of_mem_tokens hline hmem)).mpr htoken
    · next middle hrow =>
      -- the row is good, and the defect is further down
      have hgood : GoodLine cols line := by
        refine ⟨not_not.mp hwidth, fun token hmem => ?_⟩
        exact (readable_iff (ascii_of_mem_tokens hline hmem)).mp (readable_of_parseRow hrow token hmem)
      exact .later hgood (ih (fun l hl => hascii l (List.mem_cons_of_mem line hl)) h)

/-- A text has one first defect at most, and none if its lines are good. -/
theorem BoardGrammar.FirstDefect.not_good (h : FirstDefect cols lines err) :
    ¬ ∀ line ∈ lines, GoodLine cols line := by
  intro hgood
  induction h with
  | width hwidth => exact hwidth (hgood _ List.mem_cons_self).width
  | token hwidth hmem htoken => exact htoken ((hgood _ List.mem_cons_self).token _ hmem)
  | later hline hrest ih => exact ih fun l hl => hgood l (List.mem_cons_of_mem _ hl)

/-- The first defect decides the error. -/
theorem BoardGrammar.FirstDefect.unique {err' : ChessValidationError} (h : FirstDefect cols lines err)
    (h' : FirstDefect cols lines err') : err = err' := by
  -- by induction on the lines; in each the width is looked at before the tokens
  induction h with
  | width hwidth =>
    cases h' with
    | width _ => rfl
    | token hwidth' _ _ => exact absurd hwidth' hwidth
    | later hline _ => exact absurd hline.width hwidth
  | token hwidth hmem htoken =>
    cases h' with
    | width hwidth' => exact absurd hwidth hwidth'
    | token _ _ _ => rfl
    | later hline _ => exact absurd (hline.token _ hmem) htoken
  | later hline hrest ih =>
    cases h' with
    | width hwidth' => exact absurd hline.width hwidth'
    | token _ hmem htoken => exact absurd (hline.token _ hmem) htoken
    | later _ hrest' => exact ih hrest'

/-- A rejected text has a first defect. -/
theorem firstDefect_of_parse (hascii : ∀ line ∈ lines, Ascii line.toList)
    (h : parseInitialBoard lines = .error err) : FirstDefect (columns lines) lines err := by
  cases lines with
  | nil => exact absurd h (by simp [parseInitialBoard])
  | cons first rest => exact firstDefect_of_parseRows hascii h

/-- The parser accepts the texts of good lines. -/
theorem parse_ok_iff (hascii : ∀ line ∈ lines, Ascii line.toList) :
    (∃ board, parseInitialBoard lines = .ok board) ↔
      ∀ line ∈ lines, GoodLine (columns lines) line := by
  constructor
  · -- every token has been read, hence is of the grammar
    rintro ⟨board, hparse⟩ line hline
    have hreads := Reads.of_parseInitialBoard hparse
    have hcolumns : ∀ l ∈ lines, (tokens l).length = columns lines := fun l hl => by
      obtain ⟨first, rest, rfl⟩ := List.exists_cons_of_ne_nil (List.ne_nil_of_mem hl)
      rw [hreads.width l hl, ← hreads.width first List.mem_cons_self]
      rfl
    refine ⟨hcolumns line hline, fun token hmem => ?_⟩
    obtain ⟨i, hi, rfl⟩ := List.getElem_of_mem hline
    obtain ⟨j, hj, rfl⟩ := List.getElem_of_mem hmem
    have hread := hreads.reads i _ (List.getElem?_eq_getElem hi) j _ (List.getElem?_eq_getElem hj)
    exact (readable_iff (ascii_of_mem_tokens (hascii _ hline) hmem)).mp ⟨_, hread⟩
  · -- the other way round each line has the width and readable tokens
    intro hgood
    refine parseInitialBoard_ok (fun line hline => (hgood line hline).width)
      fun line hline token hmem => ?_
    have htoken := ascii_of_mem_tokens (hascii line hline) hmem
    exact (readable_iff htoken).mpr ((hgood line hline).token token hmem)

/-- An accepted board says what the grammar says of its tokens. -/
theorem placed_of_parse (hascii : ∀ line ∈ lines, Ascii line.toList)
    (hparse : parseInitialBoard lines = .ok board) : Placed lines board := by
  -- the board is read off the tokens, and these off the grammar
  have hreads := Reads.of_parseInitialBoard hparse
  have hcols : board.numCols = columns lines := by
    cases lines with
    | nil =>
      rw [← Except.ok.inj hparse]
      rfl
    | cons first rest => exact (hreads.width first List.mem_cons_self).symm
  refine ⟨hreads.rows, hcols, fun i line hline j token htoken => ?_,
    fun i line hline j token htoken color pieceType => ?_, fun p hp => ?_⟩
  · have hread := hreads.reads i line hline j token htoken
    rw [← readToken_dot, hread, Except.ok.injEq]
  · have hread := hreads.reads i line hline j token htoken
    have hascii' : Ascii token := ascii_of_mem_tokens (hascii line (List.mem_of_getElem? hline))
      (List.mem_of_getElem? htoken)
    rw [readToken_piece hascii']
    simp only [hread, Except.ok.injEq]
  · rw [← hcols, ← hreads.rows]
    exact hreads.nothingElse p hp

/-- **The parser accepts its grammar and places every token**; an error is that of the first
defect, and no token with an underscore lacks a second field. -/
theorem parseInitialBoard_grammar (hascii : ∀ line ∈ lines, Ascii line.toList) :
    ((∃ board, parseInitialBoard lines = .ok board) ↔
        ∀ line ∈ lines, GoodLine (columns lines) line) ∧
      (∀ board, parseInitialBoard lines = .ok board → Placed lines board) ∧
      (∀ err, parseInitialBoard lines = .error err ↔ FirstDefect (columns lines) lines err) ∧
      ∀ line ∈ lines, ∀ token ∈ tokens line, '_' ∈ token → 2 ≤ (token.splitOn '_').length := by
  refine ⟨parse_ok_iff hascii, fun board => placed_of_parse hascii, fun err => ?_, ?_⟩
  · -- a text with a defect is not accepted, and its error is that of the first one
    refine ⟨firstDefect_of_parse hascii, fun hdefect => ?_⟩
    cases hparse : parseInitialBoard lines with
    | ok board => exact absurd ((parse_ok_iff hascii).mp ⟨board, hparse⟩) hdefect.not_good
    | error err' => rw [(firstDefect_of_parse hascii hparse).unique hdefect]
  · -- a token with an underscore has two fields, so no index is out of range
    intro line _ token _ hunderscore
    obtain ⟨first, second, more, hsplit⟩ := exists_two_fields hunderscore
    rw [hsplit, List.length_cons, List.length_cons]
    omega

end Parse

/-- A capital colour letter is of the pair form only. -/
theorem parseInitialBoard_grammar_capital :
    (∃ board, parseInitialBoard ["Wk b_Q_2"] = .ok board ∧ Placed ["Wk b_Q_2"] board) ∧
      FirstDefect 2 ["wK b_q_2", ". W_k"] .unknownToken := by
  have hgood := @parseInitialBoard_grammar ["Wk b_Q_2"] (by simp [Ascii])
  have hbad := @parseInitialBoard_grammar ["wK b_q_2", ". W_k"] (by simp [Ascii])
  have hparse : parseInitialBoard ["Wk b_Q_2"] = .ok (boardOf ["Wk b_Q_2"]) :=
    parseInitialBoard_eq_boardOf (by decide)
  exact ⟨⟨_, hparse, hgood.2.1 _ hparse⟩, (hbad.2.2.1 _).mp rfl⟩

end KungFuChess
