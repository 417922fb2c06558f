import Rollback.Proofs.Sql.Recognized

/-!
# Written comments

The statements that set comments are recognized as what they are meant to be, with the comment as it
was written, whatever its text is.

- `Written`: the texts of comments that stand between quotes
- `reads_commentText`: a comment in single quotes is read up to the quote that ends it
- `ofChars_tableComment`: the comment on a table
- `ofChars_columnComment`: the comment on a column, whose path is cut at its last dot
-/

set_option autoImplicit false

namespace Rollback

open Pattern

namespace Sql

variable {l : Option Char} {m : List (Operand × Span)}

/-! ## Comments in quotes -/

/-- The text of a comment as the pattern reads it: a quote is doubled or has a backslash before it,
and a backslash has some character after it. -/
inductive Written : List Char → Prop where
  | nil : Written []
  | plain {c : Char} {rest : List Char} (notQuote : c ≠ '\x27') (notBackslash : c ≠ '\\')
      (more : Written rest) : Written (c :: rest)
  | doubled {rest : List Char} (more : Written rest) : Written ('\x27' :: '\x27' :: rest)
  | escaped {c : Char} {rest : List Char} (more : Written rest) : Written ('\\' :: c :: rest)

/-- A comment that can be stored can be written between quotes. -/
theorem CommentText.written {x : List Char} (h : CommentText x) : Written x := by
  induction h with
  | nil => exact .nil
  | plain notQuote notBackslash _ ih => exact .plain notQuote notBackslash ih
  | doubled _ ih => exact .doubled ih
  | escaped _ _ ih => exact .escaped ih
  | @backslash c rest notQuote _ ih =>
    exact .escaped ih

/-- One turn of the text of a comment: a plain character, a doubled quote or an
escaped character. -/
def commentTurn : Phrase :=
  firstOf [char (.except (.oneOf ['\x27', '\\'])), literally '\x27' ++ literally '\x27',
    literally '\\' ++ char .any]

/-- A comment is read turn by turn, up to the quote before a semicolon. -/
theorem turns_comment {x : List Char} (h : Written x) :
    ∀ l : Option Char, Turns commentTurn ⟨l, x ++ ['\x27', ';'], m⟩
      ⟨lastAfter l x, ['\x27', ';'], m⟩ := by
  -- Each piece of such a text is one turn; its first character tells which alternative reads it.
  induction h with
  | nil => exact fun l => .stop rfl
  | @plain c rest notQuote notBackslash _ ih =>
    intro l
    have inside : (CharSet.except (.oneOf ['\x27', '\\'])).contains c = true := by
      simp [CharSet.contains, notQuote, notBackslash]
    rw [lastAfter_cons]
    exact .turn (reads_char inside).left (by simp) (ih _)
  | @doubled rest _ ih =>
    intro l
    rw [lastAfter_cons, lastAfter_cons]
    refine .turn (t := ⟨some '\x27', rest ++ ['\x27', ';'], m⟩) (.right rfl (Reads.left rfl)) ?_
      (ih _)
    simp only [List.cons_append, List.length_cons]
    omega
  | @escaped c rest _ ih =>
    intro l
    rw [lastAfter_cons, lastAfter_cons]
    refine .turn (t := ⟨some c, rest ++ ['\x27', ';'], m⟩) (.right rfl (.right rfl rfl)) ?_ (ih _)
    simp only [List.cons_append, List.length_cons]
    omega

/-- A written comment is read up to its quote and marked. -/
theorem reads_commentText {x : List Char} (h : Written x) :
    Reads commentText ⟨l, '\x27' :: (x ++ ['\x27', ';']), m⟩
      ⟨some '\x27', [';'], (.comment, ⟨x ++ ['\x27', ';'], ['\x27', ';']⟩) :: m⟩ := by
  have first : Reads (literally '\x27') ⟨l, '\x27' :: (x ++ ['\x27', ';']), m⟩
      ⟨some '\x27', x ++ ['\x27', ';'], m⟩ := reads_char rfl
  have body := (turns_comment (m := m) h (some '\x27')).reads.mark .comment
  exact Reads.left ((first.seq body).seq (reads_char rfl))

variable {p : Phrase} {s : Place Operand} {n : ObjectName} {column : String} {x : List Char}

/-- The end of a statement about a comment, from the word IS on. -/
def commentEnd (x : List Char) : List Char :=
  ' ' :: ("IS".toList ++ ' ' :: '\x27' :: (x ++ ['\x27', ';']))

/-- What all statements about comments end with is read after what comes before it. -/
theorem reads_isComment (h : Written x) (hp : Reads p s ⟨l, commentEnd x, m⟩) :
    Reads (p ++ gap ++ keyword "IS" ++ gap ++ commentText) s
      ⟨some '\x27', [';'], (.comment, ⟨x ++ ['\x27', ';'], ['\x27', ';']⟩) :: m⟩ :=
  (((hp.seq (reads_space rfl)).seq (reads_same_keyword "IS" _)).seq (reads_space rfl)).seq
    (reads_commentText h)

/-! ## Paths of columns -/

/-- The path of a column of a table. -/
def columnPathText (n : ObjectName) (column : String) : List Char :=
  n.render.toList ++ '.' :: column.toList

/-- The path of a column is read up to where no name goes on. -/
theorem reads_columnPath (h : BareObject n) (bare : BareName column) (rest : List Char)
    (stop : startsIn nameGoesOn rest = false) :
    Reads columnPath ⟨l, columnPathText n column ++ rest, m⟩
      ⟨lastAfter l (columnPathText n column), rest, m⟩ := by
  obtain ⟨ends, unquoted, noDot⟩ := ends_of_nameGoesOn stop
  have name := fun l => reads_identifier (l := l) (m := m) h.name ('.' :: (column.toList ++ rest))
    rfl rfl
  have last := reads_identifier (l := some '.') (m := m) bare rest ends unquoted
  obtain ⟨schema, table⟩ := n
  cases schema with
  | none =>
    rw [columnPathText, List.append_assoc, lastAfter_append, lastAfter_cons]
    exact (((name l).seq (reads_char rfl)).seq last).seq ((stuck_char noDot).seq_left _).orNothing
  | some schema =>
    rw [columnPathText, toList_render_some, List.append_assoc, List.append_assoc, lastAfter_append,
      lastAfter_cons]
    have first := reads_identifier (l := l) (m := m) (h.schema schema rfl)
      ('.' :: (table.toList ++ '.' :: (column.toList ++ rest))) rfl rfl
    exact ((first.seq (reads_char rfl)).seq (name (some '.'))).seq
      ((reads_char rfl).seq last).orNothing

end Sql

/-! ## Statements -/

theorem toList_tableComment (table comment : String) :
    (tableComment table comment).toList =
      [' '].intercalate (["COMMENT", "ON", "TABLE"].map String.toList) ++
        ' ' :: (table.toList ++ Sql.commentEnd comment.toList) := by
  unfold tableComment
  simp only [toString_string, String.toList_append, List.append_assoc]
  rfl

theorem toList_columnComment (n : ObjectName) (column comment : String) :
    (columnComment n.render column comment).toList =
      [' '].intercalate (["COMMENT", "ON", "COLUMN"].map String.toList) ++
        ' ' :: (Sql.columnPathText n column ++ Sql.commentEnd comment.toList) := by
  unfold columnComment
  simp only [toString_string, String.toList_append, List.append_assoc]
  rw [Sql.columnPathText, List.append_assoc]
  rfl

namespace Sql

variable {n : ObjectName} {column comment : String}

/-- The end of a statement about a comment without its semicolon. -/
def commentEndBody (x : List Char) : List Char :=
  ' ' :: ("IS".toList ++ ' ' :: ('\x27' :: x ++ ['\x27']))

theorem commentEnd_eq (x : List Char) : commentEnd x = commentEndBody x ++ [';'] := by
  simp only [commentEnd, commentEndBody, List.cons_append, List.append_assoc, List.nil_append]

theorem isBody_commentEndBody (h : CommentText comment.toList) :
    IsBody (commentEndBody comment.toList) :=
  (isBody_of_isQuiet (s := " IS ".toList) rfl (by decide)).append (isBody_literal h)

end Sql

namespace Statement

open Sql

variable {n : ObjectName} {column comment : String}

/-- The statement of a comment on a table. -/
def tableCommentPassage (h : PlainObject n) (text : CommentText comment.toList) : Passage where
  spacing := []
  body := [' '].intercalate (["COMMENT", "ON", "TABLE"].map String.toList) ++
    ' ' :: (n.render.toList ++ commentEndBody comment.toList)
  isSpacing := .nil
  isBody := by
    have words : IsBody
        ([' '].intercalate (["COMMENT", "ON", "TABLE"].map String.toList) ++ [' ']) :=
      isBody_of_isQuiet rfl (by decide)
    have body := words.append ((isBody_render h).append (isBody_commentEndBody text))
    rwa [List.append_assoc] at body
  nonempty := List.cons_ne_nil _ _
  first := by
    intro c hc
    obtain rfl := Option.some.inj hc
    decide

theorem statement_tableCommentPassage (h : PlainObject n) (text : CommentText comment.toList) :
    (tableCommentPassage h text).statement = (tableComment n.render comment).toList := by
  rw [toList_tableComment, commentEnd_eq, Passage.statement, tableCommentPassage]
  simp only [List.append_assoc, List.cons_append]

theorem trimmed_tableComment (table comment : String) :
    Text.Trimmed (tableComment table comment).toList := by
  rw [toList_tableComment, commentEnd_eq]
  exact Text.trimmed_of_ends (c := 'C') (d := ';') rfl (by simp [List.getLast?_cons]) (by decide)
    (by decide)

/-- No rule before those for comments accepts a statement that starts like one. -/
theorem rules_refuse_comment (rest : List Char) :
    ∀ rule ∈ rules.take 18, rule ("COMMENT ON ".toList ++ rest) = none := by
  simp only [rules, List.take_succ_cons, List.take_zero, List.forall_mem_cons]
  exact ⟨rfl, rfl, rfl, rfl, rfl, rfl, rfl, rfl, rfl, rfl, rfl, rfl, rfl, rfl, rfl, rfl, rfl, rfl,
    by simp⟩

/-- The phrase for comments on tables marks the name and the comment. -/
theorem match?_tableComment (h : BareObject n) (text : Written comment.toList) :
    ∃ m, commentOnTablePhrase.match? (tableComment n.render comment).toList = some m ∧
      m.text .object = n.render.toList ∧ m.text? .comment = some comment.toList := by
  have words := reads_keywords (ι := Operand) (l := none) (m := []) ["COMMENT", "ON", "TABLE"]
    (' ' :: (n.render.toList ++ commentEnd comment.toList)) rfl
  have object := fun l => reads_objectName (l := l) (m := []) h .object
    (commentEnd comment.toList) rfl
  have read := reads_isComment text
    ((words.seq (reads_space (h.startsIn_gap _))).seq (object _))
  rw [toList_tableComment]
  exact ⟨_, read.match?, Span.text_append _ _, congrArg some (Span.text_append _ _)⟩

/-- A written comment on a table is recognized with its text. -/
theorem ofChars_tableComment (h : BareObject n) (text : Written comment.toList) :
    ofChars (tableComment n.render comment).toList = .commentOnTable n (some comment) := by
  obtain ⟨m, read, object, written⟩ := match?_tableComment h text
  have rule : commentOnTable? (tableComment n.render comment).toList =
      some (.commentOnTable n (some comment)) := by
    rw [commentOnTable?, read]
    simp only [Option.bind_eq_bind, Option.bind_some, objectAt, commentAt?, object, written,
      ofChars_render h, Option.map_some, String.ofList_toList]
    rfl
  have before : ∀ rule ∈ rules.take 18, rule (tableComment n.render comment).toList = none := by
    rw [toList_tableComment]
    exact rules_refuse_comment _
  rw [ofChars, (trimmed_tableComment n.render comment).trim_eq, findSome?_rules_drop 18 before]
  simp only [rules, List.drop_succ_cons, List.drop_zero, List.findSome?_cons, rule]
  rfl

/-- The statement of a comment on a column. -/
def columnCommentPassage (h : PlainObject n) (plain : PlainName column)
    (text : CommentText comment.toList) : Passage where
  spacing := []
  body := [' '].intercalate (["COMMENT", "ON", "COLUMN"].map String.toList) ++
    ' ' :: (columnPathText n column ++ commentEndBody comment.toList)
  isSpacing := .nil
  isBody := by
    have words :
        IsBody ([' '].intercalate (["COMMENT", "ON", "COLUMN"].map String.toList) ++ [' ']) :=
      isBody_of_isQuiet rfl (by decide)
    have dot : IsBody ['.'] := isBody_of_isQuiet rfl (by decide)
    have path : IsBody (columnPathText n column) :=
      (isBody_render h).append (dot.append (isBody_of_word plain.word))
    have body := words.append (path.append (isBody_commentEndBody text))
    rwa [List.append_assoc] at body
  nonempty := List.cons_ne_nil _ _
  first := by
    intro c hc
    obtain rfl := Option.some.inj hc
    decide

theorem statement_columnCommentPassage (h : PlainObject n) (plain : PlainName column)
    (text : CommentText comment.toList) :
    (columnCommentPassage h plain text).statement =
      (columnComment n.render column comment).toList := by
  rw [toList_columnComment, commentEnd_eq, Passage.statement, columnCommentPassage]
  simp only [List.append_assoc, List.cons_append]

theorem trimmed_columnComment (n : ObjectName) (column comment : String) :
    Text.Trimmed (columnComment n.render column comment).toList := by
  rw [toList_columnComment, commentEnd_eq]
  exact Text.trimmed_of_ends (c := 'C') (d := ';') rfl (by simp [List.getLast?_cons]) (by decide)
    (by decide)

theorem match?_columnComment (h : BareObject n) (bare : BareName column)
    (text : Written comment.toList) :
    ∃ m, commentOnColumnPhrase.match? (columnComment n.render column comment).toList = some m ∧
      m.text .object = columnPathText n column ∧ m.text? .comment = some comment.toList := by
  have words := reads_keywords (ι := Operand) (l := none) (m := []) ["COMMENT", "ON", "COLUMN"]
    (' ' :: (columnPathText n column ++ commentEnd comment.toList)) rfl
  have solid : startsIn .gap (columnPathText n column ++ commentEnd comment.toList) = false := by
    rw [columnPathText, List.append_assoc]
    exact h.startsIn_gap _
  have path := fun l => (reads_columnPath (l := l) (m := []) h bare
    (commentEnd comment.toList) rfl).mark .object
  have read := reads_isComment text ((words.seq (reads_space solid)).seq (path _))
  rw [toList_columnComment]
  exact ⟨_, read.match?, Span.text_append _ _, congrArg some (Span.text_append _ _)⟩

/-- A written comment on a column is recognized with its table, its name and its text. -/
theorem ofChars_columnComment (h : BareObject n) (bare : BareName column)
    (text : Written comment.toList) :
    ofChars (columnComment n.render column comment).toList =
      .commentOnColumn n column (some comment) := by
  obtain ⟨m, read, object, written⟩ := match?_columnComment h bare text
  have cut : Text.cutAtLast '.' (columnPathText n column) =
      some (n.render.toList, column.toList) :=
    Text.cutAtLast_append (bare.notMem (by decide)) _
  have rule : commentOnColumn? (columnComment n.render column comment).toList =
      some (.commentOnColumn n column (some comment)) := by
    rw [commentOnColumn?, read]
    simp only [Option.bind_eq_bind, Option.bind_some, commentAt?, object, written, cut,
      ofChars_render h, bare.unquote_eq, Option.map_some, String.ofList_toList]
    rfl
  have before : ∀ rule ∈ rules.take 19,
      rule (columnComment n.render column comment).toList = none := by
    have split : rules.take 19 = rules.take 18 ++ [commentOnTable?] := rfl
    rw [toList_columnComment, split]
    intro rule mem
    rcases List.mem_append.1 mem with mem | mem
    · exact rules_refuse_comment _ rule mem
    · rw [List.mem_singleton.1 mem]
      rfl
  rw [ofChars, (trimmed_columnComment n column comment).trim_eq, findSome?_rules_drop 19 before]
  simp only [rules, List.drop_succ_cons, List.drop_zero, List.findSome?_cons, rule]
  rfl

end Statement

end Rollback
