import Rollback.Deployment.Batch
import Rollback.Proofs.Sql.CanonicalScripts

/-!
# Annotations of a rollback

An annotated rollback has the forward statement in a comment before each reversal. Whatever the
forward statements hold, each annotation is one comment, so it ends no statement and starts none.
With and without annotations a rollback has the same statements up to blanks, if no quote or comment
is open at the end of a reversal. They are the same texts if each reversal ends its statements, too:
where code is still open after a reversal, the line of the annotation becomes part of it.

- `Sql.solid_lexemes_intercalate`: what is not blank in scripts put together
- `isSingleComment_originalComment`: an annotation is one comment
- `statements_annotated`: annotations change no statement of a rollback
- `Sql.IsLexicallyClosed`, `statements_annotated_unendedView`: a closed text with open code before
  its last comment does not suffice
-/

set_option autoImplicit false

namespace Rollback

namespace Sql

/-! ## What is not blank in scripts -/

/-- After plain code a new line is read as one, and then a script from its start. -/
theorem lexemes_append_newline {a : List Char} (code : endMode a = .code) (b : List Char) :
    lexemes (a ++ '\n' :: b) = lexemes a ++ .code '\n' :: lexemes b := by
  have newline : lex .code ('\n' :: b) = (.code '\n' :: (lex .code b).1, (lex .code b).2) :=
    lex_code_cons rfl (fun eq => absurd eq (by decide)) fun eq => absurd eq (by decide)
  have all := lex_append (meetsPlainly_newline a b) .code
  rw [endMode] at code
  rw [code, newline] at all
  exact congrArg Prod.fst all

/-- A line break after closed code neither joins nor splits lexemes. -/
theorem solid_lexemes_append_newline {a : List Char} (code : endMode a = .code) (b : List Char) :
    solid (lexemes (a ++ '\n' :: b)) = solid (lexemes a) ++ solid (lexemes b) := by
  rw [lexemes_append_newline code, solid_append]
  rfl

/-- Of scripts put together with an empty line between them, all but the last have to end in plain
code to be read as they are read alone. -/
theorem solid_lexemes_intercalate {parts : List (List Char)}
    (code : ∀ part ∈ parts.dropLast, endMode part = .code) :
    solid (lexemes (['\n', '\n'].intercalate parts)) =
      parts.flatMap fun part => solid (lexemes part) := by
  induction parts with
  | nil => rfl
  | cons part rest ih =>
    cases rest with
    | nil => simp
    | cons next rest =>
      have empty : ∀ s, solid (lexemes ('\n' :: s)) = solid (lexemes s) :=
        solid_lexemes_append_newline (a := []) rfl
      rw [List.intercalate_cons_cons, List.append_assoc, List.cons_append, List.cons_append,
        List.nil_append, solid_lexemes_append_newline (code part List.mem_cons_self), empty,
        ih fun q mem => code q (List.mem_cons_of_mem part mem), List.flatMap_cons (x := part)]

theorem solid_cons (l : Lexeme) (ls : List Lexeme) :
    solid (l :: ls) = if l.isSolid then l :: solid ls else solid ls :=
  List.filter_cons

/-- Terminators are not blank, so segments are those of the lexemes that are not blank. -/
theorem map_solid_segmentsFrom (ls : List Lexeme) :
    ∀ segment, (segmentsFrom segment ls).map solid = segmentsFrom (solid segment) (solid ls) := by
  have reversed (ms : List Lexeme) : solid ms.reverse = (solid ms).reverse := List.filter_reverse
  induction ls with
  | nil => exact fun segment => congrArg (· :: []) (reversed segment)
  | cons l ls ih =>
    intro segment
    cases terminator : l.isTerminator with
    | true =>
      obtain rfl : l = .code ';' := eq_of_beq terminator
      exact congrArg₂ List.cons (reversed _) (ih [])
    | false =>
      rw [segmentsFrom, terminator, if_neg Bool.false_ne_true, ih, solid_cons, solid_cons]
      split
      · rw [segmentsFrom, terminator, if_neg Bool.false_ne_true]
      · rfl

/-- The statements of a script are known up to blanks from what is not blank in the script. -/
theorem map_solid_statementTexts_congr {s t : List Char}
    (same : solid (lexemes s) = solid (lexemes t)) :
    (statementTexts s).map (fun text => solid (lexemes text)) =
      (statementTexts t).map fun text => solid (lexemes text) := by
  rw [map_solid_statementTexts, map_solid_statementTexts, map_solid_segmentsFrom,
    map_solid_segmentsFrom, same]

end Sql

open Sql

/-! ## Annotated texts -/

/-- An annotation is one comment, whatever stands in it. -/
theorem isSingleComment_originalComment (stmt : String) :
    IsSingleComment (originalComment stmt).toList := by
  rw [originalComment, isSingleComment_iff, String.toList_append,
    Text.lacksPair_append_of_notMem (by decide), softenCommentEnds, String.toList_ofList]
  exact lacksPair_softenChars _

/-- A text with an annotation before it. -/
def annotated (stmt text : String) : String :=
  originalComment stmt ++ "\n" ++ text

theorem toList_annotated (stmt text : String) :
    (annotated stmt text).toList = (originalComment stmt).toList ++ '\n' :: text.toList := by
  simp [annotated]

theorem statementTexts_annotated (stmt text : String) :
    statementTexts (annotated stmt text).toList = statementTexts text.toList := by
  have comment := isSingleComment_originalComment stmt
  rw [toList_annotated, statementTexts_append_newline comment.endsStatements,
    statementTexts_of_isSingleComment comment, List.nil_append]

/-- A text whose statements end still does so after the comment. -/
theorem endsStatements_annotated {stmt text : String} (ends : EndsStatements text.toList) :
    EndsStatements (annotated stmt text).toList := by
  rw [toList_annotated]
  exact (isSingleComment_originalComment stmt).endsStatements.append_newline ends

/-- The comment before a text is one lexeme, and the text is read after it as on its own. -/
theorem lex_annotated (stmt text : String) :
    lexemes (annotated stmt text).toList = .blockEnd :: .code '\n' :: lexemes text.toList ∧
      endMode (annotated stmt text).toList = endMode text.toList := by
  have comment : lex .code (originalComment stmt).toList = ([.blockEnd], .code) :=
    isSingleComment_originalComment stmt
  have newline : lex .code ('\n' :: text.toList) =
      (.code '\n' :: lexemes text.toList, endMode text.toList) :=
    lex_code_cons rfl (fun eq => absurd eq (by decide)) fun eq => absurd eq (by decide)
  have all := lex_append (meetsPlainly_newline (originalComment stmt).toList text.toList) .code
  rw [comment, newline, ← toList_annotated] at all
  constructor
  · rw [lexemes, all]
    rfl
  · rw [endMode, all]

/-! ## Rollbacks -/

namespace Batch

variable (b : Batch) (stmts : List String)

/-- The same batch with or without annotations. -/
def annotating (annotate : Bool) : Batch :=
  ⟨b.reverser, ⟨b.style.filePrefix, annotate⟩⟩

/-- The forward statements that leave a text in the rollback, each with the text of its reversal;
the last statement first. -/
def undone : List (String × String) :=
  (b.reversals stmts).filterMap fun (stmt, reversal) =>
    reversal.script?.map fun text => (stmt, text)

/-- The texts of the reversals of the statements, the last statement first. -/
def undoTexts : List String :=
  (b.undone stmts).map Prod.snd

/-- Without annotations, a rollback is its texts with empty lines between them. -/
theorem content_bare :
    ((b.annotating false).reverseStatements stmts).1 = Text.join "\n\n" (b.undoTexts stmts) := by
  rw [undoTexts, undone, List.map_filterMap]
  refine congrArg (Text.join "\n\n") (List.filterMap_congr fun (stmt, reversal) _ => ?_)
  cases found : reversal.script? <;> simp [passage?, annotating, found]

/-- With annotations, each text follows the comment with its statement. -/
theorem content_annotated :
    ((b.annotating true).reverseStatements stmts).1 =
      Text.join "\n\n" ((b.undone stmts).map fun (stmt, text) => annotated stmt text) := by
  rw [undone, List.map_filterMap]
  refine congrArg (Text.join "\n\n") (List.filterMap_congr fun (stmt, reversal) _ => ?_)
  cases found : reversal.script? <;> simp [passage?, annotating, annotated, found]

/-- What holds of the text of each reversal that another one follows holds of the annotated ones. -/
theorem forall_mem_dropLast_annotated {P Q : List Char → Prop}
    (kept : ∀ stmt text : String, P text.toList → Q (annotated stmt text).toList)
    (h : ∀ text ∈ (b.undoTexts stmts).dropLast, P text.toList) :
    ∀ part ∈ (((b.undone stmts).map fun (stmt, text) => annotated stmt text).map
      String.toList).dropLast, Q part := by
  intro part mem
  rw [← List.map_dropLast, ← List.map_dropLast, List.map_map] at mem
  obtain ⟨⟨stmt, text⟩, inside, rfl⟩ := List.mem_map.1 mem
  refine kept stmt text (h text ?_)
  rw [undoTexts, ← List.map_dropLast]
  exact List.mem_map_of_mem inside

/-- What holds of all texts but the last holds of their characters. -/
theorem forall_mem_dropLast_bare {P : List Char → Prop}
    (h : ∀ text ∈ (b.undoTexts stmts).dropLast, P text.toList) :
    ∀ part ∈ ((b.undoTexts stmts).map String.toList).dropLast, P part := by
  intro part mem
  rw [← List.map_dropLast] at mem
  obtain ⟨text, inside, rfl⟩ := List.mem_map.1 mem
  exact h text inside

theorem toList_emptyLine : "\n\n".toList = ['\n', '\n'] := rfl

/-- Texts that end in code have the same solid lexemes with and without annotations. -/
theorem solid_content (code : ∀ text ∈ (b.undoTexts stmts).dropLast, endMode text.toList = .code) :
    solid (lexemes ((b.annotating true).reverseStatements stmts).1.toList) =
      solid (lexemes ((b.annotating false).reverseStatements stmts).1.toList) := by
  have kept (stmt text : String) (code : endMode text.toList = .code) :
      endMode (annotated stmt text).toList = .code := (lex_annotated stmt text).2.trans code
  have annotatedCode := b.forall_mem_dropLast_annotated stmts (P := fun s => endMode s = .code)
    (Q := fun s => endMode s = .code) kept code
  rw [content_annotated, content_bare, Text.toList_join, Text.toList_join, toList_emptyLine,
    solid_lexemes_intercalate annotatedCode,
    solid_lexemes_intercalate (b.forall_mem_dropLast_bare stmts code), undoTexts, List.map_map,
    List.map_map, List.flatMap_map, List.flatMap_map]
  refine List.flatMap_congr fun (stmt, text) _ => ?_
  have read := (lex_annotated stmt text).1
  rw [Function.comp_apply, read]
  rfl

/-- Texts whose statements end have the same statements with and without annotations. -/
theorem statementTexts_content
    (ends : ∀ text ∈ (b.undoTexts stmts).dropLast, EndsStatements text.toList) :
    statementTexts ((b.annotating true).reverseStatements stmts).1.toList =
      statementTexts ((b.annotating false).reverseStatements stmts).1.toList := by
  have kept (stmt text : String) (ends : EndsStatements text.toList) :
      EndsStatements (annotated stmt text).toList := endsStatements_annotated ends
  rw [content_annotated, content_bare, Text.toList_join, Text.toList_join, toList_emptyLine,
    statementTexts_join_of_endsStatements (b.forall_mem_dropLast_annotated stmts kept ends),
    statementTexts_join_of_endsStatements (b.forall_mem_dropLast_bare stmts ends), undoTexts,
    List.map_map, List.map_map, List.flatMap_map, List.flatMap_map]
  exact List.flatMap_congr fun (stmt, text) _ => statementTexts_annotated stmt text

end Batch

/--
Annotations change no statement of a rollback, and no count. Up to blanks the statements are the
same if every reversal that another one follows ends in plain code; and they are the same texts if
each of these also ends its statements, with nothing but blanks and comments after its last
semicolon.
-/
theorem statements_annotated (b : Batch) (stmts : List String) :
    ((b.annotating true).reverseStatements stmts).2 =
        ((b.annotating false).reverseStatements stmts).2 ∧
      ((∀ text ∈ (b.undoTexts stmts).dropLast, endMode text.toList = .code) →
        (statements ((b.annotating true).reverseStatements stmts).1).map
            (fun s => solid (lexemes s.toList)) =
          (statements ((b.annotating false).reverseStatements stmts).1).map
            fun s => solid (lexemes s.toList)) ∧
      ((∀ text ∈ (b.undoTexts stmts).dropLast, EndsStatements text.toList) →
        statements ((b.annotating true).reverseStatements stmts).1 =
          statements ((b.annotating false).reverseStatements stmts).1) := by
  refine ⟨rfl, fun code => ?_, fun ends => ?_⟩
  · have same := map_solid_statementTexts_congr (b.solid_content stmts code)
    simpa only [statements, List.map_map, Function.comp_def, String.toList_ofList] using same
  · exact congrArg (List.map String.ofList) (b.statementTexts_content stmts ends)

/-- A batch without a catalog. -/
def uninformed : Batch := ⟨⟨none, .none⟩, .standard⟩

/-- Forward statements with marks of comments, quotes and semicolons in their literals. -/
def markedLiterals : List String :=
  ["CREATE TABLE t (a TEXT DEFAULT '*/ ; -- \x22');",
    "DELETE FROM t WHERE a = '/* it\x27\x27s */';", "ALTER TABLE t ADD COLUMN c TEXT DEFAULT '/*';"]

/-- What the literals of forward statements hold does not get out of the annotations. -/
theorem statements_annotated_markedLiterals :
    statements ((uninformed.annotating true).reverseStatements markedLiterals).1 =
        statements ((uninformed.annotating false).reverseStatements markedLiterals).1 ∧
      (statements ((uninformed.annotating true).reverseStatements markedLiterals).1).map
          (fun s => solid (lexemes s.toList)) =
        (statements ((uninformed.annotating false).reverseStatements markedLiterals).1).map
          fun s => solid (lexemes s.toList) :=
  have all := statements_annotated uninformed markedLiterals
  ⟨all.2.2 (by decide +kernel), all.2.1 (by decide +kernel)⟩

/-! ## Code that is still open before a comment -/

namespace Sql

/-- A lexeme after which a text can be closed: a terminator or the end of a comment. -/
def Lexeme.closes (l : Lexeme) : Bool :=
  l.isTerminator || l.char?.isNone

/-- A text that ends in plain code, with nothing but blanks after its last semicolon or comment. -/
structure IsLexicallyClosed (text : List Char) : Prop where
  mode : endMode text = .code
  closed : (lexemes text).any Lexeme.closes = true
  left : ((lexemes text).reverse.takeWhile fun l => !l.closes).all (fun l => !l.isSolid) = true

instance (text : List Char) : Decidable (IsLexicallyClosed text) :=
  decidable_of_iff
    (endMode text = .code ∧ (lexemes text).any Lexeme.closes = true ∧
      ((lexemes text).reverse.takeWhile fun l => !l.closes).all (fun l => !l.isSolid) = true)
    ⟨fun h => ⟨h.1, h.2.1, h.2.2⟩, fun h => ⟨h.mode, h.closed, h.left⟩⟩

end Sql

/-- A batch whose catalog has a view with a comment, but no semicolon, at the end of its
definition. -/
def unendedView : Batch :=
  ⟨⟨some (Catalog.empty.updateView ⟨none, "v"⟩ "CREATE VIEW v AS SELECT 1 /* c */" id), .none⟩,
    .standard⟩

/-- After a definition that ends in a comment and without a semicolon, the line of an annotation
stands inside a statement. -/
theorem statements_annotated_unendedView :
    (∀ text ∈ unendedView.undoTexts ["CREATE TABLE t (id INT);", "DROP VIEW v;"],
        IsLexicallyClosed text.toList) ∧
      ((unendedView.annotating true).reverseStatements
          ["CREATE TABLE t (id INT);", "DROP VIEW v;"]).1 =
        "/* original: DROP VIEW v; */\nCREATE VIEW v AS SELECT 1 /* c */\n\n/* original: CREATE TABLE t (id INT); */\nDROP TABLE IF EXISTS t;" ∧
      statements ((unendedView.annotating true).reverseStatements
          ["CREATE TABLE t (id INT);", "DROP VIEW v;"]).1 =
        ["CREATE VIEW v AS SELECT 1 \n\n\nDROP TABLE IF EXISTS t;"] ∧
      statements ((unendedView.annotating false).reverseStatements
          ["CREATE TABLE t (id INT);", "DROP VIEW v;"]).1 =
        ["CREATE VIEW v AS SELECT 1 \n\nDROP TABLE IF EXISTS t;"] :=
  ⟨by decide +kernel, by decide +kernel, by decide +kernel, by decide +kernel⟩

end Rollback
