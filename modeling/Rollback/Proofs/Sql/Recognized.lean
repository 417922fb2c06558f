import Rollback.Proofs.Sql.Identifiers
import Rollback.Proofs.Sql.Scripts
import Rollback.Reversal.Reconstruction
import Rollback.Sql.Recognition

/-!
# Recognition of written statements

The statements that rollbacks and reconstructions write about plain names are recognized as what
they are meant to be.

- `findSome?_rules_drop`, `ofChars_of_rule`: the rules before the one that accepts a statement do
  not matter
- `dropLine`, `match?_dropLine`: a written DROP reads the name of its object
- `ofChars_tableDrop`, `ofChars_indexDrop`, `ofChars_viewDrop`: and drops that
- `ofChars_renameLine`: a written RENAME TABLE gives a table of the one name the other
- `expandActions?_eq_none`: only ALTER TABLE statements are expanded
-/

set_option autoImplicit false

namespace Rollback

open Pattern

namespace Sql

/-- Rules that refuse a text are passed over. -/
theorem findSome?_rules_drop {text : List Char} (k : Nat)
    (h : ∀ rule ∈ rules.take k, rule text = none) :
    (rules.findSome? fun rule => rule text) = (rules.drop k).findSome? fun rule => rule text := by
  have before : ((rules.take k).findSome? fun rule => rule text) = none :=
    List.findSome?_eq_none_iff.2 h
  calc (rules.findSome? fun rule => rule text)
      = (rules.take k ++ rules.drop k).findSome? fun rule => rule text := by
        rw [List.take_append_drop]
    _ = (rules.drop k).findSome? fun rule => rule text := by
        rw [List.findSome?_append, before, Option.none_or]

/-- A statement is what the first rule makes of it that does not refuse it. -/
theorem ofChars_of_rule {text : List Char} {s : Statement} (trimmed : Text.Trimmed text) (k : Nat)
    (before : ∀ rule ∈ rules.take k, rule text = none) {rule : List Char → Option Statement}
    (here : rules[k]? = some rule) (accepts : rule text = some s) : Statement.ofChars text = s := by
  obtain ⟨short, rfl⟩ := List.getElem?_eq_some_iff.1 here
  rw [Statement.ofChars, trimmed.trim_eq, findSome?_rules_drop k before,
    List.drop_eq_getElem_cons short, List.findSome?_cons, accepts]
  rfl

/-- If all other rules refuse a text, the statement is up to the rule that is left. -/
theorem ofChars_of_others {text : List Char} (trimmed : Text.Trimmed text) (k : Nat)
    {rule : List Char → Option Statement} (here : rules[k]? = some rule)
    (others : ∀ other ∈ rules.eraseIdx k, other text = none) :
    Statement.ofChars text =
      (rule text).getD (.unrecognized (preview (String.ofList text) previewLength)) := by
  rw [List.eraseIdx_eq_take_drop_succ] at others
  have before : ∀ other ∈ rules.take k, other text = none := fun other mem =>
    others other (List.mem_append_left _ mem)
  have after : ((rules.drop (k + 1)).findSome? fun other => other text) = none :=
    List.findSome?_eq_none_iff.2 fun other mem => others other (List.mem_append_right _ mem)
  obtain ⟨short, rfl⟩ := List.getElem?_eq_some_iff.1 here
  rw [Statement.ofChars, trimmed.trim_eq, findSome?_rules_drop k before,
    List.drop_eq_getElem_cons short, List.findSome?_cons, after]
  cases rules[k] text <;> rfl

/-- A rule for columns refuses the words that introduce another clause. -/
theorem addColumn?_of_match {stmt column : List Char} {m : Match Operand}
    (read : addColumnPhrase.match? stmt = some m) (single : chainsActions m = false)
    (name : identifierAt m .column = column) :
    addColumn? stmt = if Text.isOneOf clauseWords column then none else
      some (.addColumn (objectAt m .object) (String.ofList column)
        ((clauseAt? m .definition).map String.ofList) (isMarked m .columnWord)) := by
  rw [addColumn?, read]
  simp only [Option.bind_eq_bind, Option.bind_some, name, single]
  rfl

/-- What the rule for dropped columns makes of a match with a single action. -/
theorem dropColumn?_of_match {stmt column : List Char} {m : Match Operand}
    (read : dropColumnPhrase.match? stmt = some m) (single : chainsActions m = false)
    (name : identifierAt m .column = column) :
    dropColumn? stmt = if Text.isOneOf clauseWords column then none else
      some (.dropColumn (objectAt m .object) (String.ofList column) (isMarked m .columnWord)) := by
  rw [dropColumn?, read]
  simp only [Option.bind_eq_bind, Option.bind_some, name, single]
  rfl

theorem renameColumn?_of_match {stmt source target : List Char} {m : Match Operand}
    (read : renameColumnPhrase.match? stmt = some m) (old : identifierAt m .column = source)
    (new : identifierAt m .target = target) :
    renameColumn? stmt = some (.renameColumn (objectAt m .object) (String.ofList source)
      (String.ofList target)) := by
  rw [renameColumn?, read, ← old, ← new]
  rfl

/-- A text that does not start with ALTER chains no actions. -/
theorem expandActions?_eq_none {text : List Char} (trimmed : Text.Trimmed text)
    (other : Text.eqIgnoringCase "ALTER".toList (text.take 5) = false) :
    expandActions? (String.ofList text) = none := by
  have stuck : Stuck alterTableHeadPhrase ⟨none, text, []⟩ := by
    have word : Stuck (keyword "ALTER") (⟨none, text, []⟩ : Place Operand) := stuck_keyword other
    have words : Stuck (keywords ["ALTER", "TABLE"]) (⟨none, text, []⟩ : Place Operand) :=
      (word.seq_left _).seq_left _
    exact ((((words.seq_left _).seq_left _).seq_left _).mark _).seq_left _
  rw [expandActions?, expandActionTexts?, String.toList_ofList, trimmed.trim_eq, stuck.match?]
  rfl

/-- A script that is made of passages is cut into their statements, if none of them starts with
ALTER. -/
theorem actions_of_passages {script : String} {separator : List Char} {passages : List Passage}
    (hs : IsSpacing separator)
    (text : script.toList = separator.intercalate (passages.map Passage.text))
    (other : ∀ p ∈ passages, Text.eqIgnoringCase "ALTER".toList (p.statement.take 5) = false) :
    actions script = passages.map fun p => String.ofList p.statement := by
  rw [actions, statements, text, statementTexts_join hs, List.map_map]
  clear text
  induction passages with
  | nil => rfl
  | cons p rest ih =>
    have single := expandActions?_eq_none p.trimmed (other p List.mem_cons_self)
    rw [List.map_cons, List.flatMap_cons, Function.comp_apply, single,
      ih fun q hq => other q (List.mem_cons_of_mem p hq)]
    rfl

/-- A part of a script that holds one statement, which does not start with ALTER. -/
def HoldsStatement (part stmt : String) : Prop :=
  Text.eqIgnoringCase "ALTER".toList (stmt.toList.take 5) = false ∧
    ∃ p : Passage, p.text = part.toList ∧ p.statement = stmt.toList

/-- Texts that hold one statement each are the passages of a script. -/
theorem exists_passages {parts : List (String × String)}
    (h : ∀ e ∈ parts, HoldsStatement e.1 e.2) :
    ∃ ps : List Passage,
      ps.map Passage.text = (parts.map Prod.fst).map String.toList ∧
      ps.map Passage.statement = (parts.map Prod.snd).map String.toList := by
  induction parts with
  | nil => exact ⟨[], rfl, rfl⟩
  | cons e parts ih =>
    obtain ⟨⟨-, p, text, statement⟩, later⟩ := List.forall_mem_cons.1 h
    obtain ⟨ps, texts, statements⟩ := ih later
    exact ⟨p :: ps, by simp [text, texts], by simp [statement, statements]⟩

/-- A script that is joined from such parts is cut into their statements. -/
theorem actions_join {separator : String} (hs : IsSpacing separator.toList)
    {parts : List (String × String)} (h : ∀ e ∈ parts, HoldsStatement e.1 e.2) :
    actions (Text.join separator (parts.map Prod.fst)) = parts.map Prod.snd := by
  obtain ⟨ps, texts, statements⟩ := exists_passages h
  have other : ∀ p ∈ ps, Text.eqIgnoringCase "ALTER".toList (p.statement.take 5) = false := by
    intro p hp
    have mem := statements ▸ List.mem_map_of_mem (f := Passage.statement) hp
    obtain ⟨stmt, hs, same⟩ := List.mem_map.1 mem
    obtain ⟨e, he, rfl⟩ := List.mem_map.1 hs
    rw [← same]
    exact (h e he).1
  have script : (Text.join separator (parts.map Prod.fst)).toList =
      separator.toList.intercalate (ps.map Passage.text) := by
    rw [texts]
    exact String.toList_intercalate
  rw [actions_of_passages hs script other]
  calc ps.map (fun p => String.ofList p.statement)
      = (ps.map Passage.statement).map String.ofList := by rw [List.map_map]; rfl
    _ = parts.map Prod.snd := by
      rw [statements, List.map_map, String.ofList_comp_toList, List.map_id]

theorem isBody_render {n : ObjectName} (h : PlainObject n) : IsBody n.render.toList := by
  obtain ⟨schema, name⟩ := n
  cases schema with
  | none => exact isBody_of_word h.name.word
  | some s =>
    have dot : IsBody ['.'] := isBody_of_isQuiet rfl (by decide)
    rw [toList_render_some]
    exact (isBody_of_word (h.schema s rfl).word).append (dot.append (isBody_of_word h.name.word))

end Sql

theorem toString_string (s : String) : toString s = s := rfl

theorem toString_name (n : ObjectName) : toString n = n.render := rfl

/-- The text of a statement that drops a table. -/
theorem toList_tableDrop (table : String) :
    (tableDrop table).toList = "DROP TABLE IF EXISTS ".toList ++ table.toList ++ [';'] := by
  unfold tableDrop
  simp only [toString_string, String.toList_append]
  rfl

/-- A statement that drops a table with a plain name, with something before it. -/
def dropPassage {n : ObjectName} (h : PlainObject n) {spacing : List Char}
    (isSpacing : Sql.IsSpacing spacing) : Sql.Passage where
  spacing := spacing
  body := "DROP TABLE IF EXISTS ".toList ++ n.render.toList
  isSpacing := isSpacing
  isBody := (Sql.isBody_of_isQuiet rfl (by decide)).append (Sql.isBody_render h)
  nonempty := List.cons_ne_nil _ _
  first := by
    intro c hc
    obtain rfl := Option.some.inj hc
    decide

theorem statement_dropPassage {n : ObjectName} (h : PlainObject n) {spacing : List Char}
    (isSpacing : Sql.IsSpacing spacing) :
    (dropPassage h isSpacing).statement = (tableDrop n.render).toList :=
  (toList_tableDrop n.render).symm

/-- A drop after some spacing holds one statement. -/
theorem holdsStatement_tableDrop {n : ObjectName} (h : PlainObject n) {spacing : List Char}
    (isSpacing : Sql.IsSpacing spacing) :
    Sql.HoldsStatement (String.ofList spacing ++ tableDrop n.render) (tableDrop n.render) := by
  have statement := statement_dropPassage h isSpacing
  refine ⟨?_, dropPassage h isSpacing, ?_, statement⟩
  · rw [toList_tableDrop]
    rfl
  · rw [Sql.Passage.text, statement, String.toList_append, String.toList_ofList]
    rfl

/-! ## Dropped objects -/

namespace Sql

variable {n : ObjectName} {l : Option Char} {m : List (Operand × Span)}

/-- A statement that drops an object of a kind, if it is there. -/
def dropLine (kind name : String) : List Char :=
  [' '].intercalate (["DROP", kind].map String.toList) ++
    ' ' :: ([' '].intercalate (["IF", "EXISTS"].map String.toList) ++
      ' ' :: (name.toList ++ [';']))

theorem trimmed_dropLine (kind name : String) : Text.Trimmed (dropLine kind name) := by
  have shape : dropLine kind name =
      'D' :: ("ROP ".toList ++ kind.toList ++ " IF EXISTS ".toList ++ name.toList) ++ [';'] := by
    simp [dropLine, List.intercalate]
  rw [shape]
  exact Text.trimmed_cons_append rfl rfl rfl

/-- The words IF EXISTS are read where they stand. -/
theorem reads_ifExists {rest : List Char} (solid : startsIn .gap rest = false) :
    Reads (maybe ["IF", "EXISTS"])
      ⟨l, [' '].intercalate (["IF", "EXISTS"].map String.toList) ++ ' ' :: rest, m⟩
      ⟨some ' ', rest, m⟩ := by
  have words := reads_keywords (ι := Operand) (l := l) (m := m) ["IF", "EXISTS"] (' ' :: rest) rfl
  exact (words.seq (reads_space solid)).orNothing

/-- After them the name of the object is read. -/
theorem reads_existingName (h : BareObject n) :
    Reads (maybe ["IF", "EXISTS"] ++ objectName .object)
      ⟨l, [' '].intercalate (["IF", "EXISTS"].map String.toList) ++
        ' ' :: (n.render.toList ++ [';']), m⟩
      ⟨lastAfter (some ' ') n.render.toList, [';'],
        (.object, ⟨n.render.toList ++ [';'], [';']⟩) :: m⟩ :=
  (reads_ifExists (h.startsIn_gap [';'])).seq (reads_objectName h .object _ rfl)

/-- The first two words of a drop are read up to the words IF EXISTS. -/
theorem reads_dropStart (name : String) {kind : String} (word : startsIn .word kind.toList = true) :
    Reads (keywords ["DROP", kind] ++ gap : Phrase) ⟨none, dropLine kind name, []⟩
      ⟨some ' ', [' '].intercalate (["IF", "EXISTS"].map String.toList) ++
        ' ' :: (name.toList ++ [';']), []⟩ :=
  (reads_keywords (ι := Operand) (l := none) (m := []) ["DROP", kind] _ (by simp [word]; rfl)).seq
    (reads_space rfl)

/-- A written DROP reads the name of its object. -/
theorem match?_dropLine (h : BareObject n) {kind : String}
    (word : startsIn .word kind.toList = true) :
    (keywords ["DROP", kind] ++ gap ++ maybe ["IF", "EXISTS"] ++ objectName .object).match?
        (dropLine kind n.render) =
      some ⟨lastAfter (some ' ') n.render.toList, [';'],
        [(.object, ⟨n.render.toList ++ [';'], [';']⟩)]⟩ :=
  (((reads_dropStart n.render word).seq (reads_existingName h)).assoc).match?

end Sql

namespace Statement

open Sql

variable {n : ObjectName}

/-- A written DROP TABLE is recognized and drops the table of its name. -/
theorem ofChars_tableDrop (h : BareObject n) :
    ofChars (tableDrop n.render).toList = .dropTable n := by
  have text : (tableDrop n.render).toList = dropLine "TABLE" n.render := by
    rw [toList_tableDrop, List.append_assoc]
    rfl
  have rule : dropTable? (dropLine "TABLE" n.render) = some (.dropTable n) := by
    rw [dropTable?, dropTablePhrase, match?_dropLine h rfl]
    exact congrArg (fun n => some (Statement.dropTable n)) (objectAt_of_bareObject h rfl)
  have before : ∀ rule ∈ rules.take 2, rule (dropLine "TABLE" n.render) = none := by
    simp only [rules, List.take_succ_cons, List.take_zero, List.forall_mem_cons]
    exact ⟨rfl, rfl, by simp⟩
  rw [text]
  exact ofChars_of_rule (trimmed_dropLine _ _) 2 before rfl rule

/-- So are a written DROP INDEX and a DROP VIEW. -/
theorem ofChars_indexDrop (h : BareObject n) :
    ofChars (dropLine "INDEX" n.render) = .dropIndex n := by
  have phrase : dropIndexPhrase.match? (dropLine "INDEX" n.render) =
      some ⟨lastAfter (some ' ') n.render.toList, [';'],
        [(.object, ⟨n.render.toList ++ [';'], [';']⟩)]⟩ := by
    have start := reads_dropStart n.render (show startsIn .word "INDEX".toList = true from rfl)
    have left : Reads (maybe ["CONCURRENTLY"]) _ _ := Stuck.orNothing (s := ⟨some ' ',
      [' '].intercalate (["IF", "EXISTS"].map String.toList) ++
        ' ' :: (n.render.toList ++ [';']), []⟩) rfl
    exact (((start.seq left).seq (reads_existingName h)).assoc).match?
  have rule : dropIndex? (dropLine "INDEX" n.render) = some (.dropIndex n) := by
    rw [dropIndex?, phrase]
    exact congrArg (fun n => some (Statement.dropIndex n)) (objectAt_of_bareObject h rfl)
  have before : ∀ rule ∈ rules.take 14, rule (dropLine "INDEX" n.render) = none := by
    simp only [rules, List.take_succ_cons, List.take_zero, List.forall_mem_cons]
    exact ⟨rfl, rfl, rfl, rfl, rfl, rfl, rfl, rfl, rfl, rfl, rfl, rfl, rfl, rfl, by simp⟩
  exact ofChars_of_rule (trimmed_dropLine _ _) 14 before rfl rule

theorem ofChars_viewDrop (h : BareObject n) :
    ofChars (dropLine "VIEW" n.render) = .dropView n := by
  have rule : dropView? (dropLine "VIEW" n.render) = some (.dropView n) := by
    rw [dropView?, dropViewPhrase, match?_dropLine h rfl]
    exact congrArg (fun n => some (Statement.dropView n)) (objectAt_of_bareObject h rfl)
  have before : ∀ rule ∈ rules.take 16, rule (dropLine "VIEW" n.render) = none := by
    simp only [rules, List.take_succ_cons, List.take_zero, List.forall_mem_cons]
    exact ⟨rfl, rfl, rfl, rfl, rfl, rfl, rfl, rfl, rfl, rfl, rfl, rfl, rfl, rfl, rfl, rfl, by simp⟩
  exact ofChars_of_rule (trimmed_dropLine _ _) 16 before rfl rule

end Statement

/-! ## New names of tables -/

namespace Sql

/-- A statement that gives a table a new name, and what follows that. -/
def renameLine (source target : String) (rest : List Char) : List Char :=
  "RENAME TABLE ".toList ++
    (source.toList ++ ' ' :: ("TO".toList ++ ' ' :: (target.toList ++ rest)))

theorem trimmed_renameLine (source target : String) :
    Text.Trimmed (renameLine source target [';']) := by
  have last : (renameLine source target [';']).getLast? = some ';' := by
    have split : renameLine source target [';'] = "RENAME TABLE ".toList ++
        (source.toList ++ ' ' :: ("TO".toList ++ ' ' :: target.toList)) ++ [';'] := by
      unfold renameLine
      generalize "RENAME TABLE ".toList = words
      generalize "TO".toList = word
      simp
    rw [split]
    exact List.getLast?_concat
  exact Text.trimmed_of_ends (c := 'R') rfl last rfl rfl

/-- A written RENAME TABLE is recognized, whatever follows it that no name goes on with. -/
theorem ofChars_renameLine {source target : ObjectName} {rest : List Char} (old : BareObject source)
    (new : BareObject target) (stop : startsIn nameGoesOn rest = false)
    (trimmed : Text.Trimmed (renameLine source.render target.render rest)) :
    Statement.ofChars (renameLine source.render target.render rest) =
      .renameTable source target := by
  have words := reads_keywords (ι := Operand) (l := none) (m := []) ["RENAME", "TABLE"]
    (' ' :: (source.render.toList ++ ' ' :: ("TO".toList ++
      ' ' :: (target.render.toList ++ rest)))) rfl
  have object := fun l => reads_objectName (l := l) (m := []) old .object (' ' :: ("TO".toList ++
    ' ' :: (target.render.toList ++ rest))) rfl
  have read : renameTablePhrase.match? (renameLine source.render target.render rest) = some _ :=
    (((((((words.seq (reads_space (old.startsIn_gap _))).seq (object _)).seq
      (reads_space rfl)).seq (reads_same_keyword "TO" _)).seq
      (reads_space (new.startsIn_gap _))).seq (reads_objectName new .target _ stop))).match?
  have rule : renameTable? (renameLine source.render target.render rest) =
      some (.renameTable source target) := by
    rw [renameTable?, read]
    exact congr (congrArg (fun a b => some (Statement.renameTable a b))
      (objectAt_of_bareObject old rfl)) (objectAt_of_bareObject new rfl)
  have before : ∀ rule ∈ rules.take 9,
      rule (renameLine source.render target.render rest) = none := by
    simp only [rules, List.take_succ_cons, List.take_zero, List.forall_mem_cons]
    exact ⟨rfl, rfl, rfl, rfl, rfl, rfl, rfl, rfl, rfl, by simp⟩
  exact ofChars_of_rule trimmed 9 before rfl rule

end Sql

end Rollback
