import Rollback.Proofs.Reversal.TableCreation
import Rollback.Proofs.Schema.ColumnPlaces
import Rollback.Proofs.Schema.Representation
import Rollback.Proofs.Schema.StatementRuns

/-!
# Round trip of reconstructed tables

A file that holds nothing but the statements that are reconstructed for a table, read into an empty
catalog, gives that table again: its name, its columns in their order with their types and comments,
its clauses and its comment.

- `Table.IsCopy`: what a table has in common with its copy
- `changes_columnComments`: the statements for the comments on columns, one after another
- `ofFiles_creation`: the round trip
-/

set_option autoImplicit false

namespace Rollback

/-- A column of which name, type and comment are all that is known, at some place. -/
def Column.rewritten (c : Column) (ordinal : Nat) : Column :=
  { Column.declared c.name c.dataType ordinal with comment := c.comment }

/-- A table that agrees with another one in what statements can say about it. The columns stand in
the same order, at places that are numbered from zero, and each is found by its name. -/
structure Table.IsCopy (copy t : Table) : Prop where
  name : copy.name = t.name
  fullName : copy.fullName = t.fullName
  schema : copy.schema = t.schema
  columns : copy.columnsInOrder = t.columnsInOrder.zipIdx.map fun (c, i) => c.rewritten i
  column? : ∀ (i : Nat) (c : Column), t.columnsInOrder[i]? = some c →
    copy.column? c.name = some (c.rewritten i)
  distribution : copy.distribution = t.distribution
  storage : copy.storage = t.storage
  placementGroup : copy.placementGroup = t.placementGroup
  comment : copy.comment = t.comment

namespace Table.IsCopy

variable {copy t : Table}

/-- What the columns of a copy have in common with the original stands in the same order. -/
theorem map_columnsInOrder {α : Type} (h : copy.IsCopy t) {f : Column → α}
    (same : ∀ (c : Column) (i : Nat), f (c.rewritten i) = f c) :
    copy.columnsInOrder.map f = t.columnsInOrder.map f := by
  calc copy.columnsInOrder.map f
      = (t.columnsInOrder.zipIdx.map Prod.fst).map f := by
        rw [h.columns, List.map_map, List.map_map]
        exact List.map_congr_left fun e _ => same e.1 e.2
    _ = t.columnsInOrder.map f := by rw [List.zipIdx_map_fst]

theorem qualifiedName_eq (h : copy.IsCopy t) : copy.qualifiedName = t.qualifiedName := by
  rw [qualifiedName, qualifiedName, h.fullName, h.schema, h.name]

/-- The statements that are reconstructed for a copy are those for the original. -/
theorem creation_eq (h : copy.IsCopy t) (defaults : TableDefaults) :
    copy.creation defaults = t.creation defaults := by
  have name := h.qualifiedName_eq
  have lines : copy.columnLines = t.columnLines := by
    rw [columnLines, columnLines, h.map_columnsInOrder fun _ _ => rfl]
  have closing : copy.closingLine defaults = t.closingLine defaults := by
    rw [closingLine, closingLine, storageClause?, storageClause?, h.storage]
  have create : copy.createStatement defaults = t.createStatement defaults := by
    rw [createStatement, createStatement, name, lines, closing, distributionClause?,
      distributionClause?, h.distribution, placementClause?, placementClause?, h.placementGroup]
  have comments : copy.commentStatements = t.commentStatements := by
    let written := fun c : Column => c.comment.map (columnComment t.qualifiedName c.name)
    have apart : ∀ columns : List Column,
        columns.filterMap written = (columns.map written).filterMap id :=
      fun columns => (List.filterMap_map (f := written) (g := id)).symm
    rw [commentStatements, commentStatements, name, h.comment, apart, apart,
      h.map_columnsInOrder fun _ _ => rfl]
  rw [creation, creation, create, comments]

end Table.IsCopy

/-! ## Comments on columns -/

namespace Table

variable {u : Table} {columns : List Column}

/-- The table with the comment on a column, if there is one. -/
def withCommentOf (u : Table) (c : Column) : Table :=
  match c.comment with
  | none => u
  | some x => u.withColumn c.name fun before => { before with comment := some x }

/-- The table with the comments on some columns. -/
def withCommentsOf (u : Table) (columns : List Column) : Table :=
  columns.foldl withCommentOf u

theorem withCommentsOf_cons (u : Table) (c : Column) (columns : List Column) :
    u.withCommentsOf (c :: columns) = (u.withCommentOf c).withCommentsOf columns := rfl

/-- Comments on columns change nothing but the columns. -/
theorem withCommentsOf_eq (u : Table) (columns : List Column) :
    u.withCommentsOf columns = { u with columns := (u.withCommentsOf columns).columns } := by
  induction columns generalizing u with
  | nil => rfl
  | cons c columns ih =>
    rw [withCommentsOf_cons, ih, withCommentOf]
    split <;> rfl

theorem get?_withCommentOf_of_ne {c : Column} {k : String} (other : c.name.lowerCase ≠ k) :
    (u.withCommentOf c).columns.get? k = u.columns.get? k := by
  rw [withCommentOf]
  split
  · rfl
  · exact KeyMap.get?_insert_of_ne _ _ (Ne.symm other)

/-- A comment of a column becomes the comment of a column without one. -/
theorem get?_withCommentOf_self {c before : Column}
    (found : u.columns.get? c.name.lowerCase = some before) (bare : before.comment = none) :
    (u.withCommentOf c).columns.get? c.name.lowerCase =
      some { before with comment := c.comment } := by
  rw [withCommentOf]
  cases c.comment with
  | none =>
    show u.columns.get? _ = _
    rw [found, ← bare]
  | some x =>
    show (u.columns.insert _ _).get? _ = _
    rw [KeyMap.get?_insert_self, columnOrStub, Table.column?, found]
    rfl

/-- The comments of some columns leave the others. -/
theorem get?_withCommentsOf_of_ne {k : String} (others : ∀ c ∈ columns, c.name.lowerCase ≠ k) :
    (u.withCommentsOf columns).columns.get? k = u.columns.get? k := by
  induction columns generalizing u with
  | nil => rfl
  | cons c columns ih =>
    rw [withCommentsOf_cons, ih fun d hd => others d (List.mem_cons_of_mem c hd),
      get?_withCommentOf_of_ne (others c List.mem_cons_self)]

/-- Of columns that differ in their names, each gets its own comment. -/
theorem get?_withCommentsOf_of_mem
    (distinct : columns.Pairwise fun a b => a.name.lowerCase ≠ b.name.lowerCase)
    {c before : Column} (mem : c ∈ columns)
    (found : u.columns.get? c.name.lowerCase = some before) (bare : before.comment = none) :
    (u.withCommentsOf columns).columns.get? c.name.lowerCase =
      some { before with comment := c.comment } := by
  induction columns generalizing u with
  | nil => exact absurd mem List.not_mem_nil
  | cons d columns ih =>
    obtain ⟨first, rest⟩ := List.pairwise_cons.1 distinct
    rw [withCommentsOf_cons]
    rcases List.mem_cons.1 mem with rfl | mem
    · rw [get?_withCommentsOf_of_ne fun e he => (first e he).symm]
      exact get?_withCommentOf_self found bare
    · refine ih rest mem ?_
      rw [get?_withCommentOf_of_ne (first c mem), found]

end Table

/-! ## Statements that change a draft -/

namespace Draft

variable {path : String} {d e f : Draft} {n : ObjectName} {u : Table}

/-- The draft that knows one table. -/
def ofTable (n : ObjectName) (u : Table) : Draft :=
  { empty with catalog := { Catalog.empty with tables := KeyMap.empty.insert n.key u } }

/-- The first mention of a table makes it the only one. -/
theorem mentionTable_empty (n : ObjectName) (path : String) (change : Table → Table) :
    empty.mentionTable n path change = ofTable n (change ((Table.empty n).withSource path)) := by
  rw [mentionTable, resolve, show empty.searchPath = none from rfl, ObjectName.resolve_none]
  rfl

theorem mentionTable_ofTable (n : ObjectName) (u : Table) (path : String)
    (change : Table → Table) :
    (ofTable n u).mentionTable n path change = ofTable n (change (u.withSource path)) := by
  rw [mentionTable, resolve, show (ofTable n u).searchPath = none from rfl,
    ObjectName.resolve_none, Catalog.updateTable, Catalog.tableOrEmpty]
  simp only [ofTable, KeyMap.get?_insert_self, Option.getD_some, KeyMap.insert_insert]
  rfl

/-- The file that mentions a table is not listed again. -/
theorem withSource_eq (h : u.sources = addSource path []) : u.withSource path = u := by
  rw [Table.withSource, h]
  have again : addSource path (addSource path []) = addSource path [] := by
    by_cases empty : path.isEmpty = true
    · simp [addSource, empty]
    · simp [addSource, empty]
  rw [again, ← h]

/-- The statement for the comment of the table sets this comment and nothing else. -/
theorem apply_tableComment (h : PlainObject n) {comment : String}
    (text : Sql.CommentText comment.toList) (source : u.sources = addSource path []) :
    (ofTable n u).apply (tableComment n.render comment) path =
      .ok (ofTable n { u with comment := some comment }, .changed) := by
  rw [apply, (Statement.trimmed_tableComment n.render comment).trim_eq, applyTrimmed,
    Statement.ofChars_tableComment h.bare text.written]
  show Except.ok (mentionTable _ _ _ _, _) = _
  rw [mentionTable_ofTable, withSource_eq source]

/-- The statement for the comment of a column sets this comment and nothing else. -/
theorem apply_columnComment (h : PlainObject n) {column comment : String}
    (plain : PlainName column) (text : Sql.CommentText comment.toList)
    (source : u.sources = addSource path []) :
    (ofTable n u).apply (columnComment n.render column comment) path =
      .ok (ofTable n (u.withColumn column fun c => { c with comment := some comment }),
        .changed) := by
  rw [apply, (Statement.trimmed_columnComment n column comment).trim_eq, applyTrimmed,
    Statement.ofChars_columnComment h.bare plain.bare text.written]
  -- No view is known, so the comment is one on a column of a table.
  have noView : ∀ stmt, (ofTable n u).commentInView? n stmt path = none := by
    intro stmt
    rw [commentInView?]
    exact if_neg Bool.false_ne_true
  show Except.ok ((commentInView? _ n _ path).getD (mentionTable _ _ _ _), _) = _
  rw [noView, Option.getD_none, mentionTable_ofTable, withSource_eq source]

/-- The statements for the comments on columns put each comment on its column. -/
theorem changes_columnComments (h : PlainObject n) {columns : List Column}
    (plain : ∀ c ∈ columns, c.Plain) (source : u.sources = addSource path []) :
    Changes path (ofTable n u)
      (columns.filterMap fun c => c.comment.map (columnComment n.render c.name))
      (ofTable n (u.withCommentsOf columns)) := by
  induction columns generalizing u with
  | nil => exact .nil
  | cons c columns ih =>
    have first := plain c List.mem_cons_self
    have others := fun d hd => plain d (List.mem_cons_of_mem c hd)
    rw [Table.withCommentsOf_cons, Table.withCommentOf]
    cases comment : c.comment with
    | none =>
      rw [List.filterMap_cons_none (by rw [comment]; rfl)]
      exact ih others source
    | some x =>
      rw [List.filterMap_cons_some (b := columnComment n.render c.name x) (by rw [comment]; rfl)]
      refine .cons (apply_columnComment h first.name (first.comment x comment) source) ?_
      exact ih others source

end Draft

/-! ## The table after all statements -/

namespace Table

variable {t : Table} {n : ObjectName} {path : String}

/-- The table that the reconstructed statements describe in a file. -/
def rebuilt (t : Table) (n : ObjectName) (path : String) : Table :=
  let created := ((Table.empty n).withSource path).declare n t.declaration
  { created with comment := t.comment }.withCommentsOf t.columnsInOrder

/-- The columns of a plain table have different names, up to case. -/
theorem Plain.distinct_columnsInOrder (h : t.Plain n) :
    t.columnsInOrder.Pairwise fun a b => a.name.lowerCase ≠ b.name.lowerCase :=
  h.distinct.perm (List.mergeSort_perm t.columns.values Column.comesBefore).symm fun other =>
    other.symm

/-- Among the declared columns, a name tells which one it is. -/
theorem Plain.lastDeclared_eq (h : t.Plain n) {i : Nat} {c : Column}
    (found : t.columnsInOrder[i]? = some c) :
    lastDeclared c.name.lowerCase (numbered t.declaration.columns) =
      some (i, c.name, c.dataType) := by
  have column : ∀ j, t.declaration.columns[j]? =
      t.columnsInOrder[j]?.map fun c : Column => (c.name, c.dataType) := fun j => List.getElem?_map
  have named : (i, c.name, c.dataType) ∈ numbered t.declaration.columns := by
    rw [mem_numbered_iff, column, found]
    rfl
  cases last : lastDeclared c.name.lowerCase (numbered t.declaration.columns) with
  | none =>
    have other := (lastDeclared_eq_none_iff _ _).1 last _ named
    exact absurd rfl other
  | some d =>
    obtain ⟨j, text⟩ := d
    obtain ⟨mem, key⟩ := key_of_lastDeclared last
    replace mem := (column j).symm.trans ((mem_numbered_iff _ _).1 mem)
    obtain ⟨e, there, rfl⟩ := Option.map_eq_some_iff.1 mem
    replace key : e.name.lowerCase = c.name.lowerCase := key
    obtain ⟨hi, rfl⟩ := List.getElem?_eq_some_iff.1 found
    obtain ⟨hj, rfl⟩ := List.getElem?_eq_some_iff.1 there
    have differ := List.pairwise_iff_getElem.1 h.distinct_columnsInOrder
    rcases Nat.lt_trichotomy i j with below | rfl | above
    · exact absurd key.symm (differ i j hi hj below)
    · rfl
    · exact absurd key (differ j i hj hi above)

/-- The declaration and the comment of a column are found by its name. -/
theorem Plain.get?_rebuilt (h : t.Plain n) {i : Nat} {c : Column}
    (found : t.columnsInOrder[i]? = some c) :
    (t.rebuilt n path).columns.get? c.name.lowerCase = some (c.rewritten i) := by
  have declared : (declare ((Table.empty n).withSource path) n t.declaration).columns.get?
      c.name.lowerCase = some (Column.declared c.name c.dataType i) := by
    rw [get?_columns_declare_of_empty rfl, h.lastDeclared_eq found]
    rfl
  exact get?_withCommentsOf_of_mem h.distinct_columnsInOrder (List.mem_of_getElem? found) declared
    rfl

/-- Nothing but the columns of the table is found. -/
theorem key_of_get?_rebuilt {k : String} {a : Column}
    (found : (t.rebuilt n path).columns.get? k = some a) :
    ∃ c ∈ t.columnsInOrder, c.name.lowerCase = k := by
  by_contra none
  have others : ∀ c ∈ t.columnsInOrder, c.name.lowerCase ≠ k := fun c hc key =>
    none ⟨c, hc, key⟩
  rw [rebuilt, get?_withCommentsOf_of_ne others] at found
  replace found : (declare _ n t.declaration).columns.get? k = some a := found
  rw [get?_columns_declare_of_empty rfl, Option.map_eq_some_iff] at found
  obtain ⟨d, last, -⟩ := found
  obtain ⟨named, key⟩ := key_of_lastDeclared last
  have column := List.mem_of_getElem? ((mem_numbered_iff _ _).1 named)
  obtain ⟨c, hc, same⟩ := List.mem_map.1 column
  exact others c hc (by rw [← key, ← same])

/-- The columns come back in their order, counted anew. -/
theorem Plain.columnsInOrder_rebuilt (h : t.Plain n) :
    (t.rebuilt n path).columnsInOrder =
      t.columnsInOrder.zipIdx.map fun (c, i) => c.rewritten i := by
  let entries := t.columnsInOrder.zipIdx.map fun (c, i) => (c.name.lowerCase, c.rewritten i)
  have keys : entries.map Prod.fst = t.columnsInOrder.map fun c => c.name.lowerCase := by
    calc entries.map Prod.fst
        = (t.columnsInOrder.zipIdx.map Prod.fst).map fun c => c.name.lowerCase := by
          rw [List.map_map, List.map_map]
          rfl
      _ = _ := by rw [List.zipIdx_map_fst]
  have perm : (t.rebuilt n path).columns.values.Perm (entries.map Prod.snd) := by
    refine KeyMap.perm_values ?_ fun k a => ?_
    · rw [keys, List.Nodup, List.pairwise_map]
      exact h.distinct_columnsInOrder
    · simp only [entries]
      simp only [List.mem_map, Prod.exists, List.mem_zipIdx_iff_getElem?, Prod.mk.injEq]
      constructor
      · intro found
        obtain ⟨c, hc, rfl⟩ := key_of_get?_rebuilt found
        obtain ⟨i, here⟩ := List.getElem?_of_mem hc
        rw [h.get?_rebuilt here] at found
        exact ⟨c, i, here, rfl, Option.some.inj found⟩
      · rintro ⟨c, i, here, rfl, rfl⟩
        exact h.get?_rebuilt here
  rw [List.map_map] at perm
  refine columnsInOrder_eq perm ?_
  rw [List.pairwise_iff_getElem]
  intro i j hi hj below
  simp only [List.getElem_map, List.getElem_zipIdx]
  show 0 + i < 0 + j
  omega

/-- All but the columns of the described table. -/
theorem rebuilt_eq (t : Table) (n : ObjectName) (path : String) :
    t.rebuilt n path =
      ⟨n.name, n.render, n.schema.map String.lowerCase, (t.rebuilt n path).columns,
        addSource path [], t.comment, t.distribution, t.storage, t.placementGroup⟩ := by
  refine (withCommentsOf_eq _ _).trans ?_
  have kept : ∀ {α : Type} (clause : Option α), (clause <|> none) = clause := by
    intro α clause
    cases clause <;> rfl
  show Table.mk _ _ _ _ _ _ (t.distribution <|> none) (t.storage <|> none)
    (t.placementGroup <|> none) = _
  rw [kept, kept, kept]
  rfl

/-- The described table is a copy of the original. -/
theorem Plain.isCopy_rebuilt (h : t.Plain n) (path : String) :
    (t.rebuilt n path).IsCopy t := by
  constructor
  · rw [rebuilt_eq, h.name]
  · rw [rebuilt_eq, h.fullName]
  · rw [rebuilt_eq, h.schema]
  · exact h.columnsInOrder_rebuilt
  · exact fun _ _ found => h.get?_rebuilt found
  · rw [rebuilt_eq]
  · rw [rebuilt_eq]
  · rw [rebuilt_eq]
  · rw [rebuilt_eq]

end Table

/-! ## The round trip -/

theorem holdsStatement_tableComment {n : ObjectName} {comment : String} (h : PlainObject n)
    (text : Sql.CommentText comment.toList) :
    Sql.HoldsStatement (tableComment n.render comment) (tableComment n.render comment) := by
  have statement := Statement.statement_tableCommentPassage h text
  refine ⟨?_, Statement.tableCommentPassage h text, statement, statement⟩
  rw [toList_tableComment]
  rfl

theorem holdsStatement_columnComment {n : ObjectName} {column comment : String}
    (h : PlainObject n) (plain : PlainName column) (text : Sql.CommentText comment.toList) :
    Sql.HoldsStatement (columnComment n.render column comment)
      (columnComment n.render column comment) := by
  have statement := Statement.statement_columnCommentPassage h plain text
  refine ⟨?_, Statement.columnCommentPassage h plain text, statement, statement⟩
  rw [toList_columnComment]
  rfl

namespace Table

variable {t : Table} {n : ObjectName} {path : String}

theorem Plain.holdsStatement_createStatement (h : t.Plain n) :
    Sql.HoldsStatement (t.createStatement .none) (t.createStatement .none) := by
  refine ⟨?_, h.creationPassage, h.statement_creationPassage, h.statement_creationPassage⟩
  rw [h.toList_createStatement]
  rfl

/-- Statements that hold nothing else are cut out of their lines as they are. -/
theorem actions_join_lines {stmts : List String}
    (all : ∀ stmt ∈ stmts, Sql.HoldsStatement stmt stmt) :
    Sql.actions (Text.join "\n" stmts) = stmts := by
  let parts := stmts.map fun stmt => (stmt, stmt)
  have texts : parts.map Prod.fst = stmts := List.map_map.trans (List.map_id stmts)
  have statements : parts.map Prod.snd = stmts := List.map_map.trans (List.map_id stmts)
  have each : ∀ e ∈ parts, Sql.HoldsStatement e.1 e.2 := by
    intro e he
    obtain ⟨stmt, hs, rfl⟩ := List.mem_map.1 he
    exact all stmt hs
  have cut : Sql.actions (Text.join "\n" (parts.map Prod.fst)) = parts.map Prod.snd :=
    Sql.actions_join (Sql.isSpacing_of_blank rfl rfl) each
  rwa [texts, statements] at cut

/-- The reconstructed text is cut into the statements that it was put together from. -/
theorem Plain.actions_creation (h : t.Plain n) :
    Sql.actions (t.creation .none) = t.createStatement .none :: t.commentStatements := by
  refine actions_join_lines fun stmt mem => ?_
  rw [commentStatements, h.qualifiedName_eq] at mem
  rcases List.mem_cons.1 mem with rfl | mem
  · exact h.holdsStatement_createStatement
  rcases List.mem_append.1 mem with mem | mem
  · rw [Option.mem_toList, Option.map_eq_some_iff] at mem
    obtain ⟨x, comment, rfl⟩ := mem
    exact holdsStatement_tableComment h.object (h.comment x comment)
  · obtain ⟨c, hc, found⟩ := List.mem_filterMap.1 mem
    obtain ⟨x, comment, rfl⟩ := Option.map_eq_some_iff.1 found
    have plain := h.mem_columnsInOrder hc
    exact holdsStatement_columnComment h.object plain.name (plain.comment x comment)

/-- The statement creates the table as it declares it, and nothing else. -/
theorem Plain.apply_createStatement (h : t.Plain n) (path : String) :
    Draft.empty.apply (t.createStatement .none) path =
      .ok (Draft.ofTable n (((Table.empty n).withSource path).declare n t.declaration),
        .changed) := by
  rw [Draft.apply, h.trimmed_createStatement.trim_eq, Draft.applyTrimmed,
    h.ofChars_createStatement]
  show (do
    let declaration ← Declaration.ofChars (t.createStatement .none).toList
    return (Draft.mentionTable _ n path fun t => t.declare _ declaration, Applied.changed)) = _
  rw [h.ofChars_declaration]
  show Except.ok (Draft.mentionTable _ n path _, _) = _
  rw [Draft.mentionTable_empty, Draft.resolve, show Draft.empty.searchPath = none from rfl,
    ObjectName.resolve_none]

/-- One statement after another, the reconstructed statements build the described table. -/
theorem Plain.changes_creation (h : t.Plain n) (path : String) :
    Draft.Changes path Draft.empty (t.createStatement .none :: t.commentStatements)
      (Draft.ofTable n (t.rebuilt n path)) := by
  refine .cons (h.apply_createStatement path) ?_
  rw [commentStatements, h.qualifiedName_eq]
  let u : Table :=
    { ((Table.empty n).withSource path).declare n t.declaration with comment := t.comment }
  have source : u.sources = addSource path [] := rfl
  refine .append ?_ (Draft.changes_columnComments h.object (fun c hc => h.mem_columnsInOrder hc)
    source)
  cases comment : t.comment with
  | none => exact .nil
  | some x => exact .cons (Draft.apply_tableComment h.object (h.comment x comment) rfl) .nil

end Table

/-- The statements that are reconstructed for a table, as the only file of a catalog, are all
applied, and they give a copy of the table and nothing else. -/
theorem ofFiles_creation {t : Table} {n : ObjectName} (h : t.Plain n) (path : String) :
    let draft := Draft.ofFiles [(path, t.creation .none)]
    let statements := t.commentStatements.length + 1
    (∃ copy : Table, copy.IsCopy t ∧
      draft.catalog.tables = KeyMap.empty.insert (objectKey t.schema t.name) copy) ∧
    draft.catalog.views = KeyMap.empty ∧
    draft.files = [⟨path, statements, statements, 0, 0⟩] := by
  intro draft statements
  have key : objectKey t.schema t.name = n.key := by
    rw [key_eq_objectKey, h.schema, h.name]
  have run := (h.changes_creation path).foldl_ingestStatement (.start path)
  have ingested : draft = (Draft.empty.ingest path (t.creation .none)).1 := rfl
  rw [Draft.ingest, h.actions_creation, run] at ingested
  rw [ingested]
  refine ⟨⟨t.rebuilt n path, h.isCopy_rebuilt path, ?_⟩, rfl, ?_⟩
  · rw [key]
    rfl
  · simp [Draft.ofTable, Draft.empty, FileStats.start, statements]

/-- A table with clauses of all kinds, with types of several words and dimensions, and with comments
that hold quotes, semicolons and what elsewhere starts a comment. -/
def salesOrders : Table where
  name := "Orders"
  fullName := "Sales.Orders"
  schema := some "sales"
  columns := KeyMap.ofList [
    ("id", { Column.declared "Id" "BIGINT" 0 with comment := some "it''s a /* key" }),
    ("placed", Column.declared "Placed" "TIMESTAMP(6) WITH TIME ZONE" 2),
    ("tags", { Column.declared "Tags" "NUMERIC(12,2)[][]" 7 with comment := some "" })]
  sources := []
  comment := some "all; -- orders"
  distribution := some (.byHash ["Id", "Placed"])
  storage := some (.ofClause (storageText [("ORIENTATION", "COLUMN")])
    (optionsText [("ORIENTATION", "COLUMN")]))
  placementGroup := some "g1"

/-- The table is plain, with its columns, comments and clauses. -/
theorem plain_salesOrders : salesOrders.Plain ⟨some "Sales", "Orders"⟩ where
  object := ⟨by decide, fun s hs => Option.some.inj hs ▸ by decide⟩
  name := rfl
  fullName := rfl
  schema := rfl
  nonempty := List.cons_ne_nil _ _
  columns := by
    have id : ColumnType.Plain ⟨⟨"BIGINT".toList, none⟩, [], 0⟩ := by decide
    have placed : ColumnType.Plain ⟨⟨"TIMESTAMP".toList, some "6".toList⟩,
        ["WITH", "TIME", "ZONE"].map fun word => ⟨word.toList, none⟩, 0⟩ := by decide
    have tags : ColumnType.Plain ⟨⟨"NUMERIC".toList, some "12,2".toList⟩, [], 2⟩ := by decide
    have escaped : Sql.CommentText "it''s a /* key".toList :=
      .plain_append (s := "it".toList) rfl
        (.doubled (.plain_append (s := "s a /* key".toList) rfl .nil))
    have values : salesOrders.columns.values =
      [{ Column.declared "Id" "BIGINT" 0 with comment := some "it''s a /* key" },
       Column.declared "Placed" "TIMESTAMP(6) WITH TIME ZONE" 2,
       { Column.declared "Tags" "NUMERIC(12,2)[][]" 7 with comment := some "" }] := rfl
    rw [values]
    simp only [List.forall_mem_cons]
    refine ⟨?_, ?_, ?_, ?_⟩
    · exact ⟨by decide, rfl, ⟨_, id, rfl⟩, fun x hx => Option.some.inj hx ▸ escaped⟩
    · exact ⟨by decide, rfl, ⟨_, placed, rfl⟩, fun x hx => nomatch hx⟩
    · exact ⟨by decide, rfl, ⟨_, tags, rfl⟩, fun x hx => Option.some.inj hx ▸ .nil⟩
    · simp
  distinct := by decide
  distribution := by
    rintro _ ⟨⟩
    exact .byHash (List.cons_ne_nil _ _) (by decide)
  storage := by
    rintro _ ⟨⟩
    exact .options (by decide)
  placementGroup := fun g hg => Option.some.inj hg ▸ by decide
  comment := fun x hx => Option.some.inj hx ▸ .plain_append (s := "all; -- orders".toList) rfl .nil

theorem length_commentStatements_salesOrders : salesOrders.commentStatements.length = 3 := by
  have order : salesOrders.columnsInOrder = salesOrders.columns.values :=
    Table.columnsInOrder_eq (.refl _) (by decide)
  rw [Table.commentStatements, order]
  rfl

/-- A table with all clauses and three comments comes back from its statements. -/
theorem ofFiles_creation_salesOrders :
    salesOrders.Plain ⟨some "Sales", "Orders"⟩ ∧
    let draft := Draft.ofFiles [("orders.sql", salesOrders.creation .none)]
    (∃ copy : Table, copy.IsCopy salesOrders ∧
      draft.catalog.tables = KeyMap.empty.insert "sales.orders" copy) ∧
    draft.catalog.views = KeyMap.empty ∧
    draft.files = [⟨"orders.sql", 4, 4, 0, 0⟩] := by
  refine ⟨plain_salesOrders, ?_⟩
  have key : objectKey salesOrders.schema salesOrders.name = "sales.orders" := rfl
  have trip := ofFiles_creation plain_salesOrders "orders.sql"
  rw [length_commentStatements_salesOrders, key] at trip
  exact trip

end Rollback
