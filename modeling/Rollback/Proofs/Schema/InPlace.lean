import Rollback.Proofs.Schema.DeclarationOrder

/-!
# Statements applied in place

Applying a statement gives a new draft or a failure. Here the same is written as a program that
works on one draft and writes to it field by field, so that what it has written before a failure
would stay there. The two agree, with the draft as it was where the statement fails: everything that
can be wrong with a statement is found out before the first write.

- `InPlace.apply`, `InPlace.ingest`: a statement and a file in place
- `InPlace.run_declareTable_of_ok`: the writes of a CREATE TABLE statement make up its declaration
- `InPlace.run_apply`, `InPlace.run_ingest`: the draft and the report are the same
-/

set_option autoImplicit false

namespace Rollback

/-- A program on one draft. What it has written before a failure stays written. -/
abbrev InPlace := EStateM Failure Draft

namespace InPlace

/-! ## Programs -/

/-- Changes the table of exactly this name, which is there from then on. -/
def changeTable (n : ObjectName) (change : Table → Table) : InPlace Unit :=
  modify fun d => { d with catalog := d.catalog.updateTable n change }

/-- Changes the view of exactly this name, which is there from then on. -/
def changeView (n : ObjectName) (definition : String) (change : View → View) : InPlace Unit :=
  modify fun d => { d with catalog := d.catalog.updateView n definition change }

/-- Writes a clause to a table if there is one. -/
def writeClause {α : Type} (n : ObjectName) (clause : Option α) (write : α → Table → Table) :
    InPlace Unit :=
  match clause with
  | some value => changeTable n (write value)
  | none => pure ()

/-- Changes the columns of the table of exactly this name. -/
def changeColumns (n : ObjectName) (change : KeyMap Column → KeyMap Column) : InPlace Unit :=
  changeTable n fun t => { t with columns := change t.columns }

/-- The columns with a known one moved. -/
def placeColumn (columns : KeyMap Column) (placed : String × Nat) : KeyMap Column :=
  match columns.get? placed.1 with
  | some c => columns.insert placed.1 { c with ordinal := placed.2 }
  | none => columns

/-- Applies a CREATE TABLE statement: it is read as a whole before the table is looked up. -/
def declareTable (stmt : List Char) (name : ObjectName) (source : String) : InPlace Unit := do
  let declaration ← ofExcept (Declaration.ofChars stmt)
  let d ← get
  let n := d.resolve name
  changeTable n id
  changeTable n fun t => { t with name := n.name }
  changeTable n fun t => { t with fullName := n.render }
  changeTable n fun t => t.withSource source
  writeClause n declaration.distribution fun value t => { t with distribution := some value }
  writeClause n declaration.storage fun value t => { t with storage := some value }
  writeClause n declaration.placementGroup fun value t => { t with placementGroup := some value }
  (Table.numbered declaration.columns).forM fun column =>
    changeColumns n fun columns => Table.declareColumns columns [column]
  let d ← get
  let others := Table.undeclaredKeys (d.catalog.tableOrEmpty n).columns
    (Table.declaredKeys declaration)
  (others.zipIdx declaration.columns.length).forM fun placed =>
    changeColumns n fun columns => placeColumn columns placed

/-- Applies a statement of a file and tells what it did. -/
def apply (stmt source : String) : InPlace Applied := do
  let chars := Text.trim stmt.toList
  let text := String.ofList chars
  let d ← get
  match Statement.ofChars chars with
  | .setSearchPath schema =>
    modify fun d => { d with searchPath := some schema.lowerCase }
    return .changed
  | .createTable name =>
    declareTable chars name source
    return .changed
  | .commentOnTable table comment =>
    changeTable (d.resolve table) fun t => { t with comment }
    changeTable (d.resolve table) fun t => t.withSource source
    return .changed
  | .commentOnColumn table column comment =>
    if d.catalog.views.contains (d.resolve table).key then
      changeView (d.resolve table) text fun v => v.append text
      changeView (d.resolve table) text fun v => v.withSource source
      return .changed
    changeTable (d.resolve table) fun t => t.withSource source
    changeTable (d.resolve table) fun t => t.withColumn column fun c => { c with comment }
    return .changed
  | .commentOnView view _ =>
    if d.catalog.views.contains (d.resolve view).key then
      changeView (d.resolve view) text fun v => v.append text
    changeView (d.resolve view) text fun v => v.withSource source
    return .changed
  | .createView name =>
    changeView (d.resolve name) text fun v => { v with definition := text }
    changeView (d.resolve name) text fun v => v.withSource source
    return .changed
  | _ => return .ignored

/-- The statistics with one more statement that was applied. -/
def count (stats : FileStats) : Applied → FileStats
  | .changed => { stats with statements := stats.statements + 1, applied := stats.applied + 1 }
  | .ignored => { stats with statements := stats.statements + 1, ignored := stats.ignored + 1 }

/-- The statistics with one more statement that failed. -/
def countFailure (stats : FileStats) : FileStats :=
  { stats with statements := stats.statements + 1, parseErrors := stats.parseErrors + 1 }

/-- Applies one more statement of a file; a failure is only counted. -/
def ingestStatement (path : String) (stats : FileStats) (stmt : String) : InPlace FileStats :=
  tryCatch (apply stmt path >>= fun did => pure (count stats did)) fun _ =>
    pure (countFailure stats)

/-- Applies the statements of a file and tells how many of them did what. -/
def ingest (path script : String) : InPlace FileStats := do
  let stats ← (Sql.actions script).foldlM (ingestStatement path) (.start path)
  modify fun d => { d with catalog := d.catalog.withChecksum path script.crc32 }
  modify fun d => { d with files := d.files ++ [stats] }
  return stats

/-! ## Writes to one object -/

/-- After a first part that succeeds, the second one goes on from its draft. -/
theorem run_bind_of_ok {α β : Type} {x : InPlace α} {f : α → InPlace β} {d e : Draft} {a : α}
    (h : x.run d = .ok a e) : (x >>= f).run d = (f a).run e := by
  rw [EStateM.run_bind, h]

section

variable {d : Draft} {n : ObjectName}

/-- The draft with a table put at a name. -/
def putTable (d : Draft) (n : ObjectName) (t : Table) : Draft :=
  { d with catalog.tables := d.catalog.tables.insert n.key t }

/-- The draft with a view put at a name. -/
def putView (d : Draft) (n : ObjectName) (v : View) : Draft :=
  { d with catalog.views := d.catalog.views.insert n.key v }

theorem tableOrEmpty_putTable (t : Table) : (putTable d n t).catalog.tableOrEmpty n = t := by
  rw [Catalog.tableOrEmpty, putTable, KeyMap.get?_insert_self]
  rfl

theorem viewOrDefined_putView (v : View) (definition : String) :
    (putView d n v).catalog.viewOrDefined n definition = v := by
  rw [Catalog.viewOrDefined, putView, KeyMap.get?_insert_self]
  rfl

@[simp] theorem putTable_putTable (t u : Table) :
    putTable (putTable d n t) n u = putTable d n u :=
  congrArg (fun tables => { d with catalog.tables := tables })
    (KeyMap.insert_insert d.catalog.tables n.key t u)

@[simp] theorem putView_putView (v w : View) : putView (putView d n v) n w = putView d n w :=
  congrArg (fun views => { d with catalog.views := views })
    (KeyMap.insert_insert d.catalog.views n.key v w)

theorem run_changeTable (change : Table → Table) :
    (changeTable n change).run d = .ok () (putTable d n (change (d.catalog.tableOrEmpty n))) := rfl

theorem run_changeView (definition : String) (change : View → View) :
    (changeView n definition change).run d =
      .ok () (putView d n (change (d.catalog.viewOrDefined n definition))) := rfl

/-- Once a table is there, a change replaces it. -/
theorem run_changeTable_putTable (t : Table) (change : Table → Table) :
    (changeTable n change).run (putTable d n t) = .ok () (putTable d n (change t)) := by
  rw [run_changeTable, tableOrEmpty_putTable, putTable_putTable]

/-- A change of a view that was put in replaces it. -/
theorem run_changeView_putView (v : View) (definition : String) (change : View → View) :
    (changeView n definition change).run (putView d n v) = .ok () (putView d n (change v)) := by
  rw [run_changeView, viewOrDefined_putView, putView_putView]

/-- A clause is written if there is one. -/
theorem run_writeClause_putTable {α : Type} (t : Table) (clause : Option α)
    (write : α → Table → Table) :
    (writeClause n clause write).run (putTable d n t) =
      .ok () (putTable d n ((clause.map write).getD id t)) := by
  cases clause with
  | none => rfl
  | some value => exact run_changeTable_putTable t (write value)

/-- Changes of the columns one after another are one change. -/
theorem run_forM_changeColumns {α : Type} (change : KeyMap Column → α → KeyMap Column)
    (xs : List α) : ∀ t : Table,
      (xs.forM fun x => changeColumns n fun columns => change columns x).run (putTable d n t) =
        .ok () (putTable d n { t with columns := xs.foldl change t.columns }) := by
  induction xs with
  | nil => exact fun t => rfl
  | cons x xs ih =>
    intro t
    exact (run_bind_of_ok (run_changeTable_putTable t _)).trans (ih _)

end

/-! ## Columns -/

/-- Placing one column leaves all others. -/
theorem get?_placeColumn (columns : KeyMap Column) (placed : String × Nat) (k : String) :
    (placeColumn columns placed).get? k = (columns.get? k).map fun c =>
      if k = placed.1 then { c with ordinal := placed.2 } else c := by
  rw [placeColumn]
  by_cases same : k = placed.1
  · subst same
    cases found : columns.get? placed.1 with
    | none => exact found
    | some c => simp
  · split
    · simp [KeyMap.get?_insert_of_ne _ _ same, same]
    · simp [same]

/-- Columns that are moved one by one are where all of them are put at once. -/
theorem foldl_placeColumn {keys : List String} (distinct : keys.Nodup) :
    ∀ (first : Nat) (columns : KeyMap Column),
      (keys.zipIdx first).foldl placeColumn columns = Table.placeColumns columns first keys := by
  induction keys with
  | nil =>
    intro first columns
    refine KeyMap.ext_get? fun k => ?_
    rw [Table.get?_placeColumns]
    simp
  | cons key keys ih =>
    intro first columns
    obtain ⟨new, others⟩ := List.nodup_cons.1 distinct
    refine KeyMap.ext_get? fun k => ?_
    rw [List.zipIdx_cons, List.foldl_cons, ih others, Table.get?_placeColumns,
      Table.get?_placeColumns, get?_placeColumn, Option.map_map]
    refine Option.map_congr fun c _ => ?_
    rw [Function.comp_apply, List.idxOf?_cons]
    by_cases same : k = key
    · -- The key comes only once, so its column is not moved again.
      subst same
      simp [List.idxOf?_eq_none_iff.2 new]
    · rw [if_neg same, if_neg (by simpa using Ne.symm same)]
      cases keys.idxOf? k with
      | none => rfl
      | some offset => simp [Nat.add_assoc, Nat.add_comm 1]

/-! ## Statements -/

/-- The writes of a CREATE TABLE statement make up its declaration. -/
theorem run_declareTable_of_ok {stmt : List Char} {declaration : Declaration}
    (read : Declaration.ofChars stmt = .ok declaration) (name : ObjectName) (source : String)
    (d : Draft) : (declareTable stmt name source).run d =
      .ok () (d.mentionTable name source fun t => t.declare (d.resolve name) declaration) := by
  have write := fun t f => @run_changeTable_putTable d (d.resolve name) t f
  have parsed : (ofExcept (Declaration.ofChars stmt) : InPlace Declaration).run d =
      .ok declaration d := by rw [read]; rfl
  refine (run_bind_of_ok parsed).trans ?_
  refine (run_bind_of_ok (EStateM.run_get d)).trans ?_
  refine (run_bind_of_ok (run_changeTable id)).trans ?_
  refine (run_bind_of_ok (write _ _)).trans ?_
  refine (run_bind_of_ok (write _ _)).trans ?_
  refine (run_bind_of_ok (write _ _)).trans ?_
  refine (run_bind_of_ok (run_writeClause_putTable _ _ _)).trans ?_
  refine (run_bind_of_ok (run_writeClause_putTable _ _ _)).trans ?_
  refine (run_bind_of_ok (run_writeClause_putTable _ _ _)).trans ?_
  refine (run_bind_of_ok (run_forM_changeColumns _ _ _)).trans ?_
  refine (run_bind_of_ok (EStateM.run_get _)).trans ?_
  refine (run_forM_changeColumns _ _ _).trans ?_
  rw [tableOrEmpty_putTable,
    foldl_placeColumn (Table.nodup_of_precedes (Table.pairwise_undeclaredKeys _ _))]
  obtain ⟨columns, distribution, storage, placementGroup⟩ := declaration
  cases distribution <;> cases storage <;> cases placementGroup <;> rfl

/-- A declaration that is malformed fails before it writes. -/
theorem run_declareTable_of_error {stmt : List Char} {failure : Failure}
    (read : Declaration.ofChars stmt = .error failure) (name : ObjectName) (source : String)
    (d : Draft) : (declareTable stmt name source).run d = .error failure d := by
  rw [declareTable, read]
  rfl

/-- What a program has as its result that fails without a trace. -/
def result (d : Draft) : Except Failure (Draft × Applied) → EStateM.Result Failure Draft Applied
  | .ok (e, did) => .ok did e
  | .error failure => .error failure d

/-- In place, a statement does and reports the same; where it fails, it leaves no trace. -/
theorem run_apply (stmt source : String) (d : Draft) :
    (apply stmt source).run d = result d (d.apply stmt source) := by
  rw [apply, Draft.apply, Draft.applyTrimmed]
  refine (run_bind_of_ok (EStateM.run_get d)).trans ?_
  -- The first write puts the object there, and each one after it replaces it.
  cases Statement.ofChars (Text.trim stmt.toList) with
  | setSearchPath schema => rfl
  | createTable name =>
    cases read : Declaration.ofChars (Text.trim stmt.toList) with
    | ok declaration => exact run_bind_of_ok (run_declareTable_of_ok read name source d)
    | error failure =>
      show EStateM.run (_ >>= _) d = _
      rw [EStateM.run_bind, run_declareTable_of_error read]
      rfl
  | commentOnTable table comment =>
    refine (run_bind_of_ok (run_changeTable _)).trans ?_
    exact run_bind_of_ok (run_changeTable_putTable _ _)
  | commentOnColumn table column comment =>
    simp only [Draft.commentInView?]
    split
    · refine (run_bind_of_ok (run_changeView _ _)).trans ?_
      exact run_bind_of_ok (run_changeView_putView _ _ _)
    · refine (run_bind_of_ok (run_changeTable _)).trans ?_
      exact run_bind_of_ok (run_changeTable_putTable _ _)
  | commentOnView view comment =>
    simp only [Draft.commentInView?]
    split
    · refine (run_bind_of_ok (run_changeView _ _)).trans ?_
      exact run_bind_of_ok (run_changeView_putView _ _ _)
    · exact run_bind_of_ok (run_changeView _ _)
  | createView name =>
    refine (run_bind_of_ok (run_changeView _ _)).trans ?_
    exact run_bind_of_ok (run_changeView_putView _ _ _)
  | _ => rfl

/-! ## Files -/

theorem run_tryCatch_of_ok {α : Type} {x : InPlace α} {handle : Failure → InPlace α} {d e : Draft}
    {a : α} (h : x.run d = .ok a e) : (tryCatch x handle).run d = .ok a e := by
  show EStateM.tryCatch x handle d = _
  rw [EStateM.tryCatch, show x d = _ from h]

/-- What was written before a failure is there when it is handled. -/
theorem run_tryCatch_of_error {α : Type} {x : InPlace α} {handle : Failure → InPlace α}
    {d e : Draft} {failure : Failure} (h : x.run d = .error failure e) :
    (tryCatch x handle).run d = (handle failure).run e := by
  show EStateM.tryCatch x handle d = _
  rw [EStateM.tryCatch, show x d = _ from h]
  rfl

/-- In place, a statement of a file is counted in the same way. -/
theorem run_ingestStatement (path : String) (stats : FileStats) (stmt : String) (d : Draft) :
    (ingestStatement path stats stmt).run d =
      .ok (Draft.ingestStatement path (d, stats) stmt).2
        (Draft.ingestStatement path (d, stats) stmt).1 := by
  rw [ingestStatement, Draft.ingestStatement]
  have ran := run_apply stmt path d
  cases applied : d.apply stmt path with
  | error failure =>
    rw [applied] at ran
    have failed : (apply stmt path >>= fun did => pure (count stats did)).run d =
        .error failure d := by
      rw [EStateM.run_bind, ran]
      rfl
    exact run_tryCatch_of_error failed
  | ok after =>
    obtain ⟨e, did⟩ := after
    rw [applied] at ran
    have counted : (apply stmt path >>= fun did => pure (count stats did)).run d =
        .ok (count stats did) e := run_bind_of_ok ran
    rw [run_tryCatch_of_ok counted]
    cases did <;> rfl

/-- A file is taken in place like statement by statement. -/
theorem run_foldlM_ingestStatement (path : String) (stmts : List String) :
    ∀ (stats : FileStats) (d : Draft),
      (stmts.foldlM (ingestStatement path) stats).run d =
        .ok (stmts.foldl (Draft.ingestStatement path) (d, stats)).2
          (stmts.foldl (Draft.ingestStatement path) (d, stats)).1 := by
  induction stmts with
  | nil => exact fun stats d => rfl
  | cons stmt rest ih =>
    intro stats d
    rw [List.foldlM_cons]
    exact (run_bind_of_ok (run_ingestStatement path stats stmt d)).trans (ih _ _)

/-- In place, a file gives the same draft and the same statistics. -/
theorem run_ingest (path script : String) (d : Draft) :
    (ingest path script).run d = .ok (d.ingest path script).2 (d.ingest path script).1 := by
  have all := run_foldlM_ingestStatement path (Sql.actions script) (.start path) d
  rw [ingest, Draft.ingest, run_bind_of_ok all]
  generalize (Sql.actions script).foldl (Draft.ingestStatement path) (d, .start path) = last
  rw [run_bind_of_ok (EStateM.run_modify _ _), run_bind_of_ok (EStateM.run_modify _ _)]
  rfl

end InPlace

/--
A statement that fails or is ignored leaves no trace. Applied in place, a statement reports the same
as otherwise and leaves the same draft; if it fails, the draft is the one before it, and it is if
the statement is ignored. A file is taken in place as well, whatever its statements: each of them is
counted once, as applied, ignored or failed; one entry of statistics is added; the checksum of the
file and no other is set. Which of the statements change a draft does not depend on the draft, and
those alone give the same tables, views and search path one after another.
-/
theorem ingest_changing_only (d : Draft) :
    (∀ stmt source,
      (∀ did e, (InPlace.apply stmt source).run d = .ok did e ↔
        d.apply stmt source = .ok (e, did)) ∧
      (∀ failure e, (InPlace.apply stmt source).run d = .error failure e ↔
        d.apply stmt source = .error failure ∧ e = d) ∧
      (∀ e, d.apply stmt source = .ok (e, .ignored) → e = d) ∧
      ∀ (other : Draft) elsewhere, other.report stmt elsewhere = d.report stmt source) ∧
    ∀ path script, ∃ after stats e,
      d.ingest path script = (after, stats) ∧
      (InPlace.ingest path script).run d = .ok stats after ∧
      stats.path = path ∧ stats.statements = (Sql.actions script).length ∧
      stats.statements = stats.applied + stats.ignored + stats.parseErrors ∧
      after.files = d.files ++ [stats] ∧
      (∀ k, after.catalog.metadata.checksums.get? k =
        if k = path then some script.crc32 else d.catalog.metadata.checksums.get? k) ∧
      Draft.Changes path d ((Sql.actions script).filter fun stmt =>
        d.outcome path stmt == some .changed) e ∧
      after.catalog.tables = e.catalog.tables ∧ after.catalog.views = e.catalog.views ∧
      after.searchPath = e.searchPath := by
  refine ⟨fun stmt source => ⟨fun did e => ?_, fun failure e => ?_, fun e => Draft.eq_of_ignored,
    fun other elsewhere => Draft.report_eq other d stmt elsewhere source⟩, fun path script => ?_⟩
  · rw [InPlace.run_apply]
    cases d.apply stmt source with
    | ok after => simp [InPlace.result, Prod.ext_iff, and_comm]
    | error failure => simp [InPlace.result]
  · rw [InPlace.run_apply]
    cases d.apply stmt source with
    | ok after => simp [InPlace.result]
    | error failure => simp [InPlace.result, eq_comm]
  · obtain ⟨e, changes, run⟩ := Draft.exists_changes path (Sql.actions script) d (.start path)
    obtain ⟨metadata, files⟩ := d.records_ingest path script
    let stats := (FileStats.start path).counting ((Sql.actions script).map (d.outcome path))
    have whole : d.ingest path script =
        ({ e with
            catalog := e.catalog.withChecksum path script.crc32
            files := e.files ++ [stats] }, stats) := by
      rw [Draft.ingest, run]
    have total : stats.statements = (Sql.actions script).length := by
      simp [stats, FileStats.counting, FileStats.start]
    have sum : stats.statements = stats.applied + stats.ignored + stats.parseErrors := by
      simpa [stats, FileStats.counting, FileStats.start] using
        length_eq_count ((Sql.actions script).map (d.outcome path))
    have inPlace := InPlace.run_ingest path script d
    rw [whole] at metadata files inPlace ⊢
    refine ⟨_, _, e, rfl, inPlace, rfl, total, sum, files, fun k => ?_, changes, rfl, rfl, rfl⟩
    rw [metadata, KeyMap.get?_insert]

/-- A declaration without its last parenthesis and a statement that is no change, between others. -/
theorem ingest_changing_only_mixed :
    let script :=
      "CREATE TABLE t (a INT); CREATE TABLE u (b INT; DROP TABLE v; COMMENT ON TABLE t IS 'x'"
    let d := Draft.empty
    d.apply "DROP TABLE v;" "t.sql" = .ok (d, .ignored) ∧
      (d.ingest "t.sql" script).2 = ⟨"t.sql", 4, 2, 1, 1⟩ ∧
      ∃ e, Draft.Changes "t.sql" d ["CREATE TABLE t (a INT);", "COMMENT ON TABLE t IS 'x'"] e ∧
        (d.ingest "t.sql" script).1.catalog.tables = e.catalog.tables := by
  intro script d
  obtain ⟨statement, file⟩ := ingest_changing_only d
  have ignored : ∃ e, d.apply "DROP TABLE v;" "t.sql" = .ok (e, .ignored) := by
    have outcome : d.outcome "t.sql" "DROP TABLE v;" = some .ignored := by decide +kernel
    cases applied : d.apply "DROP TABLE v;" "t.sql" with
    | error failure =>
      rw [Draft.outcome_of_error applied] at outcome
      cases outcome
    | ok after =>
      rw [Draft.outcome_of_ok applied] at outcome
      exact ⟨after.1, by rw [← Option.some.inj outcome]⟩
  obtain ⟨e, applied⟩ := ignored
  have same := (statement "DROP TABLE v;" "t.sql").2.2.1 e applied
  obtain ⟨after, stats, f, run, -, -, -, -, -, -, changes, tables, -⟩ := file "t.sql" script
  have changing : ((Sql.actions script).filter fun stmt =>
      d.outcome "t.sql" stmt == some .changed) =
        ["CREATE TABLE t (a INT);", "COMMENT ON TABLE t IS 'x'"] := by decide +kernel
  rw [changing] at changes
  refine ⟨same ▸ applied, by decide +kernel, f, changes, ?_⟩
  rw [run]
  exact tables

end Rollback
