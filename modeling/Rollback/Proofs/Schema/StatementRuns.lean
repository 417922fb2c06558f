import Rollback.Schema.Draft

/-!
# Runs of statements

A file is read statement by statement. What a statement does, and whether it is malformed, does not
depend on the draft that it is applied to; so a file changes a draft as those of its statements do
that change one.

- `Draft.report_eq`: a statement does the same to every draft
- `Draft.effect_applyTrimmed`: all that a statement can do to a draft
- `Draft.foldl_ingestStatement_induction`: what every statement preserves holds after all of them
- `Draft.Changes`: statements that each change a draft
- `Draft.exists_changes`: the statements of a file that change the draft, and the counts of all
- `Draft.records_ingest`: what is recorded about files
-/

set_option autoImplicit false

namespace Rollback

/-- The statistics with more statements; a malformed one did nothing. -/
def FileStats.counting (stats : FileStats) (outcomes : List (Option Applied)) : FileStats :=
  { stats with
    statements := stats.statements + outcomes.length
    applied := stats.applied + outcomes.count (some .changed)
    ignored := stats.ignored + outcomes.count (some .ignored)
    parseErrors := stats.parseErrors + outcomes.count none }

theorem FileStats.counting_append (stats : FileStats) (first rest : List (Option Applied)) :
    (stats.counting first).counting rest = stats.counting (first ++ rest) := by
  simp only [counting, List.length_append, List.count_append, Nat.add_assoc]

/-- Every statement is counted once more, for what it did. -/
theorem length_eq_count (outcomes : List (Option Applied)) :
    outcomes.length = outcomes.count (some .changed) + outcomes.count (some .ignored) +
      outcomes.count none := by
  induction outcomes with
  | nil => rfl
  | cons outcome rest ih =>
    rw [List.length_cons, ih, List.count_cons, List.count_cons, List.count_cons]
    rcases outcome with _ | _ | _ <;> simp <;> omega

namespace Draft

variable {d e f : Draft} {path source : String} {did : Applied}

/-! ## Reports -/

/-- What a statement does to a draft or what is wrong with it, without the draft after it. -/
def report (d : Draft) (stmt source : String) : Except Failure Applied :=
  (d.apply stmt source).map Prod.snd

/-- A statement does the same to every draft and in every file. -/
theorem report_eq (d e : Draft) (stmt source other : String) :
    d.report stmt source = e.report stmt other := by
  rw [report, report, apply, apply, applyTrimmed, applyTrimmed]
  cases Statement.ofChars (Text.trim stmt.toList) with
  | createTable name => cases Declaration.ofChars (Text.trim stmt.toList) <;> rfl
  | _ => rfl

/-- What a statement of a file does to a draft; nothing if it is malformed. -/
def outcome (d : Draft) (path stmt : String) : Option Applied :=
  (d.report stmt path).toOption

theorem outcome_eq (d e : Draft) (path : String) : d.outcome path = e.outcome path := by
  funext stmt
  rw [outcome, outcome, report_eq d e stmt path path]

theorem outcome_of_ok {stmt : String} (h : d.apply stmt path = .ok (e, did)) :
    d.outcome path stmt = some did := by
  rw [outcome, report, h]
  rfl

theorem outcome_of_error {stmt : String} {failure : Failure}
    (h : d.apply stmt path = .error failure) : d.outcome path stmt = none := by
  rw [outcome, report, h]
  rfl

/-! ## Effects -/

/-- What a statement does to a draft, and whether that counts as a change. -/
inductive Effect (d : Draft) (stmt : List Char) (source : String) : Draft → Applied → Prop where
  | searchPath {schema : String} (kind : Statement.ofChars stmt = .setSearchPath schema) :
    Effect d stmt source { d with searchPath := some schema.lowerCase } .changed
  | table {name : ObjectName} {declaration : Declaration}
      (kind : Statement.ofChars stmt = .createTable name)
      (read : Declaration.ofChars stmt = .ok declaration) :
    Effect d stmt source
      (d.mentionTable name source fun t => t.declare (d.resolve name) declaration) .changed
  | tableComment {table : ObjectName} {comment : Option String}
      (kind : Statement.ofChars stmt = .commentOnTable table comment) :
    Effect d stmt source (d.mentionTable table source fun t => { t with comment }) .changed
  /-- A comment on a column of something that is no view. -/
  | columnComment {table : ObjectName} {column : String} {comment : Option String}
      (kind : Statement.ofChars stmt = .commentOnColumn table column comment)
      (unknown : d.catalog.views.get? (d.resolve table).key = none) :
    Effect d stmt source
      (d.mentionTable table source fun t => t.withColumn column fun c => { c with comment })
        .changed
  /-- A comment on a view or on a column of one. -/
  | commentInView {view : ObjectName} {v : View}
      (kind : (∃ comment, Statement.ofChars stmt = .commentOnView view comment) ∨
        ∃ column comment, Statement.ofChars stmt = .commentOnColumn view column comment)
      (known : d.catalog.views.get? (d.resolve view).key = some v) :
    Effect d stmt source
      (d.mentionView view (String.ofList stmt) source fun v => v.append (String.ofList stmt))
        .changed
  /-- A comment on a view that is not known otherwise. -/
  | viewComment {view : ObjectName} {comment : Option String}
      (kind : Statement.ofChars stmt = .commentOnView view comment)
      (unknown : d.catalog.views.get? (d.resolve view).key = none) :
    Effect d stmt source (d.mentionView view (String.ofList stmt) source id) .changed
  | view {name : ObjectName} (kind : Statement.ofChars stmt = .createView name) :
    Effect d stmt source (d.mentionView name (String.ofList stmt) source fun v =>
      { v with definition := String.ofList stmt }) .changed
  | ignored (other : ∀ name, Statement.ofChars stmt ≠ .createView name) :
    Effect d stmt source d .ignored

/-- A comment is kept in a view that is known. -/
theorem effect_commentInView {stmt : List Char} {view : ObjectName} {other : Draft}
    (kind : (∃ comment, Statement.ofChars stmt = .commentOnView view comment) ∨
      ∃ column comment, Statement.ofChars stmt = .commentOnColumn view column comment)
    (unknown : d.catalog.views.get? (d.resolve view).key = none →
      Effect d stmt source other .changed) :
    Effect d stmt source ((d.commentInView? view (String.ofList stmt) source).getD other)
      .changed := by
  rw [commentInView?, KeyMap.contains]
  cases known : d.catalog.views.get? (d.resolve view).key with
  | none => exact unknown known
  | some v => exact .commentInView kind known

/-- A statement that is not malformed does one of these things. -/
theorem effect_applyTrimmed {stmt : List Char} (h : d.applyTrimmed stmt source = .ok (e, did)) :
    Effect d stmt source e did := by
  rw [applyTrimmed] at h
  cases kind : Statement.ofChars stmt with
  | setSearchPath schema =>
    rw [kind] at h
    cases h
    exact .searchPath kind
  | createTable name =>
    cases read : Declaration.ofChars stmt with
    | error failure =>
      rw [kind, read] at h
      cases h
    | ok declaration =>
      rw [kind, read] at h
      cases h
      exact .table kind read
  | commentOnTable table comment =>
    rw [kind] at h
    cases h
    exact .tableComment kind
  | commentOnColumn table column comment =>
    rw [kind] at h
    cases h
    exact effect_commentInView (.inr ⟨column, comment, kind⟩) (.columnComment kind)
  | commentOnView view comment =>
    rw [kind] at h
    cases h
    exact effect_commentInView (.inl ⟨comment, kind⟩) (.viewComment kind)
  | createView name =>
    rw [kind] at h
    cases h
    exact .view kind
  | _ =>
    rw [kind] at h
    cases h
    exact .ignored fun name same => by cases kind.symm.trans same

/-- A statement that is ignored leaves the draft as it was. -/
theorem eq_of_ignored {stmt : String} (h : d.apply stmt source = .ok (e, .ignored)) : e = d := by
  cases effect_applyTrimmed h
  rfl

/-- No statement changes what is recorded about files. -/
theorem records_apply {stmt : String} (h : d.apply stmt source = .ok (e, did)) :
    e.catalog.metadata = d.catalog.metadata ∧ e.files = d.files := by
  cases effect_applyTrimmed h <;> exact ⟨rfl, rfl⟩

/-! ## Statements one after another -/

/-- What every statement preserves holds after the statements of a file. -/
theorem foldl_ingestStatement_induction {P : Draft → Prop} (path : String)
    (step : ∀ {d e : Draft} {stmt : String} {did : Applied},
      P d → d.apply stmt path = .ok (e, did) → P e) (stmts : List String) :
    ∀ state : Draft × FileStats, P state.1 → P (stmts.foldl (ingestStatement path) state).1 := by
  induction stmts with
  | nil => exact fun state h => h
  | cons stmt rest ih =>
    intro state h
    refine ih _ ?_
    rw [ingestStatement]
    split
    · rename_i applied
      exact step h applied
    · rename_i applied
      exact step h applied
    · exact h

/-- A file adds its own checksum to what is recorded, and its statistics to those of the others. -/
theorem records_ingest (d : Draft) (path script : String) :
    (d.ingest path script).1.catalog.metadata =
        { d.catalog.metadata with
          checksums := d.catalog.metadata.checksums.insert path script.crc32 } ∧
      (d.ingest path script).1.files = d.files ++ [(d.ingest path script).2] := by
  have kept := foldl_ingestStatement_induction
    (P := fun e => e.catalog.metadata = d.catalog.metadata ∧ e.files = d.files) path
    (fun before applied => ⟨(records_apply applied).1.trans before.1,
      (records_apply applied).2.trans before.2⟩) (Sql.actions script) (d, .start path) ⟨rfl, rfl⟩
  simp only [ingest, Catalog.withChecksum]
  generalize (Sql.actions script).foldl (ingestStatement path) (d, .start path) = last at kept ⊢
  rw [kept.1, kept.2]
  exact ⟨rfl, rfl⟩

/-- Statements of a file that each change a draft, and the draft after all of them. -/
inductive Changes (path : String) : Draft → List String → Draft → Prop where
  | nil {d : Draft} : Changes path d [] d
  | cons {d e f : Draft} {stmt : String} {stmts : List String}
      (first : d.apply stmt path = .ok (e, .changed)) (others : Changes path e stmts f) :
      Changes path d (stmt :: stmts) f

theorem Changes.append {a b : List String} (first : Changes path d a e)
    (second : Changes path e b f) : Changes path d (a ++ b) f := by
  induction first with
  | nil => exact second
  | cons head _ ih => exact .cons head (ih second)

/-- All of the statements count as applied. -/
theorem Changes.foldl_ingestStatement {stmts : List String} (h : Changes path d stmts e) :
    ∀ stats : FileStats, stmts.foldl (ingestStatement path) (d, stats) =
      (e, { stats with
        statements := stats.statements + stmts.length
        applied := stats.applied + stmts.length }) := by
  induction h with
  | nil => exact fun _ => rfl
  | @cons d e f stmt stmts first _ ih =>
    intro stats
    have step : ingestStatement path (d, stats) stmt =
        (e, { stats with statements := stats.statements + 1, applied := stats.applied + 1 }) := by
      rw [ingestStatement, first]
    rw [List.foldl_cons, step, ih, List.length_cons]
    simp only [Nat.add_assoc, Nat.add_comm 1]

/-- The statements of a file change a draft as those of them do that change one. -/
theorem exists_changes (path : String) (stmts : List String) :
    ∀ (d : Draft) (stats : FileStats), ∃ e,
      Changes path d (stmts.filter fun stmt => d.outcome path stmt == some .changed) e ∧
        stmts.foldl (ingestStatement path) (d, stats) =
          (e, stats.counting (stmts.map (d.outcome path))) := by
  induction stmts with
  | nil => exact fun d stats => ⟨d, .nil, rfl⟩
  | cons stmt rest ih =>
    intro d stats
    rw [List.foldl_cons, List.map_cons, ingestStatement]
    have counted := fun outcome =>
      FileStats.counting_append stats [outcome] (rest.map (d.outcome path))
    cases applied : d.apply stmt path with
    | error failure =>
      have none := outcome_of_error applied
      obtain ⟨e, changes, run⟩ := ih d (stats.counting [Option.none])
      refine ⟨e, ?_, ?_⟩
      · rwa [List.filter_cons_of_neg (by simp [none])]
      · rw [none]
        exact run.trans (congrArg (Prod.mk e) (counted _))
    | ok after =>
      obtain ⟨e, did⟩ := after
      have some := outcome_of_ok applied
      obtain ⟨f, changes, run⟩ := ih e (stats.counting [Option.some did])
      rw [outcome_eq e d] at changes run
      cases did with
      | changed =>
        refine ⟨f, ?_, ?_⟩
        · rw [List.filter_cons_of_pos (by simp [some])]
          exact .cons applied changes
        · rw [some]
          exact run.trans (congrArg (Prod.mk f) (counted _))
      | ignored =>
        obtain rfl := eq_of_ignored applied
        refine ⟨f, ?_, ?_⟩
        · rwa [List.filter_cons_of_neg (by simp [some])]
        · rw [some]
          exact run.trans (congrArg (Prod.mk f) (counted _))

end Draft

end Rollback
