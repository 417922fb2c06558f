import Rollback.Proofs.Schema.StoredViews

/-!
# Tables under the keys of views

A draft keeps tables and views apart, so that one key can have both. A comment on a column makes a
table up as long as no view is known under the key, and the table stays when the view comes later.
So it depends on the order of the statements whether a view has such a table beside it.

- `Draft.tableMade?`, `Draft.viewMade?`: the table or the view that there is after a statement
- `Draft.hasTable_call`, `Draft.hasView_call`: what one statement does to the keys
- `Draft.afterCalls_iff_once`: what one statement brings about and none takes back
- `Draft.shadowed_iff`: the runs that leave a table and a view under one key
-/

set_option autoImplicit false

namespace Rollback

namespace Draft

variable {d : Draft} {stmt : List Char} {key : String}

/-- The table that a statement leaves in a draft, with its schema; a comment on a column of a known
view leaves none. -/
def tableMade? (d : Draft) (stmt : List Char) : Option ObjectName :=
  match Statement.ofChars stmt with
  | .createTable n =>
    match Declaration.ofChars (Text.trim stmt) with
    | .ok _ => some (d.resolve n)
    | .error _ => none
  | .commentOnTable n _ => some (d.resolve n)
  | .commentOnColumn n _ _ =>
    if d.catalog.views.contains (d.resolve n).key then none else some (d.resolve n)
  | _ => none

/-- The view that a statement leaves in a draft, with its schema. -/
def viewMade? (d : Draft) (stmt : List Char) : Option ObjectName :=
  match Statement.ofChars stmt with
  | .createView n => some (d.resolve n)
  | .commentOnView n _ => some (d.resolve n)
  | _ => none

/-- A statement leaves a table under a key. -/
def MakesTable (key : String) (d : Draft) (stmt : List Char) : Prop :=
  (d.tableMade? stmt).map ObjectName.key = some key

/-- A statement leaves a view under a key. -/
def MakesView (key : String) (d : Draft) (stmt : List Char) : Prop :=
  (d.viewMade? stmt).map ObjectName.key = some key

/-- There is a table under a key. -/
def HasTable (key : String) (d : Draft) : Prop :=
  d.catalog.tables.contains key = true

/-- There is a view under a key. -/
def HasView (key : String) (d : Draft) : Prop :=
  d.catalog.views.contains key = true

instance (key : String) (d : Draft) : Decidable (HasTable key d) :=
  inferInstanceAs (Decidable (_ = true))

instance (key : String) (d : Draft) : Decidable (HasView key d) :=
  inferInstanceAs (Decidable (_ = true))

/-! ## One statement -/

theorem contains_insert_iff {α : Type} (m : KeyMap α) (k : String) (a : α) :
    (m.insert k a).contains key = true ↔ m.contains key = true ∨ k = key := by
  rw [KeyMap.contains, KeyMap.contains, KeyMap.get?_insert]
  split
  · rename_i here
    exact iff_of_true rfl (.inr here.symm)
  · rename_i elsewhere
    exact (or_iff_left fun here => elsewhere here.symm).symm

theorem hasTable_mentionTable (d : Draft) (n : ObjectName) (source : String)
    (change : Table → Table) :
    HasTable key (d.mentionTable n source change) ↔ HasTable key d ∨ (d.resolve n).key = key :=
  contains_insert_iff _ _ _

theorem hasView_mentionView (d : Draft) (n : ObjectName) (definition source : String)
    (change : View → View) :
    HasView key (d.mentionView n definition source change) ↔
      HasView key d ∨ (d.resolve n).key = key :=
  contains_insert_iff _ _ _

/-- A comment that is kept in a known view makes no table; otherwise the other draft counts. -/
theorem hasTable_commentInView (d : Draft) (n : ObjectName) (text source : String) (other : Draft) :
    HasTable key ((d.commentInView? n text source).getD other) ↔
      if d.catalog.views.contains (d.resolve n).key = true then HasTable key d
      else HasTable key other := by
  rw [commentInView?]
  split
  · exact Iff.rfl
  · exact Iff.rfl

/-- A comment that is kept in a known view makes no other view. -/
theorem hasView_commentInView (d : Draft) (n : ObjectName) (text source : String) (other : Draft) :
    HasView key ((d.commentInView? n text source).getD other) ↔
      if d.catalog.views.contains (d.resolve n).key = true then HasView key d
      else HasView key other := by
  rw [commentInView?]
  split
  · rename_i known
    refine (hasView_mentionView d n _ _ _).trans (or_iff_left_of_imp ?_)
    intro here
    exact here ▸ known
  · exact Iff.rfl

/-- What a statement makes does not count if it makes nothing. -/
theorem made_nothing_iff {p : Prop} :
    p ∨ (none : Option ObjectName).map ObjectName.key = some key ↔ p :=
  or_iff_left (by simp)

/-- A statement leaves the tables that there were, and perhaps one more. -/
theorem hasTable_call (key : String) (d : Draft) (stmt source : String) :
    HasTable key (d.call (.apply stmt source)) ↔
      HasTable key d ∨ MakesTable key d stmt.toList := by
  rw [call, apply, applyTrimmed, Statement.ofChars_trim, MakesTable, tableMade?]
  generalize Text.trim stmt.toList = trimmed
  cases Statement.ofChars stmt.toList with
  | createTable n =>
    cases Declaration.ofChars trimmed with
    | error failure => exact made_nothing_iff.symm
    | ok declaration => exact (hasTable_mentionTable d n source _).trans (by simp)
  | commentOnTable n comment => exact (hasTable_mentionTable d n source _).trans (by simp)
  | commentOnColumn n column comment =>
    refine (hasTable_commentInView d n _ source _).trans ?_
    split
    · rename_i known
      simp [known]
    · rename_i unknown
      exact (hasTable_mentionTable d n source _).trans (by simp [unknown])
  | commentOnView n comment =>
    refine (hasTable_commentInView d n _ source _).trans ?_
    split
    · exact made_nothing_iff.symm
    · exact made_nothing_iff.symm
  | _ => exact made_nothing_iff.symm

/-- A statement leaves the views that there were, and perhaps one more. -/
theorem hasView_call (key : String) (d : Draft) (stmt source : String) :
    HasView key (d.call (.apply stmt source)) ↔
      HasView key d ∨ MakesView key d stmt.toList := by
  rw [call, apply, applyTrimmed, Statement.ofChars_trim, MakesView, viewMade?]
  generalize Text.trim stmt.toList = trimmed
  cases Statement.ofChars stmt.toList with
  | createTable n =>
    cases Declaration.ofChars trimmed with
    | error failure => exact made_nothing_iff.symm
    | ok declaration => exact made_nothing_iff.symm
  | commentOnColumn n column comment =>
    refine (hasView_commentInView d n _ source _).trans ?_
    split
    · exact made_nothing_iff.symm
    · exact made_nothing_iff.symm
  | commentOnView n comment =>
    refine (hasView_commentInView d n _ source _).trans ?_
    split
    · -- The view was known already, so it is no new one.
      rename_i known
      refine (or_iff_left_of_imp ?_).symm
      intro here
      exact Option.some.inj here ▸ known
    · exact (hasView_mentionView d n _ source _).trans (by simp)
  | createView n => exact (hasView_mentionView d n _ source _).trans (by simp)
  | _ => exact made_nothing_iff.symm

/-! ## Runs -/

/-- What a statement can bring about and none takes back holds after the statements of which one
brought it about. -/
theorem afterCalls_iff_once {P : Draft → List Char → Prop} {Q : Draft → Prop} (start : ¬Q empty)
    (step : ∀ (d : Draft) (stmt source : String),
      Q (d.call (.apply stmt source)) ↔ Q d ∨ P d stmt.toList)
    {history : List Call} (single : ∀ c ∈ history, ∃ stmt source, c = .apply stmt source) :
    Q (afterCalls history) ↔ Once P history := by
  -- The last statement is split off, because what it does depends on those before it.
  induction history using List.reverseRecOn with
  | nil => exact iff_of_false start (not_once_nil P)
  | append_singleton history c ih =>
    obtain ⟨stmt, source, rfl⟩ := single c List.mem_concat_self
    have before := ih fun c mem => single c (List.mem_append_left _ mem)
    rw [once_append_apply, ← before, ← step]
    rw [afterCalls, afterCalls, List.foldl_append, List.foldl_cons, List.foldl_nil]

/-- Statements and whole files leave the tables that one of their statements makes. -/
theorem hasTable_afterCalls (calls : List Call) (key : String) :
    HasTable key (afterCalls calls) ↔ Once (MakesTable key) (oneByOne calls) := by
  rw [← afterCalls_iff_once (Q := HasTable key) (by exact nofun)
    (hasTable_call key) fun c => exists_eq_apply_of_mem_oneByOne, ← objects_afterCalls]
  rfl

/-- Statements and whole files leave the views that one of their statements makes. -/
theorem hasView_afterCalls (calls : List Call) (key : String) :
    HasView key (afterCalls calls) ↔ Once (MakesView key) (oneByOne calls) := by
  rw [← afterCalls_iff_once (Q := HasView key) (by exact nofun)
    (hasView_call key) fun c => exists_eq_apply_of_mem_oneByOne, ← objects_afterCalls]
  rfl

/--
After any statements and whole files, there is a table under a key exactly if one of the statements
was a CREATE TABLE statement or a comment on a table whose name stood for the key, or a comment on a
column of an object that was no known view then; and there is a view beside it exactly if also one
of them created or commented on a view whose name stood for the key.
-/
theorem shadowed_iff (calls : List Call) (key : String) :
    (HasTable key (afterCalls calls) ↔ Once (MakesTable key) (oneByOne calls)) ∧
      (HasTable key (afterCalls calls) ∧ HasView key (afterCalls calls) ↔
        Once (MakesTable key) (oneByOne calls) ∧ Once (MakesView key) (oneByOne calls)) :=
  ⟨hasTable_afterCalls calls key,
    and_congr (hasTable_afterCalls calls key) (hasView_afterCalls calls key)⟩

/-- A statement creates the table with a key. -/
def CreatesTable (key : String) (d : Draft) (stmt : List Char) : Prop :=
  ∃ n, Statement.ofChars stmt = .createTable n ∧ (d.resolve n).key = key

/-- No table is created if no statement is a CREATE TABLE statement. -/
theorem not_once_createsTable {stmts : List String}
    (other : ∀ stmt ∈ stmts, (Statement.ofText stmt).kind ≠ "create table") (key source : String) :
    ¬Once (CreatesTable key) (stmts.map fun stmt => .apply stmt source) := by
  rintro ⟨before, stmt, source', after, split, n, creates, -⟩
  have applied : Call.apply stmt source' ∈ stmts.map fun stmt => Call.apply stmt source :=
    split ▸ List.mem_append_right before List.mem_cons_self
  obtain ⟨stmt', mem, same⟩ := List.mem_map.1 applied
  obtain ⟨rfl, rfl⟩ := Call.apply.inj same
  refine other stmt' mem ?_
  rw [Statement.ofText, creates]
  rfl

/-- A comment on a column, and then the view that has the column. -/
def lateView : List String :=
  ["COMMENT ON COLUMN v.a IS 'x';", "CREATE VIEW v AS SELECT 1;"]

/-- A view, and then a comment on a table of its name. -/
def commentedTable : List String :=
  ["CREATE VIEW v AS SELECT 1;", "COMMENT ON TABLE v IS 'x';"]

/-- A comment on a column before the view is known, and one on a table of the name of the view,
leave a table under the key of the view without any CREATE TABLE statement. -/
theorem shadowed_without_createTable :
    let late := lateView.map fun stmt => Call.apply stmt "v.sql"
    let commented := commentedTable.map fun stmt => Call.apply stmt "v.sql"
    (HasTable "v" (afterCalls late) ∧ HasView "v" (afterCalls late) ∧
      ¬Once (CreatesTable "v") (oneByOne late)) ∧
    HasTable "v" (afterCalls commented) ∧ HasView "v" (afterCalls commented) ∧
      ¬Once (CreatesTable "v") (oneByOne commented) := by
  have late : ∀ stmt ∈ lateView, (Statement.ofText stmt).kind ≠ "create table" := by
    decide +kernel
  have commented : ∀ stmt ∈ commentedTable, (Statement.ofText stmt).kind ≠ "create table" := by
    decide +kernel
  refine ⟨⟨?_, ?_, not_once_createsTable late "v" "v.sql"⟩,
    ?_, ?_, not_once_createsTable commented "v" "v.sql"⟩
  all_goals decide +kernel

end Draft

end Rollback
