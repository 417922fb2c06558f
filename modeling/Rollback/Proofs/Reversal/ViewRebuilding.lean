import Rollback.Proofs.Schema.StoredViews
import Rollback.Reversal.Statement

/-!
# Rebuilding of views

The reversals of DROP VIEW and CREATE VIEW put back whatever the catalog keeps as the definition of
the view. That creates the view again if the catalog was made from a statement that creates it. Of a
view that the catalog knows from comments only, the reversal is a comment on a view that is not
there, and it counts as complete; only for a view that the catalog does not know there is a marker.

- `RebuildsView`: a script that starts with a statement that creates a view
- `Catalog.viewKey`: the key under which a view is looked up
- `rebuildsView_iff_of_traced`: a definition rebuilds its view if a statement has created it
- `undo_view_afterCalls`: the reversals after any calls
-/

set_option autoImplicit false

namespace Rollback

/-- The name of the view that a statement creates. -/
def Statement.createdView? : Statement → Option ObjectName
  | createView n => some n
  | _ => none

/-- The name of the view that the first statement of a script creates. -/
def firstView? (script : String) : Option ObjectName :=
  (Sql.statements script).head?.bind fun stmt => (Statement.ofText stmt).createdView?

/-- The first statement of a script creates a view with the given name, in some schema and in any
letter case. -/
def RebuildsView (script name : String) : Prop :=
  ∃ n ∈ firstView? script, n.name.lowerCase = name.lowerCase

instance (script name : String) : Decidable (RebuildsView script name) :=
  inferInstanceAs (Decidable (∃ n ∈ firstView? script, _))

/-- The key under which the view of a name is looked up: with the schema in effect, if there is such
a view, or else without it. -/
def Catalog.viewKey (c : Catalog) (name : ObjectName) (searchPath : Option String) : String :=
  if c.views.contains (name.resolve searchPath).key then (name.resolve searchPath).key else name.key

/-- A view is looked up under one of two keys. -/
theorem Catalog.view?_eq_get? (c : Catalog) (name : ObjectName) (searchPath : Option String) :
    c.view? name searchPath = c.views.get? (c.viewKey name searchPath) := by
  rw [view?, KeyMap.resolve?, viewKey, KeyMap.contains]
  cases found : c.views.get? (name.resolve searchPath).key with
  | none => rfl
  | some v => exact found.symm

/-- The key under which a view is looked up is that of its name in some schema. -/
theorem Catalog.exists_viewKey_eq (c : Catalog) (name : ObjectName) (searchPath : Option String) :
    ∃ schema, c.viewKey name searchPath = objectKey schema name.name := by
  rw [viewKey]
  split
  · exact ⟨_, by rw [key_eq_objectKey, ObjectName.name_resolve]⟩
  · exact ⟨_, key_eq_objectKey name⟩

/-- The first view of a script is the one that its first statement creates. -/
theorem firstView?_of_head? {script : String} {first : List Char}
    (h : (Sql.statementTexts script.toList).head? = some first) :
    firstView? script = (Statement.ofChars first).createdView? := by
  rw [firstView?, Sql.statements, List.head?_map, h, Option.map_some, Option.bind_some,
    Statement.ofText, String.toList_ofList]

/-- A traced definition rebuilds the view of its key if a statement has created it, and
only then. -/
theorem rebuildsView_iff_of_traced {history : List Draft.Call} {schema : Option String}
    {name definition : String} (dotless : '.' ∉ name.toList)
    (h : Draft.Traced history (objectKey schema name) (some definition)) :
    RebuildsView definition name ↔ Draft.CreatesView history (objectKey schema name) := by
  cases h with
  | @created _ head n path once lines creates named =>
    obtain ⟨further, first, ends, trimmed, whole⟩ := lines.exists_first
    have still := Statement.ofChars_append_createView creates trimmed ends whole
    have written : n ∈ (Statement.ofChars head).objectNames := by
      rw [creates]
      exact List.mem_cons_self
    -- Without dots the key tells schema and name apart, whatever the schema was at the time.
    have clean : '.' ∉ n.name.toList := Statement.dot_notMem_name written
    rw [key_eq_objectKey, ObjectName.name_resolve] at named
    refine iff_of_true ⟨n, ?_, (objectKey_inj named clean dotless).2⟩ once
    rw [firstView?_of_head? first, still]
    rfl
  | @commented _ head never lines comment =>
    obtain ⟨further, first, -, trimmed, whole⟩ := lines.exists_first
    refine iff_of_false ?_ never
    rintro ⟨n, found, -⟩
    rw [firstView?_of_head? first] at found
    cases read : Statement.ofChars (head ++ further) with
    | createView m => exact Statement.ofChars_append_comment comment trimmed whole read
    | _ =>
      rw [read] at found
      cases found

/-- A traced definition is more than blanks. -/
theorem isEmpty_trim_of_traced {history : List Draft.Call} {key definition : String}
    (h : Draft.Traced history key (some definition)) :
    (Text.trim definition.toList).isEmpty = false := by
  have shown : ∀ {head : List Char}, Draft.LinesFrom head definition →
      (Text.trim definition.toList).isEmpty = false := by
    intro head lines
    obtain ⟨⟨script, cut⟩, more, split, -⟩ := lines
    cases head with
    | nil => exact absurd (Sql.exists_keepsSegment cut).1 (by decide)
    | cons c head =>
      have solid := (Sql.trimmed_of_mem_statementTexts cut).first c rfl
      have mem : c ∈ Text.trim definition.toList := Text.mem_trim (split ▸ List.mem_cons_self) solid
      exact Bool.eq_false_iff.2 fun empty => List.ne_nil_of_mem mem (List.isEmpty_iff.1 empty)
  cases h with
  | created path once lines creates named => exact shown lines
  | commented never lines comment => exact shown lines

/--
Whatever calls a catalog is made from, with statements as scripts are cut into, the reversals of
statements about a view are these: if the catalog does not know the view, then no statement has
created it, DROP VIEW leaves a marker and CREATE VIEW drops the view. If it knows the view, then
both put back its definition as a complete reversal; the first statement of that creates the view
again if a statement that creates it was among those that were applied, and only then.
-/
theorem undo_view_afterCalls {calls : List Draft.Call} (cut : ∀ c ∈ calls, c.IsCut)
    (time : Option Instant) (defaults : TableDefaults) (searchPath : Option String) {text : String}
    {name : ObjectName} (named : name ∈ (Statement.ofText text).objectNames) :
    let c := (Draft.afterCalls calls).finish time
    let r : Reverser := ⟨some c, defaults⟩
    (c.view? name searchPath = none ∧
        ¬Draft.CreatesView (Draft.oneByOne calls) (c.viewKey name searchPath) ∧
        r.undo searchPath (.dropView name) =
          .marked s!"view definition needed: CREATE OR REPLACE VIEW {name} AS SELECT ...;" ∧
        r.undo searchPath (.createView name) = .statement s!"DROP VIEW IF EXISTS {name};") ∨
      ∃ v, c.view? name searchPath = some v ∧
        r.undo searchPath (.dropView name) = .statement v.definition ∧
        r.undo searchPath (.createView name) = .statement v.definition ∧
        (RebuildsView v.definition name.name ↔
          Draft.CreatesView (Draft.oneByOne calls) (c.viewKey name searchPath)) := by
  intro c r
  have looked : r.view? searchPath name = c.view? name searchPath := rfl
  have traced := Draft.traced_afterCalls cut (c.viewKey name searchPath)
  have found : (Draft.afterCalls calls).definition? (c.viewKey name searchPath) =
      (c.view? name searchPath).map View.definition := by
    rw [Catalog.view?_eq_get?]
    rfl
  rw [found] at traced
  cases known : c.view? name searchPath with
  | none =>
    have nothing : r.viewDefinition? searchPath name = none := by
      rw [Reverser.viewDefinition?, looked, known]
      rfl
    rw [known, Option.map_none] at traced
    cases traced with
    | unknown never =>
      exact .inl ⟨rfl, never, by rw [Reverser.undo, Reverser.undoDropView, nothing],
        by rw [Reverser.undo, Reverser.undoCreateView, nothing]⟩
  | some v =>
    rw [known, Option.map_some] at traced
    have kept : r.viewDefinition? searchPath name = some v.definition := by
      rw [Reverser.viewDefinition?, looked, known]
      simp [isEmpty_trim_of_traced traced]
    refine .inr ⟨v, rfl, by rw [Reverser.undo, Reverser.undoDropView, kept],
      by rw [Reverser.undo, Reverser.undoCreateView, kept], ?_⟩
    obtain ⟨schema, key⟩ := c.exists_viewKey_eq name searchPath
    rw [key] at traced ⊢
    exact rebuildsView_iff_of_traced (Statement.dot_notMem_name named) traced

/-- A file that comments on a view before it creates it, and a comment after that. -/
def viewCalls : List Draft.Call :=
  [.ingest "v.sql" "COMMENT ON VIEW v IS 'x'; CREATE OR REPLACE VIEW v AS SELECT 1",
    .apply "COMMENT ON COLUMN v.a IS 'y';" "w.sql"]

/-- The view after the calls: its definition is the second statement and the comment after it. -/
theorem view?_viewCalls :
    ((Draft.afterCalls viewCalls).finish none).view? ⟨none, "v"⟩ none =
      some ⟨"v", "v", none,
        "CREATE OR REPLACE VIEW v AS SELECT 1\nCOMMENT ON COLUMN v.a IS 'y';",
        ["v.sql", "w.sql"]⟩ := by
  decide +kernel

theorem viewKey_viewCalls :
    ((Draft.afterCalls viewCalls).finish none).viewKey ⟨none, "v"⟩ none = "v" := by
  decide +kernel

theorem createsView_viewCalls : Draft.CreatesView (Draft.oneByOne viewCalls) "v" :=
  ⟨[.apply "COMMENT ON VIEW v IS 'x';" "v.sql"], "CREATE OR REPLACE VIEW v AS SELECT 1", "v.sql",
    [.apply "COMMENT ON COLUMN v.a IS 'y';" "w.sql"], rfl, ⟨none, "v"⟩, by decide +kernel, rfl⟩

/-- A view that was created after a comment on it is rebuilt, with the comments that came later. -/
theorem undo_view_afterCalls_replaced :
    (Reverser.mk (some ((Draft.afterCalls viewCalls).finish none)) .none).undo none
        (.dropView ⟨none, "v"⟩) =
      .statement "CREATE OR REPLACE VIEW v AS SELECT 1\nCOMMENT ON COLUMN v.a IS 'y';" ∧
    RebuildsView "CREATE OR REPLACE VIEW v AS SELECT 1\nCOMMENT ON COLUMN v.a IS 'y';" "v" := by
  have cut : ∀ c ∈ viewCalls, c.IsCut := by
    intro c mem
    rcases List.mem_cons.1 mem with rfl | mem
    · trivial
    · obtain rfl := List.mem_singleton.1 mem
      exact ⟨"COMMENT ON COLUMN v.a IS 'y';", by decide +kernel⟩
  rcases @undo_view_afterCalls viewCalls cut none .none none "DROP VIEW v;" ⟨none, "v"⟩
    List.mem_cons_self with ⟨unknown, -⟩ | ⟨v, known, drops, -, rebuilds⟩
  · rw [view?_viewCalls] at unknown
    cases unknown
  · rw [view?_viewCalls] at known
    obtain rfl := Option.some.inj known
    rw [viewKey_viewCalls] at rebuilds
    exact ⟨drops, rebuilds.2 createsView_viewCalls⟩

/-- A catalog that knows a view from a comment only. -/
def commentedView : Catalog :=
  (Draft.afterCalls [.ingest "v.sql" "COMMENT ON VIEW v IS 'later';"]).finish none

/-- The definition of a view that was only commented on is the comment statement. -/
theorem viewDefinition?_commentedView :
    (Reverser.mk (some commentedView) .none).viewDefinition? none ⟨none, "v"⟩ =
      some "COMMENT ON VIEW v IS 'later';" := by
  decide +kernel

theorem ofText_dropView : Statement.ofText "DROP VIEW v;" = .dropView ⟨none, "v"⟩ := rfl

/-- The reversal of dropping a view that was never created is taken for complete, but it only
comments on the view. -/
theorem undo_dropView_commented :
    (Reverser.mk (some commentedView) .none).undo none (Statement.ofText "DROP VIEW v;") =
        .statement "COMMENT ON VIEW v IS 'later';" ∧
      ¬RebuildsView "COMMENT ON VIEW v IS 'later';" "v" := by
  constructor
  · rw [ofText_dropView, Reverser.undo, Reverser.undoDropView, viewDefinition?_commentedView]
  · decide +kernel

end Rollback
