import Rollback.Proofs.Schema.Representation
import Rollback.Proofs.Sql.StatementLines
import Rollback.Proofs.Sql.ViewStatements

/-!
# Stored views

Where the definition of a view comes from. A statement that creates the view replaces it, and
comments come after it, each on lines of its own; of a view that is known from a comment only, the
definition consists of comments. So which of the two it is can be told from the statements that were
applied.

- `Draft.oneByOne`: the statements that calls hand over, each as a call of its own
- `Draft.objects_afterCalls`: they leave the same tables and views as the calls
- `Draft.ViewStep`: what a statement does to the definition of a view
- `Draft.Once`, `Draft.CreatesView`: one of the statements has a property, or creates a view
- `Draft.Traced`, `Draft.traced_afterCalls`: where the definitions after some calls come from
-/

set_option autoImplicit false

namespace Rollback

open Pattern (startsIn)

namespace Draft

variable {d d' : Draft} {stmt source : String} {key : String}

/-! ## One statement at a time -/

/-- The statements that a call hands over, each as a call of its own. -/
def Call.each : Call → List Call
  | .apply stmt source => [.apply stmt source]
  | .ingest path script => (Sql.actions script).map fun stmt => .apply stmt path

/-- The statements that calls hand over, each as a call of its own. -/
def oneByOne (calls : List Call) : List Call :=
  calls.flatMap Call.each

theorem exists_eq_apply_of_mem_oneByOne {calls : List Call} {c : Call} (mem : c ∈ oneByOne calls) :
    ∃ stmt source, c = .apply stmt source := by
  obtain ⟨call, -, mem⟩ := List.mem_flatMap.1 mem
  cases call with
  | apply stmt source => exact ⟨stmt, source, List.mem_singleton.1 mem⟩
  | ingest path script =>
    obtain ⟨stmt, -, rfl⟩ := List.mem_map.1 mem
    exact ⟨stmt, path, rfl⟩

/-- The draft without what it knows of its files. -/
def objects (d : Draft) : Draft :=
  { d with catalog.metadata := .empty, files := [] }

theorem objects_commentInView? (d : Draft) (name : ObjectName) (text source : String) :
    d.objects.commentInView? name text source =
      (d.commentInView? name text source).map objects := by
  rw [commentInView?, commentInView?]
  show (if d.catalog.views.contains (d.resolve name).key then _ else none) = _
  split <;> rfl

/-- What is known of the files does not matter for a statement. -/
theorem objects_applyTrimmed (d : Draft) (stmt : List Char) (source : String) :
    d.objects.applyTrimmed stmt source =
      (d.applyTrimmed stmt source).map fun result => (result.1.objects, result.2) := by
  rw [applyTrimmed, applyTrimmed]
  cases Statement.ofChars stmt with
  | createTable name => cases Declaration.ofChars stmt <;> rfl
  | commentOnColumn table column comment =>
    simp only [objects_commentInView?]
    cases d.commentInView? table (String.ofList stmt) source <;> rfl
  | commentOnView view comment =>
    simp only [objects_commentInView?]
    cases d.commentInView? view (String.ofList stmt) source <;> rfl
  | _ => rfl

/-- What is known of objects after a statement follows from what was known before. -/
theorem objects_call_apply (d : Draft) (stmt source : String) :
    (d.call (.apply stmt source)).objects = d.objects.call (.apply stmt source) := by
  have same := objects_applyTrimmed d (Text.trim stmt.toList) source
  rw [call, call, apply, apply, same]
  cases d.applyTrimmed (Text.trim stmt.toList) source <;> rfl

theorem objects_ingestStatement (state : Draft × FileStats) (source stmt : String) :
    (ingestStatement source state stmt).1.objects = state.1.objects.call (.apply stmt source) := by
  rw [← objects_call_apply, ingestStatement, call]
  cases state.1.apply stmt source with
  | error e => rfl
  | ok result =>
    obtain ⟨d', did⟩ := result
    cases did <;> rfl

/-- A file does to the objects what its statements do one by one. -/
theorem objects_foldl_ingestStatement (path : String) (stmts : List String)
    (state : Draft × FileStats) :
    (stmts.foldl (ingestStatement path) state).1.objects =
      (stmts.map fun stmt => Call.apply stmt path).foldl call state.1.objects := by
  induction stmts generalizing state with
  | nil => rfl
  | cons stmt rest ih =>
    rw [List.foldl_cons, ih, objects_ingestStatement, List.map_cons, List.foldl_cons]

/-- A call changes tables and views like the statements that it hands over. -/
theorem objects_call (d : Draft) (c : Call) : (d.call c).objects = c.each.foldl call d.objects := by
  cases c with
  | apply stmt source => rw [Call.each, List.foldl_cons, List.foldl_nil, objects_call_apply]
  | ingest path script =>
    have after := objects_foldl_ingestStatement path (Sql.actions script) (d, .start path)
    simp only [call, ingest, Call.each]
    generalize (Sql.actions script).foldl (ingestStatement path) (d, .start path) = last at after ⊢
    exact after

theorem objects_foldl_call (calls : List Call) (d : Draft) :
    (calls.foldl call d).objects = (oneByOne calls).foldl call d.objects := by
  induction calls generalizing d with
  | nil => rfl
  | cons c rest ih =>
    rw [List.foldl_cons, ih, objects_call, oneByOne, oneByOne, List.flatMap_cons, List.foldl_append]

/-- Calls leave the same tables and views as the statements that they hand over. -/
theorem objects_afterCalls (calls : List Call) :
    (afterCalls calls).objects = afterCalls (oneByOne calls) :=
  objects_foldl_call calls .empty

/-! ## What a statement does to a definition -/

/-- The definition of the view with a key. -/
def definition? (d : Draft) (key : String) : Option String :=
  (d.catalog.views.get? key).map View.definition

/-- A statement creates the view with a key. -/
def Creates (d : Draft) (stmt : List Char) (key : String) : Prop :=
  ∃ n, Statement.ofChars stmt = .createView n ∧ (d.resolve n).key = key

/-- The definitions of the view with a key before and after a statement. -/
inductive ViewStep (d : Draft) (stmt : List Char) (key : String) :
    Option String → Option String → Prop where
  | kept (definition : Option String) (elsewhere : ¬d.Creates stmt key) :
    ViewStep d stmt key definition definition
  | created (definition : Option String) (creates : d.Creates stmt key) :
    ViewStep d stmt key definition (some (String.ofList stmt))
  /-- A comment on a view that was not known. -/
  | mentioned (comment : (Statement.ofChars stmt).isComment = true) :
    ViewStep d stmt key none (some (String.ofList stmt))
  | commented (v : View) (comment : (Statement.ofChars stmt).isComment = true) :
    ViewStep d stmt key (some v.definition) (some (v.append (String.ofList stmt)).definition)

theorem not_creates_of_ne {s : Statement} (stmt : List Char) (h : Statement.ofChars stmt = s)
    (other : ∀ n, s ≠ .createView n) : ¬d.Creates stmt key := by
  rintro ⟨n, creates, -⟩
  exact other n (h.symm.trans creates)

/-- A comment creates no view. -/
theorem not_creates_of_isComment {stmt : List Char}
    (comment : (Statement.ofChars stmt).isComment = true) : ¬d.Creates stmt key := by
  refine not_creates_of_ne stmt rfl fun n creates => ?_
  rw [creates] at comment
  cases comment

/-- The definitions after a view was mentioned. -/
theorem definition?_mentionView (d : Draft) (name : ObjectName) (definition source : String)
    (change : View → View) (key : String) :
    (d.mentionView name definition source change).definition? key =
      if key = (d.resolve name).key then
        some (change (d.catalog.viewOrDefined (d.resolve name) definition)).definition
      else d.definition? key := by
  rw [definition?, mentionView, Catalog.updateView, KeyMap.get?_insert]
  split
  · rfl
  · rfl

/-- A statement does one of these things to the definition of the view with a key. -/
theorem viewStep_call (d : Draft) (stmt source key : String) :
    ViewStep d (Text.trim stmt.toList) key (d.definition? key)
      ((d.call (.apply stmt source)).definition? key) := by
  rw [call, apply]
  generalize Text.trim stmt.toList = stmt
  cases applied : d.applyTrimmed stmt source with
  | error e =>
    refine .kept _ ?_
    rintro ⟨n, creates, -⟩
    rw [applyTrimmed, creates] at applied
    cases applied
  | ok result =>
    obtain ⟨d', did⟩ := result
    show ViewStep d stmt key _ (d'.definition? key)
    cases effect_applyTrimmed applied with
    | searchPath kind => exact .kept _ (not_creates_of_ne stmt kind fun _ same => by cases same)
    | table kind read => exact .kept _ (not_creates_of_ne stmt kind fun _ same => by cases same)
    | tableComment kind => exact .kept _ (not_creates_of_ne stmt kind fun _ same => by cases same)
    | columnComment kind unknown =>
      exact .kept _ (not_creates_of_ne stmt kind fun _ same => by cases same)
    | @commentInView n v kind known =>
      have isComment : (Statement.ofChars stmt).isComment = true := by
        rcases kind with ⟨comment, kind⟩ | ⟨column, comment, kind⟩ <;> rw [kind] <;> rfl
      rw [definition?_mentionView]
      split
      · rename_i here
        rw [Catalog.viewOrDefined, known, definition?, here, known]
        exact .commented v isComment
      · exact .kept _ (not_creates_of_isComment isComment)
    | @viewComment n comment kind unknown =>
      have isComment : (Statement.ofChars stmt).isComment = true := by rw [kind]; rfl
      rw [definition?_mentionView]
      split
      · rename_i here
        rw [Catalog.viewOrDefined, unknown, definition?, here, unknown]
        exact .mentioned isComment
      · exact .kept _ (not_creates_of_isComment isComment)
    | @view n kind =>
      rw [definition?_mentionView]
      split
      · rename_i here
        exact .created _ ⟨n, kind, here.symm⟩
      · rename_i elsewhere
        refine .kept _ ?_
        rintro ⟨m, creates, here⟩
        obtain rfl : n = m := Statement.createView.inj (kind.symm.trans creates)
        exact elsewhere here.symm
    | ignored other => exact .kept _ (not_creates_of_ne stmt rfl other)

/-! ## Where a definition comes from -/

/-- The statements that a call hands over are such as scripts are cut into. -/
def Call.IsCut : Call → Prop
  | .apply stmt _ => ∃ script, stmt ∈ Sql.actions script
  | .ingest _ _ => True

/-- Among statements that are applied one after another, one has a property where it is applied. -/
def Once (P : Draft → List Char → Prop) (history : List Call) : Prop :=
  ∃ before stmt source after, history = before ++ .apply stmt source :: after ∧
    P (afterCalls before) stmt.toList

theorem not_once_nil (P : Draft → List Char → Prop) : ¬Once P [] := by
  rintro ⟨before, stmt, source, after, split, -⟩
  exact List.append_ne_nil_of_right_ne_nil before (List.cons_ne_nil _ _) split.symm

/-- One more statement has the property, or one of those before it had. -/
theorem once_append_apply (P : Draft → List Char → Prop) (history : List Call)
    (stmt source : String) :
    Once P (history ++ [.apply stmt source]) ↔
      Once P history ∨ P (afterCalls history) stmt.toList := by
  constructor
  · rintro ⟨before, stmt', source', after, split, holds⟩
    rcases List.eq_nil_or_concat after with rfl | ⟨init, last, rfl⟩
    · obtain ⟨rfl, same⟩ := List.append_inj' split rfl
      obtain ⟨rfl, rfl⟩ := Call.apply.inj (List.cons.inj same).1
      exact .inr holds
    · rw [List.concat_eq_append, ← List.cons_append, ← List.append_assoc] at split
      exact .inl ⟨before, stmt', source', init, (List.append_inj' split rfl).1, holds⟩
  · rintro (⟨before, stmt', source', after, rfl, holds⟩ | holds)
    · exact ⟨before, stmt', source', after ++ [.apply stmt source], by simp, holds⟩
    · exact ⟨history, stmt, source, [], rfl, holds⟩

/-- Among statements that are applied one after another, one creates the view with a key. -/
def CreatesView (history : List Call) (key : String) : Prop :=
  ∃ before stmt source after, history = before ++ .apply stmt source :: after ∧
    (afterCalls before).Creates stmt.toList key

/-- One more statement creates the view, or it was created before. -/
theorem createsView_append_apply (history : List Call) (stmt source key : String) :
    CreatesView (history ++ [.apply stmt source]) key ↔
      CreatesView history key ∨ (afterCalls history).Creates stmt.toList key :=
  once_append_apply (fun d stmt => d.Creates stmt key) history stmt source

/-- A text is a statement of a script with more lines after it. -/
structure LinesFrom (head : List Char) (text : String) : Prop where
  cut : ∃ script, head ∈ Sql.statementTexts script
  lines : ∃ more, text.toList = head ++ more ∧ ∀ c ∈ more.head?, c = '\n'

namespace LinesFrom

variable {head script : List Char} {text : String}

theorem ofList (cut : head ∈ Sql.statementTexts script) : LinesFrom head (String.ofList head) :=
  ⟨⟨script, cut⟩, [], by rw [String.toList_ofList, List.append_nil], nofun⟩

/-- One more line can be put after the others. -/
theorem append {v : View} (h : LinesFrom head v.definition) (stmt : String) :
    LinesFrom head (v.append stmt).definition := by
  obtain ⟨⟨script, cut⟩, more, split, lines⟩ := h
  have nonempty : v.definition.isEmpty = false := by
    refine Bool.eq_false_iff.2 fun empty => ?_
    rw [String.isEmpty_iff.1 empty] at split
    have nothing : head = [] := (List.append_eq_nil_iff.1 split.symm).1
    exact absurd (Sql.exists_keepsSegment cut).1 (nothing ▸ by decide)
  refine ⟨⟨script, cut⟩, more ++ '\n' :: stmt.toList, ?_, fun c hc => ?_⟩
  · rw [View.append, nonempty]
    simp [split]
  · rw [List.head?_append, Option.mem_def, Option.or_eq_some_iff] at hc
    rcases hc with hc | ⟨-, hc⟩
    · exact lines c hc
    · exact (Option.some.inj hc).symm

/-- The first statement of such a text is the one that it starts with, perhaps with more lines. -/
theorem exists_first (h : LinesFrom head text) : ∃ further,
    (Sql.statementTexts text.toList).head? = some (head ++ further) ∧
      startsIn .word further = false ∧ Text.Trimmed head ∧ Text.Trimmed (head ++ further) := by
  obtain ⟨⟨script, cut⟩, more, split, lines⟩ := h
  obtain ⟨further, first, line⟩ := Sql.exists_head?_statementTexts cut lines
  rw [← split] at first
  refine ⟨further, first, ?_, Sql.trimmed_of_mem_statementTexts cut,
    Sql.trimmed_of_mem_statementTexts (List.mem_of_head? first)⟩
  cases further with
  | nil => rfl
  | cons c further =>
    obtain rfl := line c rfl
    rfl

end LinesFrom

/-- What the definition of the view with a key starts with after some statements. -/
inductive Traced (history : List Call) (key : String) : Option String → Prop where
  | unknown (never : ¬CreatesView history key) : Traced history key none
  | created {definition : String} {head : List Char} {n : ObjectName} (schema : Option String)
    (once : CreatesView history key) (lines : LinesFrom head definition)
    (creates : Statement.ofChars head = .createView n) (named : (n.resolve schema).key = key) :
    Traced history key (some definition)
  | commented {definition : String} {head : List Char} (never : ¬CreatesView history key)
    (lines : LinesFrom head definition) (comment : (Statement.ofChars head).isComment = true) :
    Traced history key (some definition)

/-- A statement of a script that creates a view or comments on something is one that was cut. -/
theorem Call.IsCut.exists_mem {stmt source : String} (h : (Call.apply stmt source).IsCut)
    (view : (∃ n, Statement.ofChars (Text.trim stmt.toList) = .createView n) ∨
      (Statement.ofChars (Text.trim stmt.toList)).isComment = true) :
    ∃ script, Text.trim stmt.toList ∈ Sql.statementTexts script := by
  obtain ⟨script, mem⟩ := h
  have start := Statement.startsIn_of_ofChars view
  rw [(Text.trimmed_trim stmt.toList).trim_eq] at start
  exact ⟨script.toList, Sql.mem_statementTexts_of_mem_actions mem start⟩

/-- One more statement leaves the definitions traced. -/
theorem Traced.step {history : List Call} {before after : Option String} {stmt source : String}
    (h : Traced history key before) (cut : (Call.apply stmt source).IsCut)
    (step : ViewStep (afterCalls history) (Text.trim stmt.toList) key before after) :
    Traced (history ++ [.apply stmt source]) key after := by
  have creation := createsView_append_apply history stmt source key
  have same : (afterCalls history).Creates (Text.trim stmt.toList) key ↔
      (afterCalls history).Creates stmt.toList key := by
    rw [Creates, Creates, Statement.ofChars_trim]
  rw [← same] at creation
  have later : CreatesView history key → CreatesView (history ++ [.apply stmt source]) key :=
    fun once => creation.2 (.inl once)
  have neverLater : ¬(afterCalls history).Creates (Text.trim stmt.toList) key →
      ¬CreatesView history key → ¬CreatesView (history ++ [.apply stmt source]) key :=
    fun elsewhere never once => (creation.1 once).elim never elsewhere
  -- A comment creates no view, so the views that were created before it are still all of them.
  have commentCreatesNone : (Statement.ofChars (Text.trim stmt.toList)).isComment = true →
      ¬(afterCalls history).Creates (Text.trim stmt.toList) key := by
    rintro comment ⟨n, creates, -⟩
    rw [creates] at comment
    cases comment
  cases step with
  | kept definition elsewhere =>
    cases h with
    | unknown never => exact .unknown (neverLater elsewhere never)
    | created schema once lines creates named =>
      exact .created schema (later once) lines creates named
    | commented never lines comment => exact .commented (neverLater elsewhere never) lines comment
  | created definition creates =>
    obtain ⟨n, read, named⟩ := creates
    obtain ⟨script, found⟩ := cut.exists_mem (.inl ⟨n, read⟩)
    exact .created (afterCalls history).searchPath (creation.2 (.inr ⟨n, read, named⟩))
      (.ofList found) read named
  | mentioned comment =>
    cases h with
    | unknown never =>
      obtain ⟨script, found⟩ := cut.exists_mem (.inr comment)
      exact .commented (neverLater (commentCreatesNone comment) never) (.ofList found) comment
  | commented v comment =>
    cases h with
    | created schema once lines creates named =>
      exact .created schema (later once) (lines.append _) creates named
    | commented never lines comment' =>
      exact .commented (neverLater (commentCreatesNone comment) never) (lines.append _) comment'

/-- The calls of a list hand over one statement each, such as scripts are cut into. -/
theorem exists_apply_of_mem_oneByOne {calls : List Call} (cut : ∀ c ∈ calls, c.IsCut) {c : Call}
    (mem : c ∈ oneByOne calls) : ∃ stmt source, c = .apply stmt source ∧ c.IsCut := by
  obtain ⟨call, inside, mem⟩ := List.mem_flatMap.1 mem
  cases call with
  | apply stmt source =>
    obtain rfl := List.mem_singleton.1 mem
    exact ⟨stmt, source, rfl, cut _ inside⟩
  | ingest path script =>
    obtain ⟨stmt, found, rfl⟩ := List.mem_map.1 mem
    exact ⟨stmt, path, rfl, script, found⟩

/-- The statements are taken one after another, and those before are the history. -/
theorem Traced.append {history rest : List Call} {key : String}
    (h : Traced history key ((afterCalls history).definition? key))
    (single : ∀ c ∈ rest, ∃ stmt source, c = .apply stmt source ∧ c.IsCut) :
    Traced (history ++ rest) key ((afterCalls (history ++ rest)).definition? key) := by
  induction rest generalizing history with
  | nil => rwa [List.append_nil]
  | cons c rest ih =>
    obtain ⟨⟨stmt, source, rfl, isCut⟩, later⟩ := List.forall_mem_cons.1 single
    have next := h.step isCut (viewStep_call (afterCalls history) stmt source key)
    rw [List.append_cons]
    refine ih ?_ later
    rw [afterCalls, List.foldl_append, List.foldl_cons, List.foldl_nil]
    exact next

/-- After any calls, the definition of a view starts with the statement that created it, or else
with a comment. -/
theorem traced_afterCalls {calls : List Call} (cut : ∀ c ∈ calls, c.IsCut) (key : String) :
    Traced (oneByOne calls) key ((afterCalls calls).definition? key) := by
  have start : Traced [] key ((afterCalls []).definition? key) :=
    .unknown (not_once_nil fun d stmt => d.Creates stmt key)
  have all := start.append fun c => exists_apply_of_mem_oneByOne cut
  rw [List.nil_append, ← objects_afterCalls] at all
  exact all

end Draft

end Rollback
