import Mathlib.Data.List.Basic
import Mathlib.Data.Set.Insert
import Rollback.Proofs.Deployment.BatchOrder
import Rollback.Proofs.Sql.Recognized

/-!
# Tables of a file and of its rollback

What a file that creates tables, and then its rollback, do to the set of the keys of all tables. The
rollback drops each table by the name that the file has for it, and it does not set a search path.
So it takes back what the file did exactly if the names in the file have the right keys by
themselves.

- `runKeys`: the keys after some statements are run
- `createdKeys`, `writtenKeys`: the keys of created tables with and without the search path
- `actions_reverseScript`: the rollback is made of the drops, the last table first
- `runKeys_rollback`: the keys after a file and its rollback
-/

set_option autoImplicit false

namespace Rollback

/-! ## Runs -/

/-- The keys of all tables after a statement that is run with a search path in effect. -/
def Statement.changeKeys (searchPath : Option String) (keys : Set String) : Statement → Set String
  | createTable n => insert (n.resolve searchPath).key keys
  | dropTable n => keys \ {(n.resolve searchPath).key}
  | _ => keys

/-- The keys of all tables after some statements are run; a search path holds until it
is changed. -/
def runKeys (searchPath : Option String) (keys : Set String) : List String → Set String
  | [] => keys
  | text :: rest =>
    let path := (Statement.ofText text).searchPathAfter searchPath
    runKeys path ((Statement.ofText text).changeKeys path keys) rest

/-- A statement of a file that only sets the search path and creates tables with plain names. -/
inductive Statement.PathOrPlainTable : Statement → Prop where
  | setSearchPath (schema : String) : PathOrPlainTable (.setSearchPath schema)
  | createTable {n : ObjectName} (plain : PlainObject n) : PathOrPlainTable (.createTable n)

/-- The keys of the created tables, with the search path at each statement. -/
def createdKeys (stmts : List String) : Set String :=
  {k | ∃ i text n, stmts[i]? = some text ∧ Statement.ofText text = .createTable n ∧
    k = (n.resolve (searchPathAt stmts i)).key}

/-- The keys of the names of created tables as they are written. -/
def writtenKeys (stmts : List String) : Set String :=
  {k | ∃ text ∈ stmts, ∃ n, Statement.ofText text = .createTable n ∧ k = n.key}

/-- The name of the table that a statement creates. -/
def Statement.created? : Statement → Option ObjectName
  | createTable n => some n
  | _ => none

/-- The names of the tables that statements create, the last one first. -/
def createdNames (stmts : List String) : List ObjectName :=
  stmts.reverse.filterMap fun text => (Statement.ofText text).created?

theorem created?_eq_some_iff (s : Statement) (n : ObjectName) :
    s.created? = some n ↔ s = .createTable n := by
  cases s <;> simp [Statement.created?]

/-- The names as they are written in the statements that create tables. -/
theorem mem_createdNames_iff (stmts : List String) (n : ObjectName) :
    n ∈ createdNames stmts ↔ ∃ text ∈ stmts, Statement.ofText text = .createTable n := by
  simp only [createdNames, List.mem_filterMap, List.mem_reverse, created?_eq_some_iff]

/-- The keys under which tables are created: names with the search path in effect. -/
theorem mem_createdKeys_iff (stmts : List String) (k : String) :
    k ∈ createdKeys stmts ↔ ∃ p ∈ placeStatements none stmts, ∃ n,
      p.statement = .createTable n ∧ k = (n.resolve p.searchPath).key := by
  constructor
  · rintro ⟨i, text, n, found, created, rfl⟩
    refine ⟨⟨text, Statement.ofText text, searchPathAt stmts i⟩, ?_, n, created, rfl⟩
    apply List.mem_of_getElem? (i := i)
    rw [getElem?_placeStatements, found, Option.map_some, Option.or_none]
  · rintro ⟨p, mem, n, created, rfl⟩
    obtain ⟨i, found⟩ := List.getElem?_of_mem mem
    rw [getElem?_placeStatements] at found
    obtain ⟨text, here, rfl⟩ := Option.map_eq_some_iff.1 found
    exact ⟨i, text, n, here, created, by rw [Option.or_none]⟩

/-! ## The file -/

/-- The run of a file adds the keys of the tables that it creates. -/
theorem runKeys_eq_union (stmts : List String) :
    ∀ (path : Option String) (keys : Set String),
      (∀ text ∈ stmts, (Statement.ofText text).PathOrPlainTable) →
      runKeys path keys stmts = keys ∪ {k | ∃ p ∈ placeStatements path stmts, ∃ n,
        p.statement = .createTable n ∧ k = (n.resolve p.searchPath).key} := by
  induction stmts with
  | nil => intro path keys _; simp [runKeys, placeStatements]
  | cons text rest ih =>
    intro path keys all
    have first := all text List.mem_cons_self
    have others := fun t ht => all t (List.mem_cons_of_mem text ht)
    rw [runKeys, ih _ _ others, placeStatements]
    generalize Statement.ofText text = s at first
    ext k
    simp only [Set.mem_union, Set.mem_ofPred_eq, List.mem_cons, exists_eq_or_imp]
    -- A search path adds no key; it is in effect for the statements after it.
    cases first with
    | setSearchPath schema => simp [Statement.changeKeys]
    | @createTable n plain =>
      simp only [Statement.changeKeys, Set.mem_insert_iff, Statement.createTable.injEq,
        exists_eq_left']
      constructor
      · rintro ((h | h) | h)
        · exact .inr (.inl h)
        · exact .inl h
        · exact .inr (.inr h)
      · rintro (h | h | h)
        · exact .inl (.inr h)
        · exact .inl (.inl h)
        · exact .inr h

/-! ## The rollback -/

namespace Batch

variable (b : Batch)

/-- What stands in a rollback before the drop of a table. -/
def spacing (text : String) : List Char :=
  if b.style.annotate then (originalComment text).toList ++ ['\n'] else []

theorem isSpacing_spacing (text : String) : Sql.IsSpacing (b.spacing text) := by
  rw [spacing]
  split
  · have comment : (originalComment text).toList =
        '/' :: '*' :: (" original: ".toList ++ softenChars text.trimBlanks.toList) ++
          " */".toList := by
      simp [blockComment, softenCommentEnds, originalComment]
    rw [comment]
    exact (Sql.isSpacing_blockComment _ (by decide)).append
      (Sql.isSpacing_of_blank rfl rfl)
  · exact .nil

/-- The passage for a statement that creates a table. -/
def dropPassage? (text : String) : Option String :=
  (Statement.ofText text).created?.map fun n =>
    String.ofList (b.spacing text) ++ tableDrop n.render

/-- The rollback drops the created tables, the last one first. -/
theorem content_eq (stmts : List String)
    (all : ∀ text ∈ stmts, (Statement.ofText text).PathOrPlainTable) :
    (b.reverseStatements stmts).1 =
      Text.join "\n\n" (stmts.reverse.filterMap b.dropPassage?) := by
  have passage : ∀ text i, (Statement.ofText text).PathOrPlainTable →
      b.passage? text (b.reversalAt stmts i text) = b.dropPassage? text := by
    intro text i kind
    rw [reversalAt, dropPassage?]
    generalize Statement.ofText text = s at kind
    cases kind with
    | setSearchPath schema => simp [Statement.isComment, Reverser.undo, passage?,
        Reversal.script?, Statement.created?]
    | @createTable n plain =>
      have undone : b.reverser.undo (searchPathAt stmts i) (.createTable n) =
          .statement (tableDrop n.render) := rfl
      have other : ¬(CreatesTablesOnly (stmts.map Statement.ofText) ∧
          (Statement.createTable n).isComment = true) := by simp [Statement.isComment]
      rw [if_neg other, undone, passage?, Statement.created?, spacing]
      cases b.style.annotate with
      | true => simp [Reversal.script?, String.ofList_append, String.append_assoc]
      | false => simp [Reversal.script?]
  have passages : (b.forwardReversals stmts).filterMap (fun x => b.passage? x.1 x.2) =
      stmts.filterMap b.dropPassage? := by
    have texts : stmts.filterMap b.dropPassage? =
        stmts.zipIdx.filterMap fun x => b.dropPassage? x.1 := by
      conv_lhs => rw [← List.zipIdx_map_fst 0 stmts, List.filterMap_map]
      rfl
    rw [texts, forwardReversals, List.filterMap_map]
    refine List.filterMap_congr ?_
    rintro ⟨text, i⟩ mem
    exact passage text i (all text (List.mem_of_getElem? (List.mem_zipIdx_iff_getElem?.1 mem)))
  rw [reverseStatements_eq, fileContent, List.filterMap_reverse, List.filterMap_reverse]
  exact congrArg (fun parts => Text.join "\n\n" parts.reverse) passages

/-- Split again, the rollback is made of the drops of the created tables, the last one first. -/
theorem actions_reverseScript (script : String)
    (all : ∀ text ∈ Sql.actions script, (Statement.ofText text).PathOrPlainTable) :
    Sql.actions (b.reverseScript script).1 =
      (createdNames (Sql.actions script)).map fun n => tableDrop n.render := by
  rw [reverseScript, content_eq b _ all]
  generalize Sql.actions script = stmts at all
  let parts := stmts.reverse.filterMap fun text => (Statement.ofText text).created?.map fun n =>
    (String.ofList (b.spacing text) ++ tableDrop n.render, tableDrop n.render)
  have texts : stmts.reverse.filterMap b.dropPassage? = parts.map Prod.fst := by
    simp only [parts, List.map_filterMap, Option.map_map]
    rfl
  have drops : (createdNames stmts).map (fun n => tableDrop n.render) = parts.map Prod.snd := by
    simp only [parts, createdNames, List.map_filterMap, Option.map_map]
    rfl
  rw [texts, drops]
  refine Sql.actions_join (Sql.isSpacing_of_blank rfl rfl) fun e he => ?_
  obtain ⟨text, ht, found⟩ := List.mem_filterMap.1 he
  obtain ⟨n, created, rfl⟩ := Option.map_eq_some_iff.1 found
  have kind := all text (List.mem_reverse.1 ht)
  rw [(created?_eq_some_iff _ _).1 created] at kind
  cases kind with
  | createTable plain => exact holdsStatement_tableDrop plain (b.isSpacing_spacing text)

end Batch

/-- The run of drops removes the keys of their names. -/
theorem runKeys_drops (names : List ObjectName) (plain : ∀ n ∈ names, PlainObject n) :
    ∀ keys : Set String, runKeys none keys (names.map fun n => tableDrop n.render) =
      keys \ {k | ∃ n ∈ names, k = n.key} := by
  induction names with
  | nil =>
    intro keys
    ext k
    simp [runKeys]
  | cons n rest ih =>
    intro keys
    have recognized : Statement.ofText (tableDrop n.render) = .dropTable n :=
      Statement.ofChars_tableDrop (plain n List.mem_cons_self).bare
    rw [List.map_cons, runKeys, recognized]
    simp only [Statement.searchPathAfter, Statement.changeKeys, ObjectName.resolve_none]
    rw [ih fun m hm => plain m (List.mem_cons_of_mem n hm)]
    ext k
    simp only [Set.mem_sdiff, Set.mem_singleton_iff, Set.mem_ofPred_eq, List.mem_cons,
      exists_eq_or_imp, not_or, and_assoc]

/-- The keys that are dropped are those of the names as they are written. -/
theorem writtenKeys_eq (stmts : List String) :
    writtenKeys stmts = {k | ∃ n ∈ createdNames stmts, k = n.key} := by
  ext k
  simp only [writtenKeys, Set.mem_ofPred_eq, mem_createdNames_iff]
  constructor
  · rintro ⟨text, mem, n, created, rfl⟩
    exact ⟨n, ⟨text, mem, created⟩, rfl⟩
  · rintro ⟨n, ⟨text, mem, created⟩, rfl⟩
    exact ⟨text, mem, n, created, rfl⟩

theorem createdKeys_eq (stmts : List String) :
    createdKeys stmts = {k | ∃ p ∈ placeStatements none stmts, ∃ n,
      p.statement = .createTable n ∧ k = (n.resolve p.searchPath).key} :=
  Set.ext (mem_createdKeys_iff stmts)

/-- What is added to a set and what is removed then leave the set as it was exactly if all that was
added is removed and nothing else is. -/
theorem union_sdiff_eq_self_iff {start created written : Set String}
    (apart : ∀ k ∈ start, k ∉ created) :
    (start ∪ created) \ written = start ↔ created ⊆ written ∧ ∀ k ∈ start, k ∉ written := by
  constructor
  · intro same
    constructor
    · intro k hk
      by_contra kept
      have mem : k ∈ start := same ▸ ⟨.inr hk, kept⟩
      exact apart k mem hk
    · intro k hk removed
      have mem : k ∈ (start ∪ created) \ written := same.symm ▸ hk
      exact mem.2 removed
  · rintro ⟨all, only⟩
    ext k
    constructor
    · rintro ⟨mem | mem, kept⟩
      · exact mem
      · exact absurd (all mem) kept
    · intro mem
      exact ⟨.inl mem, only k mem⟩

/--
A file that sets the search path and creates tables with plain names adds their keys; its rollback
removes the keys that the names have as they are written. So the rollback takes back what the file
did exactly if each created key is that of a name as written, and no other table has such a key.
-/
theorem runKeys_rollback (b : Batch) (script : String) (start : Set String)
    (all : ∀ text ∈ Sql.actions script, (Statement.ofText text).PathOrPlainTable)
    (apart : ∀ k ∈ start, k ∉ createdKeys (Sql.actions script)) :
    runKeys none (runKeys none start (Sql.actions script))
        (Sql.actions (b.reverseScript script).1) =
      (start ∪ createdKeys (Sql.actions script)) \ writtenKeys (Sql.actions script) ∧
    (runKeys none (runKeys none start (Sql.actions script))
        (Sql.actions (b.reverseScript script).1) = start ↔
      createdKeys (Sql.actions script) ⊆ writtenKeys (Sql.actions script) ∧
        ∀ k ∈ start, k ∉ writtenKeys (Sql.actions script)) := by
  have plain : ∀ n ∈ createdNames (Sql.actions script), PlainObject n := by
    intro n mem
    obtain ⟨text, ht, created⟩ := (mem_createdNames_iff _ n).1 mem
    have kind := created ▸ all text ht
    cases kind with
    | createTable plain => exact plain
  have final : runKeys none (runKeys none start (Sql.actions script))
        (Sql.actions (b.reverseScript script).1) =
      (start ∪ createdKeys (Sql.actions script)) \ writtenKeys (Sql.actions script) := by
    rw [b.actions_reverseScript script all, runKeys_drops _ plain, writtenKeys_eq, createdKeys_eq,
      runKeys_eq_union _ none start all]
  refine ⟨final, ?_⟩
  rw [final]
  exact union_sdiff_eq_self_iff apart

/-- A batch without a catalog and without annotations. -/
def Batch.bare : Batch := ⟨⟨none, .none⟩, ⟨"rollback_", false⟩⟩

/-- A file that creates a table in a schema that it names only in the search path. -/
def unqualifiedFile : String := "SET search_path = a; CREATE TABLE t (id INT);"

theorem actions_unqualifiedFile :
    Sql.actions unqualifiedFile = ["SET search_path = a;", "CREATE TABLE t (id INT);"] := rfl

theorem pathOrPlainTable_unqualifiedFile :
    ∀ text ∈ Sql.actions unqualifiedFile, (Statement.ofText text).PathOrPlainTable := by
  have path : Statement.ofText "SET search_path = a;" = .setSearchPath "a" := rfl
  have table : Statement.ofText "CREATE TABLE t (id INT);" = .createTable ⟨none, "t"⟩ := rfl
  rw [actions_unqualifiedFile]
  intro text mem
  rcases List.mem_cons.1 mem with rfl | mem
  · rw [path]
    exact .setSearchPath "a"
  · obtain rfl := List.mem_singleton.1 mem
    rw [table]
    exact .createTable ⟨by decide, by simp⟩

/-- The rollback of such a file leaves its table behind. -/
theorem runKeys_rollback_unqualifiedFile :
    (∀ text ∈ Sql.actions unqualifiedFile, (Statement.ofText text).PathOrPlainTable) ∧
      (∀ k ∈ (∅ : Set String), k ∉ createdKeys (Sql.actions unqualifiedFile)) ∧
      runKeys none (runKeys none ∅ (Sql.actions unqualifiedFile))
        (Sql.actions (Batch.bare.reverseScript unqualifiedFile).1) ≠ ∅ := by
  refine ⟨pathOrPlainTable_unqualifiedFile, fun k mem => absurd mem (Set.notMem_empty k), ?_⟩
  have path : Statement.ofText "SET search_path = a;" = .setSearchPath "a" := rfl
  have table : Statement.ofText "CREATE TABLE t (id INT);" = .createTable ⟨none, "t"⟩ := rfl
  have rollback : Sql.actions (Batch.bare.reverseScript unqualifiedFile).1 =
      ["DROP TABLE IF EXISTS t;"] := rfl
  have drop : Statement.ofText "DROP TABLE IF EXISTS t;" = .dropTable ⟨none, "t"⟩ := rfl
  have left : "a.t" ∈ runKeys none (runKeys none ∅ (Sql.actions unqualifiedFile))
      (Sql.actions (Batch.bare.reverseScript unqualifiedFile).1) := by
    rw [actions_unqualifiedFile, rollback]
    simp only [runKeys, path, table, drop, Statement.searchPathAfter, Statement.changeKeys]
    exact ⟨.inl rfl, by decide⟩
  intro empty
  rw [empty] at left
  exact left

/-- A file that creates tables with and without the names of their schemas, while the search path
changes between them. -/
def mixedFile : String :=
  "SET search_path = a; CREATE TABLE t (id INT); CREATE TABLE b.u (id INT); " ++
    "SET search_path = b; CREATE TABLE u (id INT); CREATE TABLE a.t (id INT); " ++
    "CREATE TABLE c.v (id INT);"

theorem actions_mixedFile :
    Sql.actions mixedFile =
      ["SET search_path = a;", "CREATE TABLE t (id INT);", "CREATE TABLE b.u (id INT);",
        "SET search_path = b;", "CREATE TABLE u (id INT);", "CREATE TABLE a.t (id INT);",
        "CREATE TABLE c.v (id INT);"] := by
  decide +kernel

/-- Two statements set the search path; the others create tables, with a schema or without. -/
theorem statements_mixedFile :
    (Sql.actions mixedFile).map Statement.ofText =
      [.setSearchPath "a", .createTable ⟨none, "t"⟩, .createTable ⟨some "b", "u"⟩,
        .setSearchPath "b", .createTable ⟨none, "u"⟩, .createTable ⟨some "a", "t"⟩,
        .createTable ⟨some "c", "v"⟩] := by
  rw [actions_mixedFile]
  decide +kernel

/-- The file sets search paths and creates tables with plain names, and nothing else. -/
theorem pathOrPlainTable_mixedFile :
    ∀ text ∈ Sql.actions mixedFile, (Statement.ofText text).PathOrPlainTable := by
  have unqualified : ∀ name, PlainName name →
      (Statement.createTable ⟨none, name⟩).PathOrPlainTable :=
    fun name plain => .createTable ⟨plain, nofun⟩
  have qualified : ∀ schema name, PlainName schema → PlainName name →
      (Statement.createTable ⟨some schema, name⟩).PathOrPlainTable :=
    fun schema name plain plain' => .createTable ⟨plain', fun s hs => Option.some.inj hs ▸ plain⟩
  intro text mem
  have read : Statement.ofText text ∈ (Sql.actions mixedFile).map Statement.ofText :=
    List.mem_map_of_mem mem
  rw [statements_mixedFile] at read
  generalize Statement.ofText text = s at read
  simp only [List.mem_cons, List.not_mem_nil, or_false] at read
  rcases read with rfl | rfl | rfl | rfl | rfl | rfl | rfl
  · exact .setSearchPath "a"
  · exact unqualified "t" (by decide)
  · exact qualified "b" "u" (by decide) (by decide)
  · exact .setSearchPath "b"
  · exact unqualified "u" (by decide)
  · exact qualified "a" "t" (by decide) (by decide)
  · exact qualified "c" "v" (by decide) (by decide)

/-- Names without a schema get the one in effect, so two of the three keys come twice. -/
theorem mem_createdKeys_mixedFile (k : String) :
    k ∈ createdKeys (Sql.actions mixedFile) ↔ k ∈ ["a.t", "b.u", "b.u", "a.t", "c.v"] := by
  have placed : (placeStatements none (Sql.actions mixedFile)).filterMap (fun p =>
      p.statement.created?.map fun n => (n.resolve p.searchPath).key) =
        ["a.t", "b.u", "b.u", "a.t", "c.v"] := by
    rw [actions_mixedFile]
    decide +kernel
  rw [mem_createdKeys_iff, ← placed]
  simp only [List.mem_filterMap, Option.map_eq_some_iff, created?_eq_some_iff, eq_comm (a := k)]

/-- Names without a schema are dropped as they are, so all five keys differ. -/
theorem mem_writtenKeys_mixedFile (k : String) :
    k ∈ writtenKeys (Sql.actions mixedFile) ↔ k ∈ ["c.v", "a.t", "u", "b.u", "t"] := by
  have names : (createdNames (Sql.actions mixedFile)).map ObjectName.key =
      ["c.v", "a.t", "u", "b.u", "t"] := by
    rw [actions_mixedFile]
    decide +kernel
  rw [writtenKeys_eq, ← names]
  simp only [Set.mem_ofPred_eq, List.mem_map, eq_comm (a := k)]

/-- The rollback of such a file takes back what the file did, as both tables that are created under
a search path are named with their schemas, too. It also drops a table that was there before and has
one of the names without a schema. -/
theorem runKeys_rollback_mixedFile :
    (∀ text ∈ Sql.actions mixedFile, (Statement.ofText text).PathOrPlainTable) ∧
      (∀ k ∈ ({"w", "t"} : Set String), k ∉ createdKeys (Sql.actions mixedFile)) ∧
      runKeys none (runKeys none {"w"} (Sql.actions mixedFile))
          (Sql.actions (Batch.bare.reverseScript mixedFile).1) = {"w"} ∧
        runKeys none (runKeys none {"w", "t"} (Sql.actions mixedFile))
          (Sql.actions (Batch.bare.reverseScript mixedFile).1) = {"w"} := by
  have all := pathOrPlainTable_mixedFile
  have apart : ∀ k ∈ ({"w", "t"} : Set String), k ∉ createdKeys (Sql.actions mixedFile) := by
    rintro k (rfl | rfl) <;> rw [mem_createdKeys_mixedFile] <;> decide
  have apartOne : ∀ k ∈ ({"w"} : Set String), k ∉ createdKeys (Sql.actions mixedFile) :=
    fun k mem => apart k (.inl mem)
  have covered : createdKeys (Sql.actions mixedFile) ⊆ writtenKeys (Sql.actions mixedFile) := by
    intro k mem
    rw [mem_createdKeys_mixedFile] at mem
    rw [mem_writtenKeys_mixedFile]
    revert k
    decide
  refine ⟨all, apart, (runKeys_rollback Batch.bare _ _ all apartOne).2.2 ⟨covered, ?_⟩, ?_⟩
  · rintro k rfl
    rw [mem_writtenKeys_mixedFile]
    decide
  · rw [(runKeys_rollback Batch.bare _ _ all apart).1]
    ext k
    constructor
    · rintro ⟨(rfl | rfl) | created, kept⟩
      · rfl
      · exact absurd ((mem_writtenKeys_mixedFile _).2 (by decide)) kept
      · exact absurd (covered created) kept
    · rintro rfl
      exact ⟨.inl (.inl rfl), fun written => absurd ((mem_writtenKeys_mixedFile _).1 written)
        (by decide)⟩

end Rollback
