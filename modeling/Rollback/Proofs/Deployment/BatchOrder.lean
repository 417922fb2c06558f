import Rollback.Deployment.Batch

/-!
# Order and content of a rollback

A second description of the rollback of a deployment. It has neither a walk with a state nor nested
loops: every statement of a file is looked at by its index, and the files of all units are one list.

- `searchPathAt`: the search path at a statement, which is the last one set in the same file
- `Batch.reversalAt`: the reversal of the statement with a given index
- `Batch.listedRollback`: the rollback of a deployment as one list of files
- `reverseUnits_eq_listedRollback`: the rollback that is computed is the listed one
-/

set_option autoImplicit false

namespace Rollback

/-! ## The listed rollback -/

namespace Statement

/-- The search path that a statement sets, in lower case. -/
def newPath? : Statement → Option String
  | setSearchPath schema => some schema.lowerCase
  | _ => none

end Statement

/-- The search path at the statement with index `i`: the last one set by then in the same file. -/
def searchPathAt (stmts : List String) (i : Nat) : Option String :=
  ((stmts.take (i + 1)).filterMap fun text => (Statement.ofText text).newPath?).getLast?

/-- Some statement creates a table, and every other one does so too, sets the search path or
comments. -/
def CreatesTablesOnly (statements : List Statement) : Prop :=
  (∃ s ∈ statements, s.isCreateTable = true) ∧
    ∀ s ∈ statements, s.isCreateTable = true ∨ s.isSetSearchPath = true ∨ s.isComment = true

instance (statements : List Statement) : Decidable (CreatesTablesOnly statements) :=
  inferInstanceAs (Decidable (_ ∧ _))

namespace Batch

/-- The reversal of the statement with index `i` among the statements of a file. -/
def reversalAt (b : Batch) (stmts : List String) (i : Nat) (text : String) : Reversal :=
  if CreatesTablesOnly (stmts.map Statement.ofText) ∧ (Statement.ofText text).isComment = true then
    .skipped
  else b.reverser.undo (searchPathAt stmts i) (Statement.ofText text)

/-- The statements of a file with their reversals, in forward order. -/
def forwardReversals (b : Batch) (stmts : List String) : List (String × Reversal) :=
  stmts.zipIdx.map fun (text, i) => (text, b.reversalAt stmts i text)

/-- The text of the rollback of a file: the last passage first, with an empty line between. -/
def fileContent (b : Batch) (stmts : List String) : String :=
  Text.join "\n\n" ((b.forwardReversals stmts).reverse.filterMap fun (text, r) => b.passage? text r)

end Batch

/-- The statements of a file that has contents. -/
def DeploymentFile.statements (file : DeploymentFile) : List String :=
  Sql.actions (file.contents.getD "")

/-- The files of all units in forward order, each with the name of its unit. -/
def forwardFiles (units : List DeploymentUnit) : List (String × DeploymentFile) :=
  units.flatMap fun u => u.files.map fun file => (u.name, file)

namespace Batch

/-- The rollback of a file, unless it is empty. -/
def fileRollback? (b : Batch) (unit : String) (file : DeploymentFile) : Option FileRollback :=
  let content := b.fileContent file.statements
  if content = "" then none
  else some ⟨file.name, b.rollbackName file.name, content, file.path, unit⟩

/-- The reversals of all statements of some files. -/
def allReversals (b : Batch) (files : List (String × DeploymentFile)) : List Reversal :=
  files.flatMap fun (_, file) => (b.forwardReversals file.statements).map Prod.snd

end Batch

/-- The number of reversals of each kind. -/
def BatchStats.count (reversals : List Reversal) : BatchStats where
  units := 0
  files := 0
  statements := reversals.length
  reversed := reversals.countP fun r => r matches .statement _
  manual := reversals.countP fun r => r matches .manual _
  unsupported := reversals.countP fun r => r matches .unsupported
  skipped := reversals.countP fun r => r matches .skipped

/-- The texts of some files, each with an empty line after it. -/
def spacedScript (files : List FileRollback) : String :=
  String.join (files.map fun file => file.content ++ "\n\n")

/-- The rollback of some files in the given order; a file whose rollback is empty is
only counted. -/
def Batch.listed (b : Batch) (files : List (String × DeploymentFile)) : BatchRollback :=
  let rollbacks := files.filterMap fun (unit, file) => b.fileRollback? unit file
  { script := spacedScript rollbacks
    files := rollbacks
    stats := { BatchStats.count (b.allReversals files) with files := files.length } }

/-- The rollback of some files that make up a number of units. -/
def BatchRollback.ofUnits (r : BatchRollback) (units : Nat) : BatchRollback :=
  { r with stats.units := units }

/-- The rollback of a deployment: the files of all units, the last one first. -/
def Batch.listedRollback (b : Batch) (units : List DeploymentUnit) : BatchRollback :=
  (b.listed (forwardFiles units).reverse).ofUnits units.length

/-! ## One file -/

/-- A statement sets the search path or leaves it. -/
theorem searchPathAfter_eq (searchPath : Option String) (s : Statement) :
    s.searchPathAfter searchPath = s.newPath?.or searchPath := by
  cases s <;> rfl

/-- The walk through a file gives the statement with index `i` the path that was set last, or the
one that was in effect before the file. -/
theorem getElem?_placeStatements (stmts : List String) :
    ∀ (searchPath : Option String) (i : Nat),
      (placeStatements searchPath stmts)[i]? = stmts[i]?.map fun text =>
        ⟨text, Statement.ofText text, (searchPathAt stmts i).or searchPath⟩ := by
  induction stmts with
  | nil => intro searchPath i; simp [placeStatements]
  | cons first rest ih =>
    intro searchPath i
    cases i with
    | zero =>
      simp only [placeStatements, searchPathAfter_eq, searchPathAt, List.getElem?_cons_zero,
        Option.map_some, List.take_succ_cons, List.take_zero]
      cases h : (Statement.ofText first).newPath? <;> simp [h]
    | succ i =>
      -- A path that a later statement sets wins over the one of the first statement.
      have path : (searchPathAt rest i).or ((Statement.ofText first).newPath?.or searchPath) =
          (searchPathAt (first :: rest) (i + 1)).or searchPath := by
        rw [searchPathAt, searchPathAt, List.take_succ_cons, List.filterMap_cons]
        cases (Statement.ofText first).newPath? with
        | none => simp
        | some schema =>
          rw [List.getLast?_cons]
          cases ((rest.take (i + 1)).filterMap fun t => (Statement.ofText t).newPath?).getLast? <;>
            simp
      simp only [placeStatements, searchPathAfter_eq, List.getElem?_cons_succ, ih, path]

/-- The check for files that only create tables, in words of all their statements. -/
theorem onlyCreatesTables_iff (statements : List Statement) :
    onlyCreatesTables statements = true ↔ CreatesTablesOnly statements := by
  simp [onlyCreatesTables, CreatesTablesOnly, or_assoc]

namespace Batch

variable (b : Batch)

/-- A statement in its place is reversed by its index in the file. -/
theorem reversePlaced_eq (stmts : List String) (i : Nat) (text : String) :
    b.reversePlaced (onlyCreatesTables (stmts.map Statement.ofText))
        ⟨text, Statement.ofText text, searchPathAt stmts i⟩ = b.reversalAt stmts i text := by
  simp [reversePlaced, reversalAt, onlyCreatesTables_iff]

/-- The walk through a file finds the listed reversals, the last one first. -/
theorem reversals_eq (stmts : List String) :
    b.reversals stmts = (b.forwardReversals stmts).reverse := by
  have texts : (placeStatements none stmts).map PlacedStatement.statement =
      stmts.map Statement.ofText := by
    apply List.ext_getElem?
    intro i
    simp only [List.getElem?_map, getElem?_placeStatements, Option.map_map]
    rfl
  rw [reversals, texts, List.map_reverse]
  congr 1
  apply List.ext_getElem?
  intro i
  simp only [forwardReversals, List.getElem?_map, List.getElem?_zipIdx, getElem?_placeStatements,
    Option.map_map, Option.or_none]
  congr 1
  funext text
  simp [reversePlaced_eq]

end Batch

namespace BatchStats

theorem add_assoc (x y z : BatchStats) : x + y + z = x + (y + z) := by
  show add (add x y) z = add x (add y z)
  simp [add, Nat.add_assoc]

@[simp] theorem zero_add (x : BatchStats) : zero + x = x := by
  show add zero x = x
  simp [add, zero]

theorem count_cons (r : Reversal) (rest : List Reversal) :
    count (r :: rest) = ofReversal r + count rest := by
  show _ = add _ _
  cases r <;> simp [count, ofReversal, add, zero, Nat.add_comm]

theorem count_append (x y : List Reversal) : count (x ++ y) = count x + count y := by
  show _ = add _ _
  simp [count, add]

@[simp] theorem count_reverse (x : List Reversal) : count x.reverse = count x := by
  simp [count]

/-- The counts of a file are those of its reversals, and one file. -/
theorem count_add_file (reversals : List Reversal) :
    count reversals + { zero with files := 1 } = { count reversals with files := 1 } :=
  rfl

/-- Adding up reversals one by one starts from any counts. -/
theorem foldl_add_ofReversal (reversals : List Reversal) (s : BatchStats) :
    (reversals.map ofReversal).foldl add s = s + count reversals := by
  induction reversals generalizing s with
  | nil => rfl
  | cons r rest ih =>
    rw [List.map_cons, List.foldl_cons, ih, count_cons, ← add_assoc]
    rfl

theorem sum_ofReversal (reversals : List Reversal) :
    sum (reversals.map ofReversal) = count reversals := by
  rw [sum, foldl_add_ofReversal, zero_add]

/-- Every reversal is of exactly one kind. -/
theorem statements_count (reversals : List Reversal) :
    (count reversals).statements = (count reversals).reversed + (count reversals).manual +
      (count reversals).unsupported + (count reversals).skipped := by
  induction reversals with
  | nil => rfl
  | cons r rest ih =>
    simp only [count] at ih ⊢
    cases r <;> simp <;> omega

end BatchStats

namespace Batch

variable (b : Batch)

/-- A file is reversed to its passages in backward order, and all its statements are counted. -/
theorem reverseStatements_eq (stmts : List String) :
    b.reverseStatements stmts =
      (b.fileContent stmts, .count ((b.forwardReversals stmts).map Prod.snd)) := by
  have counts : BatchStats.sum ((b.forwardReversals stmts).reverse.map fun x => .ofReversal x.2) =
      .count ((b.forwardReversals stmts).map Prod.snd) := by
    rw [← BatchStats.count_reverse, ← BatchStats.sum_ofReversal, ← List.map_reverse, List.map_map]
    rfl
  rw [reverseStatements, reversals_eq, fileContent]
  simp only [counts]

/-! ## A deployment -/

theorem listed_append (x y : List (String × DeploymentFile)) :
    b.listed (x ++ y) = b.listed x ++ b.listed y := by
  show _ = BatchRollback.append _ _
  have reversals : b.allReversals (x ++ y) = b.allReversals x ++ b.allReversals y :=
    List.flatMap_append
  have counts : BatchStats.count (b.allReversals x ++ b.allReversals y) =
      BatchStats.add (.count (b.allReversals x)) (.count (b.allReversals y)) :=
    BatchStats.count_append _ _
  simp only [listed, BatchRollback.append, List.filterMap_append, spacedScript, List.map_append,
    String.join_append, List.length_append, reversals, counts]
  rfl

/-- One file is a listing of its own. -/
theorem reverseFile_eq_listed (unit : String) (file : DeploymentFile) {text : String}
    (h : file.contents = some text) : b.reverseFile unit file text = b.listed [(unit, file)] := by
  have stmts : file.statements = Sql.actions text := by simp [DeploymentFile.statements, h]
  have reversals : b.allReversals [(unit, file)] =
      (b.forwardReversals (Sql.actions text)).map Prod.snd := by simp [allReversals, stmts]
  have single : spacedScript [⟨file.name, b.rollbackName file.name,
      b.fileContent (Sql.actions text), file.path, unit⟩] =
      b.fileContent (Sql.actions text) ++ "\n\n" := by
    apply String.toList_inj.1
    simp [spacedScript]
  rw [reverseFile, reverseScript, reverseStatements_eq, listed, reversals]
  by_cases empty : b.fileContent (Sql.actions text) = ""
  · simp [fileRollback?, stmts, empty, spacedScript, BatchStats.count_add_file]
  · simp [fileRollback?, stmts, empty, single, BatchStats.count_add_file]

/-- The files of a unit are listed in the order in which they are reversed. -/
theorem reverseFiles_eq_listed (t : FileTree) (unit : String) (files : List DeploymentFile)
    (h : ∀ file ∈ files, file.contents.isSome = true) :
    b.reverseFiles t unit files = .ok (b.listed (files.map fun file => (unit, file))) := by
  induction files with
  | nil => rfl
  | cons file rest ih =>
    obtain ⟨text, contents⟩ := Option.isSome_iff_exists.1 (h file List.mem_cons_self)
    have load : file.load t = .ok text := by simp [DeploymentFile.load, contents]
    have rest_ok := ih fun f hf => h f (List.mem_cons_of_mem _ hf)
    have first := reverseFile_eq_listed b unit file contents
    calc b.reverseFiles t unit (file :: rest)
        = .ok (b.listed [(unit, file)] ++ b.listed (rest.map fun f => (unit, f))) := by
          rw [reverseFiles, load, rest_ok, ← first]
          rfl
      _ = .ok (b.listed ((file :: rest).map fun f => (unit, f))) := by
          rw [← listed_append, List.map_cons, List.singleton_append]

/-- A unit adds its files, the last one first, and is counted. -/
theorem unit_append_listed (files more : List (String × DeploymentFile)) (n : Nat) :
    ⟨"", [], { BatchStats.zero with units := 1 }⟩ ++ b.listed files ++ (b.listed more).ofUnits n =
      (b.listed (files ++ more)).ofUnits (n + 1) := by
  rw [listed_append]
  show BatchRollback.append (BatchRollback.append _ _) _ =
    BatchRollback.ofUnits (BatchRollback.append _ _) _
  have stats : ∀ x y : BatchStats, x.units = 0 →
      { BatchStats.zero with units := 1 } + x + { y with units := n } =
        { x + y with units := n + 1 } := by
    intro x y hx
    show BatchStats.add (BatchStats.add _ _) _ = { BatchStats.add x y with units := n + 1 }
    simp [BatchStats.add, BatchStats.zero, hx, Nat.add_comm]
  simp only [BatchRollback.append, BatchRollback.ofUnits, String.empty_append, List.nil_append]
  rw [stats _ _ rfl]

/-- Units in a given order are listed with the files of each in backward order. -/
theorem reverseInOrder_eq_listed (t : FileTree) (units : List DeploymentUnit)
    (h : ∀ u ∈ units, ∀ file ∈ u.files, file.contents.isSome = true) :
    b.reverseInOrder t units =
      .ok ((b.listed (units.flatMap fun u =>
        u.files.reverse.map fun file => (u.name, file))).ofUnits units.length) := by
  induction units with
  | nil => rfl
  | cons u rest ih =>
    have files := b.reverseFiles_eq_listed t u.name u.files.reverse fun file hf =>
      h u List.mem_cons_self file (List.mem_reverse.1 hf)
    have rest_ok := ih fun v hv => h v (List.mem_cons_of_mem _ hv)
    rw [reverseInOrder, files, rest_ok, List.flatMap_cons, List.length_cons, ← unit_append_listed]
    rfl

end Batch

/-- The last file of all comes first: units and the files of each are both turned around. -/
theorem reverse_forwardFiles (units : List DeploymentUnit) :
    (forwardFiles units).reverse =
      units.reverse.flatMap fun u => u.files.reverse.map fun file => (u.name, file) := by
  rw [forwardFiles, List.reverse_flatMap]
  congr 1
  funext u
  simp

/--
The rollback of a deployment is the listed one: it undoes the files of all units in reverse order,
and in each file the statements in reverse order, with the search paths of the same file. Every
statement is counted once.
-/
theorem reverseUnits_eq_listedRollback (b : Batch) (t : FileTree) (units : List DeploymentUnit)
    (h : ∀ u ∈ units, ∀ file ∈ u.files, file.contents.isSome = true) :
    b.reverseUnits t units = .ok (b.listedRollback units) ∧
      (b.listedRollback units).stats.statements =
        ((forwardFiles units).flatMap fun (_, file) => file.statements).length ∧
      (b.listedRollback units).stats.statements =
        (b.listedRollback units).stats.reversed + (b.listedRollback units).stats.manual +
          (b.listedRollback units).stats.unsupported + (b.listedRollback units).stats.skipped := by
  have statements : (b.listedRollback units).stats.statements =
      ((forwardFiles units).flatMap fun (_, file) => file.statements).length := by
    show (b.allReversals (forwardFiles units).reverse).length = _
    simp [Batch.allReversals, Batch.forwardReversals, List.length_flatMap, Function.comp_def]
  refine ⟨?_, statements, BatchStats.statements_count _⟩
  rw [Batch.reverseUnits, Batch.listedRollback, reverse_forwardFiles, ← List.length_reverse]
  exact b.reverseInOrder_eq_listed t units.reverse fun u hu => h u (List.mem_reverse.1 hu)

/-- Two units with three files, of which the second only creates tables. -/
def threeFiles : List DeploymentUnit :=
  [⟨"first", [⟨"a.sql", "first/a.sql", some "SET search_path = s; CREATE VIEW v AS SELECT 1;"⟩,
      ⟨"b.sql", "first/b.sql", some "CREATE TABLE t (id INT); COMMENT ON TABLE t IS 'x';"⟩]⟩,
    ⟨"second",
      [⟨"c.sql", "second/c.sql", some "COMMENT ON TABLE t IS 'y'; CREATE INDEX i ON t (id);"⟩]⟩]

/-- The text, the names and the counts of a rollback of three files in two units. -/
theorem reverseUnits_threeFiles :
    (∀ u ∈ threeFiles, ∀ file ∈ u.files, file.contents.isSome = true) ∧
      (Batch.reverseUnits ⟨⟨none, .none⟩, ⟨"undo_", false⟩⟩ ⟨[], []⟩ threeFiles).map
        (fun r => (r.script, r.files.map FileRollback.rollbackName, r.stats)) =
      .ok
        ("DROP INDEX IF EXISTS i;\n\n/* MANUAL: no catalog information for table t, " ++
            "prior comment unknown */\n\nDROP TABLE IF EXISTS t;\n\nDROP VIEW IF EXISTS v;\n\n",
          ["undo_c.sql", "undo_b.sql", "undo_a.sql"], ⟨2, 3, 6, 3, 1, 0, 2⟩) := by
  have contents : ∀ u ∈ threeFiles, ∀ file ∈ u.files, file.contents.isSome = true := by decide
  refine ⟨contents, ?_⟩
  rw [(reverseUnits_eq_listedRollback ⟨⟨none, .none⟩, ⟨"undo_", false⟩⟩ ⟨[], []⟩ threeFiles
    contents).1]
  exact congrArg Except.ok rfl

end Rollback
