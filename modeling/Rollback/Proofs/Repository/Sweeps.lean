import Rollback.Proofs.Files.Additions
import Rollback.Proofs.Repository.Sources

/-!
# Sweeps through a repository

The sources of a repository can be found by opening one directory after another. The order in which
a directory lists its entries decides in which order the others are opened, but neither which
directories these are nor which sources are found.

- `Lists`: what the directories of a tree list, in any order
- `Sweep`: a search that is under way
- `perm_below`: what is below a directory is what is below its entries
- `Sweep.run_of_openable`: from any point on, a sweep finds what is below the directories to be
  opened
- `discover_spec`: what is discovered, in which order, and by any sweep
-/

set_option autoImplicit false

namespace Rollback

open FileTree

/-! ## Listings -/

/-- What each directory lists, in order: the names of its entries, and whether they are directories.
The directories are given by the names on the way to them. -/
abbrev DirectoryListing := List String → List (String × Bool)

/-- The directories below a place list each of their entries once. -/
structure Lists (t : FileTree) (place : Location) (listing : DirectoryListing) : Prop where
  each : ∀ way, t.entry? (place ++ way) = some .directory → ∀ name isDirectory,
    (name, isDirectory) ∈ listing way ↔
      ∃ entry, t.entry? (place ++ (way ++ [name])) = some entry ∧
        isDirectory = (entry == .directory)
  once : ∀ way, t.entry? (place ++ way) = some .directory → (listing way).Nodup

/-- The order of the entries does not matter. -/
theorem Lists.reverse {t : FileTree} {place : Location} {listing : DirectoryListing}
    (h : Lists t place listing) : Lists t place fun way => (listing way).reverse where
  each way directory name isDirectory := by
    rw [List.mem_reverse]
    exact h.each way directory name isDirectory
  once way directory := List.nodup_reverse.2 (h.once way directory)

/-- What each directory lists if the entries come in the order of the tree. -/
def listingOf (t : FileTree) (place : Location) : DirectoryListing := fun way =>
  t.entries.filterMap fun e =>
    if e.1.dropLast = place ++ way then
      e.1.getLast?.map fun name => (name, e.2 == .directory)
    else none

/-- A listing names the entries of one directory, and tells which ones are directories. -/
theorem mem_listingOf_iff {t : FileTree} {place : Location} {way : List String} {name : String}
    {isDirectory : Bool} :
    (name, isDirectory) ∈ listingOf t place way ↔
      ∃ entry, (place ++ way ++ [name], entry) ∈ t.entries ∧
        isDirectory = (entry == .directory) := by
  rw [listingOf, List.mem_filterMap]
  constructor
  · rintro ⟨⟨p, entry⟩, mem, found⟩
    rw [Option.ite_none_right_eq_some, Option.map_eq_some_iff] at found
    obtain ⟨above, last, ends, same⟩ := found
    obtain ⟨rfl, rfl⟩ := Prod.mk.inj same
    have split : p = place ++ way ++ [last] := by
      rw [← above, List.dropLast_append_getLast? last ends]
    exact ⟨entry, split ▸ mem, rfl⟩
  · rintro ⟨entry, mem, rfl⟩
    refine ⟨_, mem, ?_⟩
    rw [List.dropLast_concat, if_pos rfl, List.getLast?_concat]
    rfl

/-- Such a listing lists the directory as it is, without repetition. -/
theorem lists_listingOf {t : FileTree} (wf : t.WellFormed) (place : Location) :
    Lists t place (listingOf t place) where
  each way directory name isDirectory := by
    rw [mem_listingOf_iff, ← List.append_assoc]
    constructor
    · rintro ⟨entry, mem, kind⟩
      exact ⟨entry, (wf.mem_entries_iff.1 mem).2, kind⟩
    · rintro ⟨entry, found, kind⟩
      exact ⟨entry, wf.mem_entries_iff.2 ⟨by simp, found⟩, kind⟩
  once way directory := by
    refine List.Pairwise.filterMap _ ?_ (List.pairwise_map.1 wf.distinct)
    rintro ⟨p, entry⟩ ⟨q, other⟩ apart e first e' second same
    subst same
    rw [Option.ite_none_right_eq_some, Option.map_eq_some_iff] at first second
    obtain ⟨above, last, ends, rfl⟩ := first
    obtain ⟨above', last', ends', eq⟩ := second
    obtain rfl : last' = last := (Prod.mk.inj eq).1
    refine apart ?_
    dsimp only at above above' ends ends' ⊢
    rw [← List.dropLast_append_getLast? last' ends, ← List.dropLast_append_getLast? last' ends',
      above, above']

/-- Whether directories of a name are to be skipped, in any letter case. -/
def isSkipped (skipped : List String) (name : String) : Bool :=
  (skipped.map String.lowerCase).contains name.lowerCase

/-! ## Sweeps -/

/-- A search that is under way: the directories to be opened, the next one first, and the files of
SQL that were found so far. -/
structure Sweep where
  pending : List (List String)
  found : List (List String)

namespace Sweep

/-- Before the root is opened. -/
def start : Sweep := ⟨[[]], []⟩

/-- An entry of a directory is looked at: other directories are to be opened, files of SQL are
found. -/
def look (skipped : List String) (way : List String) (s : Sweep) : String × Bool → Sweep
  | (name, true) =>
    if isSkipped skipped name then s else { s with pending := (way ++ [name]) :: s.pending }
  | (name, false) =>
    if Path.isSqlName name then { s with found := s.found ++ [way ++ [name]] } else s

/-- The sources that a search finds, in the order of their paths, or the directory that it cannot
open; nothing if more directories are to be opened than the given number. -/
def run (root : String) (listing : DirectoryListing) (skipped : List String) :
    Nat → Sweep → Option (Except Failure (List SourceFile))
  | _, ⟨[], found⟩ =>
    some (.ok ((found.mergeSort Path.comesBefore).map (SourceFile.ofNames root)))
  | 0, ⟨_ :: _, _⟩ => none
  | fuel + 1, ⟨way :: pending, found⟩ =>
    if Path.longestPath < (pathAlong root way).utf8ByteSize then
      some (.error (.unreadable (pathAlong root way) .nameTooLong))
    else run root listing skipped fuel ((listing way).foldl (look skipped way) ⟨pending, found⟩)

/-- The ways to the directories among the entries of a directory that are not to be skipped. -/
def further (skipped : List String) (way : List String) (entries : List (String × Bool)) :
    List (List String) :=
  entries.filterMap fun e => if e.2 && !isSkipped skipped e.1 then some (way ++ [e.1]) else none

/-- The ways to the files of SQL among the entries of a directory. -/
def scripts (way : List String) (entries : List (String × Bool)) : List (List String) :=
  entries.filterMap fun e => if !e.2 && Path.isSqlName e.1 then some (way ++ [e.1]) else none

/-- What is done once a directory is open: the last directory in it is opened first. -/
theorem foldl_look (skipped way : List String) (entries : List (String × Bool)) (s : Sweep) :
    entries.foldl (look skipped way) s =
      ⟨(further skipped way entries).reverse ++ s.pending, s.found ++ scripts way entries⟩ := by
  induction entries generalizing s with
  | nil => simp [further, scripts]
  | cons e rest ih =>
    obtain ⟨name, isDirectory⟩ := e
    rw [List.foldl_cons, ih]
    cases isDirectory with
    | true => cases skip : isSkipped skipped name <;> simp [look, further, scripts, skip]
    | false => cases sql : Path.isSqlName name <;> simp [look, further, scripts, sql]

end Sweep

/-! ## What is below a directory -/

/-- The ways among some others that start with a way. -/
def below (ways : List (List String)) (way : List String) : List (List String) :=
  ways.filter fun w => way.isPrefixOf w

theorem mem_below_iff {ways : List (List String)} {way w : List String} :
    w ∈ below ways way ↔ w ∈ ways ∧ way <+: w := by
  rw [below, List.mem_filter, List.isPrefixOf_iff_prefix]

/-- One way goes on in one direction. -/
theorem concat_inj_of_start {way w : List String} {a b : String} (ha : way ++ [a] <+: w)
    (hb : way ++ [b] <+: w) : way ++ [a] = way ++ [b] := by
  refine (List.prefix_of_prefix_length_le ha hb ?_).eq_of_length ?_
  · simp
  · simp

/-- What is below a directory is the directory itself and what is below its entries. -/
theorem perm_below {ways : List (List String)} (distinct : ways.Nodup) (way : List String)
    {heads : List (List String)} (apart : heads.Nodup)
    (next : ∀ head ∈ heads, ∃ name, head = way ++ [name])
    (covered : ∀ w ∈ ways, way <+: w → w = way ∨ ∃ head ∈ heads, head <+: w) :
    (below ways way).Perm (ways.filter (· == way) ++ heads.flatMap (below ways)) := by
  refine (List.perm_ext_iff_of_nodup (distinct.filter _) ?_).2 ?_
  · rw [List.nodup_append]
    refine ⟨distinct.filter _, ?_, ?_⟩
    · rw [List.nodup_flatMap]
      refine ⟨fun head _ => distinct.filter _, apart.imp_of_mem ?_⟩
      intro head head' mem mem' different w inside inside'
      obtain ⟨name, rfl⟩ := next head mem
      obtain ⟨name', rfl⟩ := next head' mem'
      exact different (concat_inj_of_start (mem_below_iff.1 inside).2 (mem_below_iff.1 inside').2)
    · -- Below an entry nothing is as short as the way to the directory.
      rintro w self w' inside rfl
      rw [List.mem_filter, beq_iff_eq] at self
      obtain ⟨head, mem, inside⟩ := List.mem_flatMap.1 inside
      obtain ⟨name, rfl⟩ := next head mem
      have short := (mem_below_iff.1 inside).2.length_le
      rw [self.2, List.length_append, List.length_singleton] at short
      omega
  -- Both sides have the same ways: a way below the directory is itself or below an entry.
  · intro w
    show w ∈ below ways way ↔ _
    rw [mem_below_iff, List.mem_append, List.mem_filter, beq_iff_eq, List.mem_flatMap]
    constructor
    · rintro ⟨mem, starts⟩
      rcases covered w mem starts with same | ⟨head, inside, more⟩
      · exact .inl ⟨mem, same⟩
      · exact .inr ⟨head, inside, mem_below_iff.2 ⟨mem, more⟩⟩
    · rintro (⟨mem, rfl⟩ | ⟨head, inside, mem⟩)
      · exact ⟨mem, List.prefix_refl w⟩
      · obtain ⟨name, rfl⟩ := next head inside
        obtain ⟨mem, starts⟩ := mem_below_iff.1 mem
        exact ⟨mem, (List.prefix_append way [name]).trans starts⟩

/-! ## The directories and the sources of a repository -/

/-- The ways to the directories that are entered, the root among them. -/
def entered (t : FileTree) (place : Location) (skipped : List String) : List (List String) :=
  [] :: (t.directoriesUnder place).filter fun way => !way.isEmpty && isVisited skipped way

/-- The ways to the sources. -/
def sourceWays (t : FileTree) (place : Location) (skipped : List String) : List (List String) :=
  (t.filesUnder place).filter (isSource skipped)

theorem isVisited_append (skipped a b : List String) :
    isVisited skipped (a ++ b) = (isVisited skipped a && isVisited skipped b) :=
  List.all_append

theorem isVisited_singleton (skipped : List String) (name : String) :
    isVisited skipped [name] = !isSkipped skipped name := by
  rw [isVisited, List.all_cons, List.all_nil, Bool.and_true]
  rfl

/-- The last name has to be that of a script, and the directories before it have to be visited. -/
theorem isSource_concat (skipped way : List String) (name : String) :
    isSource skipped (way ++ [name]) = (Path.isSqlName name && isVisited skipped way) := by
  rw [isSource, List.getLast?_concat, List.dropLast_concat]
  rfl

section Repository

variable {t : FileTree} {place : Location} {skipped : List String} {way : List String}
  {listing : DirectoryListing} (wf : t.WellFormed) (top : t.entry? place = some .directory)

include wf in
theorem nodup_sourceWays (place : Location) (skipped : List String) :
    (sourceWays t place skipped).Nodup :=
  wf.nodup_filesUnder.filter _

include wf in

/-- The sources are the files on ways that are wanted. -/
theorem mem_sourceWays_iff :
    way ∈ sourceWays t place skipped ↔
      (∃ content, t.entry? (place ++ way) = some (.file content)) ∧
        isSource skipped way = true := by
  rw [sourceWays, List.mem_filter, wf.mem_filesUnder_iff]

include wf in
theorem nodup_entered (place : Location) (skipped : List String) :
    (entered t place skipped).Nodup := by
  rw [entered, List.nodup_cons, directoriesUnder_eq]
  refine ⟨?_, (wf.nodup_waysTo _).filter _⟩
  intro mem
  have nonempty := (List.mem_filter.1 mem).2
  cases nonempty

include wf top in

/-- The directories that are entered are those on ways that are visited. -/
theorem mem_entered_iff :
    way ∈ entered t place skipped ↔
      t.entry? (place ++ way) = some .directory ∧ isVisited skipped way = true := by
  rw [entered, List.mem_cons, List.mem_filter, directoriesUnder_eq, wf.mem_waysTo_iff,
    Bool.and_eq_true, Bool.not_eq_true', List.isEmpty_eq_false_iff]
  constructor
  · rintro (rfl | ⟨⟨-, entry, found, kind⟩, -, visited⟩)
    · exact ⟨(List.append_nil place).symm ▸ top, rfl⟩
    · exact ⟨beq_iff_eq.1 kind ▸ found, visited⟩
  · rintro ⟨found, visited⟩
    by_cases root : way = []
    · exact .inl root
    · exact .inr ⟨⟨by simp [root], _, found, by simp⟩, root, visited⟩

include wf top in
/-- The directories on the way to something are entered, if none of them is to be skipped. -/
theorem mem_entered_of_append {rest : List String} {entry : Entry}
    (found : t.entry? (place ++ (way ++ rest)) = some entry) (more : rest ≠ [])
    (visited : isVisited skipped way = true) : way ∈ entered t place skipped := by
  rw [← List.append_assoc] at found
  exact (mem_entered_iff wf top).2 ⟨wf.directory_above found more, visited⟩

include wf top in

/-- The listing of a directory leads to those directories below it that are entered. -/
theorem mem_further_iff (lists : Lists t place listing) (here : way ∈ entered t place skipped)
    {w : List String} :
    w ∈ Sweep.further skipped way (listing way) ↔
      ∃ name, w = way ++ [name] ∧ w ∈ entered t place skipped := by
  obtain ⟨directory, visited⟩ := (mem_entered_iff wf top).1 here
  rw [Sweep.further, List.mem_filterMap]
  constructor
  · rintro ⟨⟨name, isDirectory⟩, mem, found⟩
    rw [Option.ite_none_right_eq_some, Bool.and_eq_true] at found
    obtain ⟨⟨rfl, unskipped⟩, same⟩ := found
    obtain rfl := Option.some.inj same
    obtain ⟨entry, found, kind⟩ := (lists.each way directory name true).1 mem
    rw [beq_iff_eq.1 kind.symm] at found
    refine ⟨name, rfl, (mem_entered_iff wf top).2 ⟨found, ?_⟩⟩
    rw [isVisited_append, visited, isVisited_singleton]
    exact unskipped
  · rintro ⟨name, rfl, mem⟩
    obtain ⟨found, unskipped⟩ := (mem_entered_iff wf top).1 mem
    rw [isVisited_append, visited, isVisited_singleton, Bool.true_and] at unskipped
    refine ⟨(name, true), (lists.each way directory name true).2 ⟨_, found, by simp⟩, ?_⟩
    rw [if_pos (by simpa using unskipped)]

include wf top in

/-- The listing of a directory leads to the sources in it. -/
theorem mem_scripts_iff (lists : Lists t place listing) (here : way ∈ entered t place skipped)
    {w : List String} :
    w ∈ Sweep.scripts way (listing way) ↔
      ∃ name, w = way ++ [name] ∧ w ∈ sourceWays t place skipped := by
  obtain ⟨directory, visited⟩ := (mem_entered_iff wf top).1 here
  rw [Sweep.scripts, List.mem_filterMap]
  constructor
  · rintro ⟨⟨name, isDirectory⟩, mem, found⟩
    rw [Option.ite_none_right_eq_some, Bool.and_eq_true, Bool.not_eq_true'] at found
    obtain ⟨⟨rfl, sql⟩, same⟩ := found
    obtain rfl := Option.some.inj same
    obtain ⟨entry, found, kind⟩ := (lists.each way directory name false).1 mem
    cases entry with
    | directory => cases kind
    | file content =>
      refine ⟨name, rfl, (mem_sourceWays_iff wf).2 ⟨⟨content, found⟩, ?_⟩⟩
      rw [isSource_concat, visited, Bool.and_true]
      exact sql
  · rintro ⟨name, rfl, mem⟩
    obtain ⟨⟨content, found⟩, source⟩ := (mem_sourceWays_iff wf).1 mem
    rw [isSource_concat, visited, Bool.and_true] at source
    refine ⟨(name, false), (lists.each way directory name false).2 ⟨_, found, by simp⟩, ?_⟩
    rw [if_pos (by simpa using source)]

/-- The ways to the entries of one kind in a directory are different. -/
theorem nodup_filterMap_concat {entries : List (String × Bool)} (distinct : entries.Nodup)
    (way : List String) {wanted : String × Bool → Bool} {kind : Bool}
    (kinds : ∀ e, wanted e = true → e.2 = kind) :
    (entries.filterMap fun e => if wanted e = true then some (way ++ [e.1]) else none).Nodup := by
  refine List.Pairwise.filterMap _ ?_ distinct
  intro e e' apart w first w' second same
  subst same
  rw [Option.ite_none_right_eq_some, Option.some.injEq] at first second
  have names := (List.cons.inj (List.append_cancel_left (first.2.trans second.2.symm))).1
  exact apart (Prod.ext names ((kinds e first.1).trans (kinds e' second.1).symm))

theorem nodup_further {entries : List (String × Bool)} (distinct : entries.Nodup)
    (skipped way : List String) : (Sweep.further skipped way entries).Nodup :=
  nodup_filterMap_concat distinct way fun _ wanted => (Bool.and_eq_true_iff.1 wanted).1

theorem nodup_scripts {entries : List (String × Bool)} (distinct : entries.Nodup)
    (way : List String) : (Sweep.scripts way entries).Nodup :=
  nodup_filterMap_concat distinct way fun _ wanted => by
    simpa using (Bool.and_eq_true_iff.1 wanted).1

include wf top in
/-- Below a directory, the directories that are entered are itself and those below the directories
in it. -/
theorem perm_below_entered (lists : Lists t place listing) (here : way ∈ entered t place skipped) :
    (below (entered t place skipped) way).Perm
      (way :: (Sweep.further skipped way (listing way)).flatMap
        (below (entered t place skipped))) := by
  have directory := ((mem_entered_iff wf top).1 here).1
  have distinct := nodup_entered wf place skipped
  have self : (entered t place skipped).filter (· == way) = [way] := by
    rw [List.filter_beq, List.count_eq_one_of_mem distinct here]
    rfl
  have perm := perm_below distinct way (nodup_further (lists.once way directory) skipped way)
    (fun head mem => ?_) ?_
  · rwa [self] at perm
  · obtain ⟨name, same, -⟩ := (mem_further_iff wf top lists here).1 mem
    exact ⟨name, same⟩
  · rintro w mem ⟨rest, rfl⟩
    obtain ⟨found, visited⟩ := (mem_entered_iff wf top).1 mem
    cases rest with
    | nil => exact .inl (List.append_nil way)
    | cons name rest =>
      rw [List.append_cons] at mem found visited ⊢
      rw [isVisited_append, Bool.and_eq_true] at visited
      refine .inr ⟨way ++ [name], (mem_further_iff wf top lists here).2 ⟨name, rfl, ?_⟩,
        List.prefix_append _ rest⟩
      by_cases last : rest = []
      · rwa [last, List.append_nil] at mem
      · exact mem_entered_of_append wf top found last visited.1

include wf in
/-- Nothing is below a source. -/
theorem below_source (source : way ∈ sourceWays t place skipped) :
    below (sourceWays t place skipped) way = [way] := by
  have distinct := nodup_sourceWays wf place skipped
  obtain ⟨⟨content, file⟩, -⟩ := (mem_sourceWays_iff wf).1 source
  have perm := perm_below distinct way List.nodup_nil (List.forall_mem_nil _) ?_
  · rw [List.filter_beq, List.count_eq_one_of_mem distinct source] at perm
    exact List.perm_singleton.1 perm
  · rintro w mem ⟨rest, rfl⟩
    obtain ⟨⟨other, found⟩, -⟩ := (mem_sourceWays_iff wf).1 mem
    cases rest with
    | nil => exact .inl (List.append_nil way)
    | cons name rest =>
      rw [← List.append_assoc] at found
      rw [wf.directory_above found (List.cons_ne_nil name rest)] at file
      cases file

include wf top in
/-- Below a directory, the sources are the files of SQL in it and the sources below the directories
in it. -/
theorem perm_below_sourceWays (lists : Lists t place listing)
    (here : way ∈ entered t place skipped) :
    (below (sourceWays t place skipped) way).Perm
      (Sweep.scripts way (listing way) ++
        (Sweep.further skipped way (listing way)).flatMap
          (below (sourceWays t place skipped))) := by
  obtain ⟨directory, visited⟩ := (mem_entered_iff wf top).1 here
  have once := lists.once way directory
  have noSource : ∀ w ∈ sourceWays t place skipped, w ∉ entered t place skipped := by
    intro w source entering
    obtain ⟨⟨content, file⟩, -⟩ := (mem_sourceWays_iff wf).1 source
    rw [((mem_entered_iff wf top).1 entering).1] at file
    cases file
  have noSelf : (sourceWays t place skipped).filter (· == way) = [] := by
    rw [List.filter_eq_nil_iff]
    intro w source same
    exact noSource w source (beq_iff_eq.1 same ▸ here)
  have ends : ∀ w ∈ Sweep.scripts way (listing way),
      below (sourceWays t place skipped) w = [w] := by
    intro w mem
    obtain ⟨name, -, source⟩ := (mem_scripts_iff wf top lists here).1 mem
    exact below_source wf source
  have apart : (Sweep.scripts way (listing way) ++
      Sweep.further skipped way (listing way)).Nodup := by
    refine List.nodup_append.2 ⟨nodup_scripts once way, nodup_further once skipped way, ?_⟩
    rintro w script w' directory rfl
    obtain ⟨name, -, source⟩ := (mem_scripts_iff wf top lists here).1 script
    obtain ⟨name', -, entering⟩ := (mem_further_iff wf top lists here).1 directory
    exact noSource w source entering
  have perm := perm_below (nodup_sourceWays wf place skipped) way apart ?_ ?_
  · rw [noSelf, List.nil_append, List.flatMap_append, List.flatMap_congr ends,
      List.flatMap_singleton'] at perm
    exact perm
  · intro head mem
    rcases List.mem_append.1 mem with mem | mem
    · obtain ⟨name, same, -⟩ := (mem_scripts_iff wf top lists here).1 mem
      exact ⟨name, same⟩
    · obtain ⟨name, same, -⟩ := (mem_further_iff wf top lists here).1 mem
      exact ⟨name, same⟩
  · rintro w source ⟨rest, rfl⟩
    cases rest with
    | nil => exact .inl (List.append_nil way)
    | cons name rest =>
      rw [List.append_cons] at source ⊢
      refine .inr ⟨way ++ [name], ?_, List.prefix_append _ rest⟩
      by_cases last : rest = []
      · rw [last, List.append_nil] at source
        exact List.mem_append_left _ ((mem_scripts_iff wf top lists here).2 ⟨name, rfl, source⟩)
      · obtain ⟨⟨content, file⟩, wanted⟩ := (mem_sourceWays_iff wf).1 source
        refine List.mem_append_right _ ((mem_further_iff wf top lists here).2 ⟨name, rfl, ?_⟩)
        rw [isSource, List.dropLast_append_of_ne_nil last, isVisited_append,
          Bool.and_eq_true, Bool.and_eq_true] at wanted
        exact mem_entered_of_append wf top file last wanted.2.1

/-! ## Runs -/

namespace Sweep

include wf top in
/-- After a directory was opened, there is one directory less to be opened, and the sources that are
found or below directories to be opened are the same as before. -/
theorem step (lists : Lists t place listing) (here : way ∈ entered t place skipped)
    (found : List (List String)) {pending : List (List String)}
    (inside : ∀ w ∈ pending, w ∈ entered t place skipped) :
    let next := (listing way).foldl (look skipped way) ⟨pending, found⟩
    (∀ w ∈ next.pending, w ∈ entered t place skipped) ∧
      ((way :: pending).flatMap (below (entered t place skipped))).Perm
        (way :: next.pending.flatMap (below (entered t place skipped))) ∧
      (next.found ++ next.pending.flatMap (below (sourceWays t place skipped))).Perm
        (found ++ (way :: pending).flatMap (below (sourceWays t place skipped))) := by
  intro next
  have opened : next = ⟨(further skipped way (listing way)).reverse ++ pending,
      found ++ scripts way (listing way)⟩ :=
    foldl_look skipped way (listing way) ⟨pending, found⟩
  rw [opened]
  dsimp only
  -- The order in which the directories are put aside does not matter for what is below them.
  have turned : ∀ ways : List (List String),
      ((further skipped way (listing way)).reverse.flatMap (below ways)).Perm
        ((further skipped way (listing way)).flatMap (below ways)) :=
    fun ways => (List.reverse_perm _).flatMap_right _
  refine ⟨?_, ?_, ?_⟩
  · intro w mem
    rcases List.mem_append.1 mem with mem | mem
    · obtain ⟨name, -, entering⟩ := (mem_further_iff wf top lists here).1 (List.mem_reverse.1 mem)
      exact entering
    · exact inside w mem
  · rw [List.flatMap_cons, List.flatMap_append]
    refine ((perm_below_entered wf top lists here).append_right _).trans ?_
    rw [List.cons_append]
    exact ((turned _).symm.append_right _).cons way
  · rw [List.flatMap_cons, List.flatMap_append, List.append_assoc]
    refine List.Perm.append_left found ?_
    rw [← List.append_assoc]
    refine List.Perm.append_right _ ?_
    exact ((turned _).append_left _).trans (perm_below_sourceWays wf top lists here).symm

/-- When no directory is left, what was found is sorted. -/
theorem run_nil (root : String) (listing : DirectoryListing) (skipped : List String) (fuel : Nat)
    (found : List (List String)) :
    run root listing skipped fuel ⟨[], found⟩ =
      some (.ok ((found.mergeSort Path.comesBefore).map (SourceFile.ofNames root))) := by
  cases fuel <;> rfl

include wf top in
/-- From any point on, a sweep finds what is below the directories that are to be opened. -/
theorem run_of_openable (lists : Lists t place listing) (root : String) {fuel : Nat} {s : Sweep}
    (inside : ∀ w ∈ s.pending, w ∈ entered t place skipped)
    (enough : (s.pending.flatMap (below (entered t place skipped))).length ≤ fuel)
    (openable : ∀ w ∈ s.pending.flatMap (below (entered t place skipped)),
      (pathAlong root w).utf8ByteSize ≤ Path.longestPath) :
    ∃ found : List (List String),
      found.Perm (s.found ++ s.pending.flatMap (below (sourceWays t place skipped))) ∧
        run root listing skipped fuel s =
          some (.ok ((found.mergeSort Path.comesBefore).map (SourceFile.ofNames root))) := by
  -- Every directory that is opened leaves one less below those to be opened.
  induction fuel generalizing s with
  | zero =>
    obtain ⟨pending, found⟩ := s
    cases pending with
    | nil => exact ⟨found, by simp, run_nil root listing skipped 0 found⟩
    | cons way pending =>
      obtain ⟨here, inside⟩ := List.forall_mem_cons.1 inside
      obtain ⟨-, directories, -⟩ := step wf top lists here found inside
      rw [directories.length_eq] at enough
      exact absurd enough (Nat.not_succ_le_zero _)
  | succ fuel ih =>
    obtain ⟨pending, found⟩ := s
    cases pending with
    | nil => exact ⟨found, by simp, run_nil root listing skipped (fuel + 1) found⟩
    | cons way pending =>
      obtain ⟨here, inside⟩ := List.forall_mem_cons.1 inside
      obtain ⟨still, directories, sources⟩ := step wf top lists here found inside
      have short := openable way (directories.mem_iff.2 List.mem_cons_self)
      rw [directories.length_eq, List.length_cons] at enough
      obtain ⟨all, perm, result⟩ := ih still (Nat.le_of_succ_le_succ enough) fun w mem =>
        openable w (directories.mem_iff.2 (List.mem_cons_of_mem _ mem))
      refine ⟨all, perm.trans sources, ?_⟩
      rw [run, if_neg (Nat.not_lt.2 short)]
      exact result

include wf top in
/-- From any point on, a sweep meets a directory that it cannot open if there is one below those
that are to be opened. -/
theorem run_of_unopenable (lists : Lists t place listing) (root : String) {fuel : Nat} {s : Sweep}
    (inside : ∀ w ∈ s.pending, w ∈ entered t place skipped)
    (enough : (s.pending.flatMap (below (entered t place skipped))).length ≤ fuel)
    (unopenable : ∃ w ∈ s.pending.flatMap (below (entered t place skipped)),
      Path.longestPath < (pathAlong root w).utf8ByteSize) :
    ∃ path, run root listing skipped fuel s = some (.error (.unreadable path .nameTooLong)) := by
  induction fuel generalizing s with
  | zero =>
    obtain ⟨w, mem, -⟩ := unopenable
    exact absurd (List.length_pos_of_mem mem) (Nat.not_lt.2 enough)
  | succ fuel ih =>
    obtain ⟨pending, found⟩ := s
    obtain ⟨w, mem, long⟩ := unopenable
    cases pending with
    | nil => cases mem
    | cons way pending =>
      obtain ⟨here, inside⟩ := List.forall_mem_cons.1 inside
      obtain ⟨still, directories, -⟩ := step wf top lists here found inside
      rw [run]
      split
      · exact ⟨pathAlong root way, rfl⟩
      · rename_i short
        rw [directories.length_eq, List.length_cons] at enough
        refine ih still (Nat.le_of_succ_le_succ enough) ⟨w, ?_, long⟩
        rcases List.mem_cons.1 (directories.mem_iff.1 mem) with rfl | mem
        · exact absurd long short
        · exact mem

end Sweep

end Repository

/-! ## The order of paths -/

namespace Path

theorem comesBefore_iff (a b : List String) : comesBefore a b = true ↔ ¬b < a := by
  rw [comesBefore, Bool.not_eq_true', decide_eq_false_iff_not]

theorem comesBefore_trans (a b c : List String) (first : comesBefore a b = true)
    (second : comesBefore b c = true) : comesBefore a c = true := by
  rw [comesBefore_iff, List.not_lt] at first second ⊢
  exact List.le_trans first second

theorem comesBefore_total (a b : List String) : (comesBefore a b || comesBefore b a) = true := by
  rw [Bool.or_eq_true, comesBefore_iff, comesBefore_iff, List.not_lt, List.not_lt]
  exact List.le_total a b

/-- Two ways in both orders are the same. -/
theorem comesBefore_antisymm {a b : List String} (first : comesBefore a b = true)
    (second : comesBefore b a = true) : a = b := by
  rw [comesBefore_iff, List.not_lt] at first second
  exact List.le_antisymm first second

/-- Different ways are sorted strictly. -/
theorem pairwise_lt_mergeSort {ways : List (List String)} (distinct : ways.Nodup) :
    (ways.mergeSort comesBefore).Pairwise (· < ·) := by
  have sorted := List.pairwise_mergeSort comesBefore_trans comesBefore_total ways
  have apart := (List.mergeSort_perm ways comesBefore).nodup_iff.2 distinct
  refine sorted.imp₂ (fun a b before different => ?_) apart
  by_contra above
  exact different (comesBefore_antisymm before ((comesBefore_iff b a).2 above))

/-- The order in which ways are found does not matter once they are sorted. -/
theorem mergeSort_eq_of_perm {ways others : List (List String)} (perm : ways.Perm others) :
    ways.mergeSort comesBefore = others.mergeSort comesBefore := by
  refine List.Perm.eq_of_pairwise (fun a b _ _ => comesBefore_antisymm)
    (List.pairwise_mergeSort comesBefore_trans comesBefore_total ways)
    (List.pairwise_mergeSort comesBefore_trans comesBefore_total others) ?_
  exact ((List.mergeSort_perm ways _).trans perm).trans (List.mergeSort_perm others _).symm

end Path

/-- The components of a path along names are those of the root and the names. -/
theorem components_pathAlong (root : String) {names : List String}
    (named : ∀ name ∈ names, IsEntryName name) :
    Path.components (pathAlong root names) = Path.components root ++ names := by
  induction names generalizing root with
  | nil => rw [pathAlong, List.foldl_nil, List.append_nil]
  | cons name names ih =>
    obtain ⟨here, named⟩ := List.forall_mem_cons.1 named
    have rest := ih (Path.join root name) named
    rw [components_join root here.isPiece here.notDot, List.append_assoc] at rest
    exact rest

/-! ## Discovery -/

/-- A file of SQL that no directory to be skipped is on the way to, in any letter case. -/
def IsWanted (skipped way : List String) : Prop :=
  (∃ name, way.getLast? = some name ∧ name.lowerCase.endsWith ".sql" = true) ∧
    ∀ directory ∈ way.dropLast, directory.lowerCase ∉ skipped.map String.lowerCase

/-- None of the directories on a visited way is to be skipped, in any case. -/
theorem isVisited_iff (skipped way : List String) :
    isVisited skipped way = true ↔
      ∀ directory ∈ way, directory.lowerCase ∉ skipped.map String.lowerCase := by
  simp [isVisited]

theorem isSource_iff (skipped way : List String) :
    isSource skipped way = true ↔ IsWanted skipped way := by
  rw [isSource, Bool.and_eq_true, isVisited_iff, Option.any_eq_true, IsWanted]
  rfl

section Discovery

variable {t : FileTree} {root : String} {place : Location} {skipped : List String}

/-- The sources are discovered if all directories that are entered can be opened. -/
theorem discover_of_entered (located : t.directoryAt root = .ok place)
    (wf : t.WellFormed) (top : t.entry? place = some .directory)
    (openable : ∀ way ∈ entered t place skipped,
      (pathAlong root way).utf8ByteSize ≤ Path.longestPath) :
    discover t root skipped =
      .ok (((sourceWays t place skipped).mergeSort Path.comesBefore).map
        (SourceFile.ofNames root)) := by
  refine discover_of_openable located fun way mem visited => openable way ?_
  rw [directoriesUnder_eq, wf.mem_waysTo_iff] at mem
  obtain ⟨-, entry, found, kind⟩ := mem
  exact (mem_entered_iff wf top).2 ⟨beq_iff_eq.1 kind ▸ found, visited⟩

/-- One of the directories that are entered and cannot be opened is named. -/
theorem discover_of_unopenable (located : t.directoryAt root = .ok place)
    (unopenable : ∃ way ∈ entered t place skipped,
      Path.longestPath < (pathAlong root way).utf8ByteSize) :
    ∃ path, discover t root skipped = .error (.unreadable path .nameTooLong) := by
  obtain ⟨way, mem, long⟩ := unopenable
  obtain ⟨openable, -, -⟩ := locate_eq_ok_iff.1 (directoryAt_eq_ok_iff.1 located)
  have some_ : (unopened? t root place skipped).isSome = true := by
    rcases List.mem_cons.1 mem with rfl | mem
    · exact absurd long (Nat.not_lt.2 openable.short)
    · obtain ⟨directory, wanted⟩ := List.mem_filter.1 mem
      rw [Bool.and_eq_true] at wanted
      rw [unopened?, List.find?_isSome]
      refine ⟨_, List.mem_map.2 ⟨way, List.mem_filter.2 ⟨directory, wanted.2⟩, rfl⟩, ?_⟩
      exact decide_eq_true long
  obtain ⟨path, unopened⟩ := Option.isSome_iff_exists.1 some_
  refine ⟨path, ?_⟩
  rw [discover, located]
  simp only [Except.mapError, bind, Except.bind, unopened]

/-- The root, and the directories below it that neither are to be skipped nor are below
such ones. -/
def IsEntered (t : FileTree) (place : Location) (skipped way : List String) : Prop :=
  t.entry? (place ++ way) = some .directory ∧
    ∀ directory ∈ way, directory.lowerCase ∉ skipped.map String.lowerCase

/-- The directories that are entered, in words of the tree. -/
theorem mem_entered_iff_isEntered (wf : t.WellFormed) (top : t.entry? place = some .directory)
    {way : List String} : way ∈ entered t place skipped ↔ IsEntered t place skipped way := by
  rw [mem_entered_iff wf top, isVisited_iff, IsEntered]

/-- There are no more directories to enter than entries, apart from the root. -/
theorem length_entered_le (t : FileTree) (place : Location) (skipped : List String) :
    (entered t place skipped).length ≤ t.entries.length + 1 := by
  rw [entered, List.length_cons]
  exact Nat.succ_le_succ
    (Nat.le_trans (List.length_filter_le _ _) (List.length_filterMap_le _ _))

/-- At the start, everything is below the directories to be opened. -/
theorem Sweep.flatMap_below_start (ways : List (List String)) :
    start.pending.flatMap (below ways) = ways := by
  rw [start, List.flatMap_singleton]
  exact List.filter_eq_self.2 fun _ _ => rfl

theorem Sweep.start_entered : ∀ way ∈ start.pending, way ∈ entered t place skipped :=
  List.forall_mem_singleton.2 List.mem_cons_self

/-- At the start, the fuel is enough for all directories. -/
theorem Sweep.length_start_le {fuel : Nat} (enough : t.entries.length < fuel) :
    (start.pending.flatMap (below (entered t place skipped))).length ≤ fuel := by
  rw [flatMap_below_start]
  exact Nat.le_trans (length_entered_le t place skipped) enough

/-- A sweep from the root on gives the sources that are discovered. -/
theorem Sweep.run_start (wf : t.WellFormed) (located : t.directoryAt root = .ok place)
    (top : t.entry? place = some .directory)
    (openable : ∀ way ∈ entered t place skipped,
      (pathAlong root way).utf8ByteSize ≤ Path.longestPath)
    {listing : DirectoryListing} (lists : Lists t place listing) {fuel : Nat}
    (enough : t.entries.length < fuel) :
    run root listing skipped fuel start = some (discover t root skipped) := by
  have below_openable : ∀ way ∈ start.pending.flatMap (below (entered t place skipped)),
      (pathAlong root way).utf8ByteSize ≤ Path.longestPath := by
    rw [flatMap_below_start]
    exact openable
  obtain ⟨found, perm, result⟩ := run_of_openable wf top lists root start_entered
    (length_start_le enough) below_openable
  rw [flatMap_below_start, start, List.nil_append] at perm
  rw [result, discover_of_entered located wf top openable, Path.mergeSort_eq_of_perm perm]

end Discovery

/--
What is discovered in a repository. If every directory that is entered has a path that can be looked
up, these are exactly the files of SQL outside of the directories to be skipped, with their paths in
strictly ascending order of their components and with different keys. A sweep that opens one
directory after another ends and gives the same list, in whatever order the directories list their
entries. If some directory that is entered has a path that is too long, that is reported, by a sweep
as well.
-/
theorem discover_spec {t : FileTree} {root : String} {place : Location} (wf : t.WellFormed)
    (located : t.directoryAt root = .ok place) (skipped : List String) :
    ((∀ way, IsEntered t place skipped way →
        (pathAlong root way).utf8ByteSize ≤ Path.longestPath) →
      ∃ ways : List (List String),
        discover t root skipped = .ok (ways.map (SourceFile.ofNames root)) ∧
        (ways.map (SourceFile.ofNames root)).Pairwise
          (fun a b => Path.components a.path < Path.components b.path) ∧
        (∀ way, way ∈ ways ↔
          (∃ content, t.entry? (place ++ way) = some (.file content)) ∧ IsWanted skipped way) ∧
        ((ways.map (SourceFile.ofNames root)).map SourceFile.key).Nodup ∧
        ∀ listing, Lists t place listing → ∀ fuel, t.entries.length < fuel →
          Sweep.run root listing skipped fuel .start = some (discover t root skipped)) ∧
      ((∃ way, IsEntered t place skipped way ∧
          Path.longestPath < (pathAlong root way).utf8ByteSize) →
        (∃ path, discover t root skipped = .error (.unreadable path .nameTooLong)) ∧
        ∀ listing, Lists t place listing → ∀ fuel, t.entries.length < fuel →
          ∃ path, Sweep.run root listing skipped fuel .start =
            some (.error (.unreadable path .nameTooLong))) := by
  have top : t.entry? place = some .directory :=
    (locate_eq_ok_iff.1 (directoryAt_eq_ok_iff.1 located)).2.2
  have entering : ∀ {way}, way ∈ entered t place skipped ↔ IsEntered t place skipped way :=
    mem_entered_iff_isEntered wf top
  constructor
  · intro openable
    have openable : ∀ way ∈ entered t place skipped,
        (pathAlong root way).utf8ByteSize ≤ Path.longestPath :=
      fun way mem => openable way (entering.1 mem)
    have distinct := nodup_sourceWays wf place skipped
    have named : ∀ way ∈ (sourceWays t place skipped).mergeSort Path.comesBefore,
        ∀ name ∈ way, IsEntryName name := by
      intro way mem name inside
      obtain ⟨⟨content, found⟩, -⟩ := (mem_sourceWays_iff wf).1 (List.mem_mergeSort.1 mem)
      exact wf.isEntryName_of_entry? found name (List.mem_append_right _ inside)
    have some_ : ∀ way ∈ (sourceWays t place skipped).mergeSort Path.comesBefore, way ≠ [] := by
      intro way mem
      exact ne_nil_of_isSource ((mem_sourceWays_iff wf).1 (List.mem_mergeSort.1 mem)).2
    refine ⟨_, discover_of_entered located wf top openable, ?_, ?_, ?_, ?_⟩
    · rw [List.pairwise_map]
      refine (Path.pairwise_lt_mergeSort distinct).imp_of_mem ?_
      intro a b ha hb less
      show Path.components (pathAlong root a) < Path.components (pathAlong root b)
      rw [components_pathAlong root (named a ha), components_pathAlong root (named b hb)]
      exact List.append_left_lt less
    · intro way
      rw [List.mem_mergeSort, mem_sourceWays_iff wf, isSource_iff]
    · rw [List.map_map]
      refine ((List.mergeSort_perm _ _).nodup_iff.2 distinct).map_on ?_
      intro a ha b hb same
      exact join_slash_injective (named a ha) (named b hb) (some_ a ha) (some_ b hb) same
    · intro listing lists fuel enough
      exact Sweep.run_start wf located top openable lists enough
  · rintro ⟨way, mem, long⟩
    refine ⟨discover_of_unopenable located ⟨way, entering.2 mem, long⟩, ?_⟩
    intro listing lists fuel enough
    refine Sweep.run_of_unopenable wf top lists root Sweep.start_entered
      (Sweep.length_start_le enough) ⟨way, ?_, long⟩
    rw [Sweep.flatMap_below_start]
    exact entering.2 mem

/-- A repository with a directory that is named like a file of SQL, and one that is to
be skipped. -/
def scattered : FileTree :=
  ⟨[(["repo"], .directory), (["repo", "b.sql"], .directory),
    (["repo", "b.sql", "02.sql"], .file (.text "")), (["repo", "a"], .directory),
    (["repo", "a", "01.SQL"], .file (.text "")), (["repo", "a", "readme.md"], .file (.text "")),
    (["repo", "Target"], .directory), (["repo", "Target", "y.sql"], .file (.text ""))], []⟩

/-- A sweep in which the directories list their entries backwards finds the two sources. -/
theorem discover_spec_scattered :
    scattered.WellFormed ∧ scattered.directoryAt "repo" = .ok ["repo"] ∧
      ∃ ways : List (List String),
        discover scattered "repo" ["target"] = .ok (ways.map (SourceFile.ofNames "repo")) ∧
        ["a", "01.SQL"] ∈ ways ∧ ["b.sql", "02.sql"] ∈ ways ∧ ["Target", "y.sql"] ∉ ways ∧
        ["b.sql"] ∉ ways ∧
        Sweep.run "repo" (fun way => (listingOf scattered ["repo"] way).reverse)
          ["target"] 9 .start = some (discover scattered "repo" ["target"]) := by
  have wf : scattered.WellFormed := by
    decide +kernel
  have located : scattered.directoryAt "repo" = .ok ["repo"] := by
    decide +kernel
  have short : ∀ way ∈ entered scattered ["repo"] ["target"],
      (pathAlong "repo" way).utf8ByteSize ≤ Path.longestPath := by
    decide +kernel
  have openable : ∀ way, IsEntered scattered ["repo"] ["target"] way →
      (pathAlong "repo" way).utf8ByteSize ≤ Path.longestPath :=
    fun way mem => short way ((mem_entered_iff_isEntered wf rfl).2 mem)
  obtain ⟨ways, discovered, -, exactly, -, sweeps⟩ :=
    (discover_spec wf located ["target"]).1 openable
  have wanted : ∀ way content, scattered.entry? (["repo"] ++ way) = some (.file content) →
      isSource ["target"] way = true → way ∈ ways :=
    fun way content found source => (exactly way).2 ⟨⟨content, found⟩, (isSource_iff _ _).1 source⟩
  refine ⟨wf, located, ways, discovered, ?_, ?_, ?_, ?_, ?_⟩
  · exact wanted _ (.text "") (by decide +kernel) (by decide +kernel)
  · exact wanted _ (.text "") (by decide +kernel) (by decide +kernel)
  · intro mem
    have source := (isSource_iff _ _).2 ((exactly _).1 mem).2
    revert source
    decide +kernel
  · intro mem
    obtain ⟨⟨content, found⟩, -⟩ := (exactly _).1 mem
    cases found
  · exact sweeps _ (lists_listingOf wf ["repo"]).reverse 9 (by decide)

end Rollback
