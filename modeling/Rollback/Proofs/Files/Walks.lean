import Mathlib.Data.List.Induction
import Rollback.Proofs.Lists
import Rollback.Proofs.Outcomes
import Rollback.Proofs.Text.Words
import Rollback.Repository.Discovery

/-!
# Walks through a tree

What a tree of files is, and where the paths that are put together from names lead in it.

- `bind_eq_ok_iff`: what succeeds in two parts
- `FileTree.WellFormed`: a tree as an operating system keeps it
- `walk_append`: a walk goes on from where its first part ends
- `stepsBefore`, `steps_join`: the steps of a path with one more name
- `FileTree.WellFormed.locate_pathAlong`: a path along names leads to the entry below the root
-/

set_option autoImplicit false

namespace Rollback

/-! ## Well-formed trees -/

/-- A name that a file or a directory can have. -/
structure IsEntryName (name : String) : Prop where
  nonempty : name ≠ ""
  notDot : name ≠ "."
  notDots : name ≠ ".."
  slash : '/' ∉ name.toList
  nul : '\x00' ∉ name.toList
  short : name.utf8ByteSize ≤ Path.longestName

instance (name : String) : Decidable (IsEntryName name) :=
  decidable_of_iff
    (name ≠ "" ∧ name ≠ "." ∧ name ≠ ".." ∧ '/' ∉ name.toList ∧ '\x00' ∉ name.toList ∧
      name.utf8ByteSize ≤ Path.longestName)
    ⟨fun ⟨a, b, c, d, e, f⟩ => ⟨a, b, c, d, e, f⟩, fun ⟨a, b, c, d, e, f⟩ => ⟨a, b, c, d, e, f⟩⟩

/-- A text that is one piece of a path. -/
structure IsPiece (name : String) : Prop where
  nonempty : name ≠ ""
  slash : '/' ∉ name.toList

theorem IsEntryName.isPiece {name : String} (h : IsEntryName name) : IsPiece name :=
  ⟨h.nonempty, h.slash⟩

namespace FileTree

/-- A tree as an operating system keeps it: every place is taken once, and each entry stands in a
directory and has a name. -/
structure WellFormed (t : FileTree) : Prop where
  distinct : (t.entries.map Prod.fst).Nodup
  below : ∀ e ∈ t.entries, e.1 ≠ []
  parent : ∀ e ∈ t.entries, t.entry? e.1.dropLast = some .directory
  names : ∀ e ∈ t.entries, ∀ name ∈ e.1, IsEntryName name

instance (t : FileTree) : Decidable t.WellFormed :=
  decidable_of_iff
    ((t.entries.map Prod.fst).Nodup ∧ (∀ e ∈ t.entries, e.1 ≠ []) ∧
      (∀ e ∈ t.entries, t.entry? e.1.dropLast = some .directory) ∧
      ∀ e ∈ t.entries, ∀ name ∈ e.1, IsEntryName name)
    ⟨fun ⟨a, b, c, d⟩ => ⟨a, b, c, d⟩, fun ⟨a, b, c, d⟩ => ⟨a, b, c, d⟩⟩

variable {t : FileTree}

/-- The root is a directory. -/
@[simp] theorem entry?_nil (t : FileTree) : t.entry? [] = some .directory := rfl

theorem entry?_of_ne_nil {place : Location} (below : place ≠ []) :
    t.entry? place = t.entries.lookup place := by
  unfold FileTree.entry?
  rw [if_neg (by simpa using below)]

namespace WellFormed

/-- The entries of a tree are what is found at places other than the root. -/
theorem mem_entries_iff (wf : t.WellFormed) {place : Location} {entry : Entry} :
    (place, entry) ∈ t.entries ↔ place ≠ [] ∧ t.entry? place = some entry := by
  constructor
  · intro mem
    have below := wf.below _ mem
    exact ⟨below, (entry?_of_ne_nil below).trans (lookup_eq_some_of_mem wf.distinct mem)⟩
  · rintro ⟨below, found⟩
    rw [entry?_of_ne_nil below] at found
    obtain ⟨before, after, split, -⟩ := List.lookup_eq_some_iff.1 found
    rw [split]
    simp

/-- All names on the way to an entry can be names of entries. -/
theorem isEntryName_of_entry? (wf : t.WellFormed) {place : Location} {entry : Entry}
    (found : t.entry? place = some entry) : ∀ name ∈ place, IsEntryName name := by
  by_cases root : place = []
  · rw [root]
    exact List.forall_mem_nil _
  · exact wf.names _ (wf.mem_entries_iff.2 ⟨root, found⟩)

/-- What stands above an entry is a directory. -/
theorem directory_above (wf : t.WellFormed) {place : Location} {names : List String} {entry : Entry}
    (found : t.entry? (place ++ names) = some entry) (further : names ≠ []) :
    t.entry? place = some .directory := by
  induction names using List.reverseRecOn generalizing entry with
  | nil => exact absurd rfl further
  | append_singleton names name ih =>
    have mem := wf.mem_entries_iff.2 ⟨by simp, found⟩
    have parent : t.entry? (place ++ names) = some .directory := by
      have above := wf.parent _ mem
      rwa [← List.append_assoc, List.dropLast_concat] at above
    by_cases last : names = []
    · rwa [last, List.append_nil] at parent
    · exact ih parent last

end WellFormed

/-! ## Walks -/

/-- A step needs a directory to start from. -/
theorem requireDirectory_eq_ok_iff {place : Location} {u : Unit} :
    t.requireDirectory place = .ok u ↔ t.entry? place = some .directory := by
  rw [requireDirectory]
  split <;> simp_all

theorem requireName_eq_ok {name : String} (h : name.utf8ByteSize ≤ Path.longestName) :
    requireName name = .ok () := by
  rw [requireName, if_neg (Nat.not_lt.2 h)]

/-- The place after one step. -/
def nextPlace (place : Location) (step : String) : Location :=
  if step == "." then place else if step == ".." then place.dropLast else place ++ [step]

/-- A step to a name goes one level down. -/
theorem nextPlace_name (place : Location) {name : String} (notDot : name ≠ ".")
    (notDots : name ≠ "..") : nextPlace place name = place ++ [name] := by
  rw [nextPlace, if_neg (by simpa using notDot), if_neg (by simpa using notDots)]

/-- A step can be taken from a directory with a name that is short enough. -/
theorem walk_cons_eq_ok_iff {place last : Location} {step : String} {rest : List String} :
    t.walk place (step :: rest) = .ok last ↔
      t.entry? place = some .directory ∧ requireName step = .ok () ∧
        t.walk (nextPlace place step) rest = .ok last := by
  show (t.requireDirectory place >>= fun _ => requireName step >>= fun _ =>
    t.walk (nextPlace place step) rest) = .ok last ↔ _
  simp only [bind_eq_ok_iff, requireDirectory_eq_ok_iff]
  constructor
  · rintro ⟨⟨⟩, directory, ⟨⟩, name, more⟩
    exact ⟨directory, name, more⟩
  · rintro ⟨directory, name, more⟩
    exact ⟨(), directory, (), name, more⟩

/-- A way can be walked in two parts. -/
theorem walk_append {place last : Location} {a b : List String} :
    t.walk place (a ++ b) = .ok last ↔
      ∃ next, t.walk place a = .ok next ∧ t.walk next b = .ok last := by
  induction a generalizing place with
  | nil =>
    show t.walk place b = .ok last ↔ ∃ next, Except.ok place = .ok next ∧ _
    simp
  | cons step rest ih =>
    simp only [List.cons_append, walk_cons_eq_ok_iff, ih]
    constructor
    · rintro ⟨directory, name, next, first, second⟩
      exact ⟨next, ⟨directory, name, first⟩, second⟩
    · rintro ⟨next, ⟨directory, name, first⟩, second⟩
      exact ⟨directory, name, next, first, second⟩

theorem walk_singleton {place last : Location} {step : String} :
    t.walk place [step] = .ok last ↔
      t.entry? place = some .directory ∧ requireName step = .ok () ∧
        nextPlace place step = last := by
  rw [walk_cons_eq_ok_iff]
  show _ ∧ _ ∧ Except.ok (nextPlace place step) = Except.ok last ↔ _
  simp

/-- A walk to a name leads to the entry with that name in a directory. -/
theorem walk_name {place : Location} {name : String} (h : IsEntryName name)
    (directory : t.entry? place = some .directory) :
    t.walk place [name] = .ok (place ++ [name]) :=
  walk_singleton.2 ⟨directory, requireName_eq_ok h.short, nextPlace_name place h.notDot h.notDots⟩

end FileTree

/-! ## Paths -/

namespace Text

/-- What stands after a separator is cut on its own. -/
theorem piecesFrom_append_separator (separator : Char) (piece a b : List Char) :
    piecesFrom separator piece (a ++ separator :: b) =
      piecesFrom separator piece a ++ pieces separator b := by
  induction a generalizing piece with
  | nil => simp [piecesFrom, pieces]
  | cons c a ih =>
    rw [List.cons_append, piecesFrom, piecesFrom, ih, ih]
    split
    · rfl
    · rfl

/-- A text is cut at every separator, so also at one that other separators stand before. -/
theorem pieces_append_separator (separator : Char) (a b : List Char) :
    pieces separator (a ++ separator :: b) = pieces separator a ++ pieces separator b :=
  piecesFrom_append_separator separator [] a b

end Text

namespace FileTree

/-- The step of a piece of a path. -/
def stepOf (piece : List Char) : String :=
  if piece.isEmpty then "." else String.ofList piece

/-- The steps of a path stand between its slashes. -/
theorem steps_eq (path : String) : steps path = (Text.pieces '/' path.toList).map stepOf := rfl

theorem stepOf_toList {name : String} (h : name ≠ "") : stepOf name.toList = name := by
  have nonempty : name.toList ≠ [] := by simpa using h
  rw [stepOf, if_neg (by simpa using nonempty), String.ofList_toList]

theorem map_stepOf_pieces {name : String} (h : IsPiece name) :
    (Text.pieces '/' name.toList).map stepOf = [name] := by
  rw [Text.pieces_eq_singleton h.slash, List.map_singleton, stepOf_toList h.nonempty]

theorem isAbsolute_piece {name : String} (h : IsPiece name) : Path.isAbsolute name = false := by
  rw [Path.isAbsolute, beq_eq_false_iff_ne]
  intro start
  exact h.slash (List.mem_of_mem_head? start)

/-- One more name goes behind a slash, unless the path is empty or ends in one. -/
theorem join_piece {root name : String} (h : IsPiece name) :
    Path.join root name =
      if root = "" then name
      else if root.toList.getLast? = some '/' then root ++ name else root ++ "/" ++ name := by
  rw [Path.join, isAbsolute_piece h, Bool.false_or]
  simp only [String.isEmpty_iff, beq_iff_eq]

theorem join_ne_empty {root name : String} (h : IsPiece name) : Path.join root name ≠ "" := by
  rw [join_piece h]
  split
  · exact h.nonempty
  · split <;> simp [*]

/-- What is put after a path does not matter for where it starts. -/
theorem isAbsolute_append {root : String} (nonempty : root ≠ "") (rest : String) :
    Path.isAbsolute (root ++ rest) = Path.isAbsolute root := by
  have chars : root.toList ≠ [] := by simpa using nonempty
  rw [Path.isAbsolute, Path.isAbsolute, String.toList_append]
  cases h : root.toList with
  | nil => exact absurd h chars
  | cons c more => rfl

/-- A path that is made longer starts where it started. -/
theorem start_join (t : FileTree) (root : String) {name : String} (h : IsPiece name) :
    t.start (Path.join root name) = t.start root := by
  rw [start, start, join_piece h]
  split
  · rename_i empty
    rw [empty, isAbsolute_piece h]
    rfl
  · rename_i nonempty
    split
    · rw [isAbsolute_append nonempty]
    · rw [String.append_assoc, isAbsolute_append nonempty]

/-- The steps of a path that more names are put behind. After the last slash and in an empty path
there is an empty piece, and the first of the names takes its place. -/
def stepsBefore (root : String) : List String :=
  if root = "" ∨ root.toList.getLast? = some '/' then (steps root).dropLast else steps root

/-- A slash at the end stands for a step that stays. -/
theorem steps_of_slash {root : String} {before : List Char}
    (chars : root.toList = before ++ ['/']) :
    steps root = (Text.pieces '/' before).map stepOf ++ ["."] := by
  rw [steps_eq, chars, Text.pieces_append_separator, List.map_append]
  rfl

/-- An empty piece at the end of a path is a step that stays where it is. -/
theorem steps_eq_stepsBefore (root : String) :
    steps root = stepsBefore root ∨ steps root = stepsBefore root ++ ["."] := by
  rw [stepsBefore]
  split
  · rename_i ends
    right
    rcases ends with rfl | slash
    · rfl
    · obtain ⟨before, chars⟩ := List.getLast?_eq_some_iff.1 slash
      rw [steps_of_slash chars, List.dropLast_concat]
  · exact .inl rfl

/-- The steps of a path with one more name. -/
theorem steps_join (root : String) {name : String} (h : IsPiece name) :
    steps (Path.join root name) = stepsBefore root ++ [name] := by
  rw [join_piece h, stepsBefore]
  by_cases empty : root = ""
  · subst empty
    rw [if_pos rfl, if_pos (.inl rfl), steps_eq, map_stepOf_pieces h]
    rfl
  · rw [if_neg empty]
    by_cases slash : root.toList.getLast? = some '/'
    · obtain ⟨before, chars⟩ := List.getLast?_eq_some_iff.1 slash
      have text : (root ++ name).toList = before ++ '/' :: name.toList := by
        rw [String.toList_append, chars, List.append_assoc, List.singleton_append]
      rw [if_pos slash, if_pos (.inr slash), steps_of_slash chars, List.dropLast_concat, steps_eq,
        text, Text.pieces_append_separator, List.map_append, map_stepOf_pieces h]
    · have text : (root ++ "/" ++ name).toList = root.toList ++ '/' :: name.toList := by simp
      rw [if_neg slash, if_neg (not_or.2 ⟨empty, slash⟩), steps_eq, text,
        Text.pieces_append_separator, List.map_append, map_stepOf_pieces h]
      rfl

/-- A path leads to a directory exactly if its steps before more names do. -/
theorem walk_stepsBefore_iff {t : FileTree} {root : String} {start place : Location} :
    (t.walk start (stepsBefore root) = .ok place ∧ t.entry? place = some .directory) ↔
      t.walk start (steps root) = .ok place ∧ t.entry? place = some .directory := by
  rcases steps_eq_stepsBefore root with same | stays
  · rw [same]
  · rw [stays, walk_append]
    constructor
    · rintro ⟨walked, directory⟩
      exact ⟨⟨place, walked, walk_singleton.2 ⟨directory, rfl, rfl⟩⟩, directory⟩
    · rintro ⟨⟨next, walked, last⟩, directory⟩
      obtain ⟨-, -, stay⟩ := walk_singleton.1 last
      have same : next = place := stay
      exact ⟨same ▸ walked, directory⟩

/-- A name after the path of a directory leads one level down from there. -/
theorem walk_join {t : FileTree} {root name : String} {place : Location} (h : IsEntryName name)
    (walked : t.walk (t.start root) (steps root) = .ok place)
    (directory : t.entry? place = some .directory) :
    t.walk (t.start (Path.join root name)) (steps (Path.join root name)) =
      .ok (place ++ [name]) := by
  rw [start_join t root h.isPiece, steps_join root h.isPiece]
  obtain ⟨before, -⟩ := walk_stepsBefore_iff.2 ⟨walked, directory⟩
  exact walk_append.2 ⟨place, before, walk_name h directory⟩

/-- A path that is made longer by a name can still be passed on. -/
theorem nul_notMem_join {root name : String} (clean : '\x00' ∉ root.toList) (h : IsEntryName name) :
    '\x00' ∉ (Path.join root name).toList := by
  rw [Path.join]
  split
  · exact h.nul
  · split
    · rw [String.toList_append, List.mem_append, not_or]
      exact ⟨clean, h.nul⟩
    · simp only [String.toList_append, List.mem_append, not_or]
      exact ⟨⟨clean, by decide⟩, h.nul⟩

/-- What holds of every path that can be looked up. -/
structure IsOpenable (path : String) : Prop where
  clean : '\x00' ∉ path.toList
  nonempty : path ≠ ""
  short : path.utf8ByteSize ≤ Path.longestPath

/-- A path that can be looked up with one more name can be looked up without it. -/
theorem IsOpenable.of_join {root name : String} (h : IsPiece name) (nonempty : root ≠ "")
    (openable : IsOpenable (Path.join root name)) : IsOpenable root := by
  obtain ⟨rest, eq⟩ : ∃ rest, Path.join root name = root ++ rest := by
    rw [join_piece h, if_neg nonempty]
    split
    · exact ⟨name, rfl⟩
    · exact ⟨"/" ++ name, String.append_assoc⟩
  rw [eq] at openable
  refine ⟨?_, nonempty, ?_⟩
  · intro nul
    refine openable.clean ?_
    rw [String.toList_append]
    exact List.mem_append_left _ nul
  · have short := openable.short
    rw [String.utf8ByteSize_append] at short
    omega

/-- A path is refused for its form exactly if it cannot be opened. -/
theorem requirePath_eq_ok_iff (path : String) : requirePath path = .ok () ↔ IsOpenable path := by
  rw [requirePath]
  split
  · rename_i nul
    simp only [reduceCtorEq, false_iff]
    exact fun h => h.clean (List.contains_iff_mem.1 nul)
  · rename_i clean
    split
    · rename_i empty
      simp only [reduceCtorEq, false_iff]
      exact fun h => h.nonempty (String.isEmpty_iff.1 empty)
    · rename_i nonempty
      split
      · rename_i long
        simp only [reduceCtorEq, false_iff]
        exact fun h => Nat.not_lt.2 h.short long
      · rename_i short
        simp only [true_iff]
        refine ⟨fun mem => clean (List.contains_iff_mem.2 mem), fun empty => ?_,
          Nat.not_lt.1 short⟩
        exact nonempty (String.isEmpty_iff.2 empty)

/-- What looking up a path finds: a walk along its steps ends at an entry. -/
theorem locate_eq_ok_iff {t : FileTree} {path : String} {place : Location} {entry : Entry} :
    t.locate path = .ok (place, entry) ↔
      IsOpenable path ∧ t.walk (t.start path) (steps path) = .ok place ∧
        t.entry? place = some entry := by
  rw [← requirePath_eq_ok_iff, locate, bind_eq_ok_iff]
  simp only [bind_eq_ok_iff]
  constructor
  · rintro ⟨⟨⟩, openable, last, walked, found⟩
    split at found
    · rename_i here
      obtain ⟨rfl, rfl⟩ := Prod.mk.inj (Except.ok.inj found)
      exact ⟨openable, walked, here⟩
    · cases found
  · rintro ⟨openable, walked, found⟩
    refine ⟨(), openable, place, walked, ?_⟩
    rw [found]
    rfl

theorem directoryAt_eq_ok_iff {t : FileTree} {path : String} {place : Location} :
    t.directoryAt path = .ok place ↔ t.locate path = .ok (place, .directory) := by
  rw [directoryAt, bind_eq_ok_iff]
  constructor
  · rintro ⟨⟨last, entry⟩, located, here⟩
    cases entry with
    | directory =>
      obtain rfl := Except.ok.inj here
      exact located
    | file content => cases here
  · exact fun located => ⟨_, located, rfl⟩

/-- A text is read exactly if the path leads to a file with it. -/
theorem readText_eq_ok_iff {t : FileTree} {path text : String} :
    t.readText path = .ok text ↔ ∃ place, t.locate path = .ok (place, .file (.text text)) := by
  rw [readText, bind_eq_ok_iff]
  constructor
  · rintro ⟨⟨last, entry⟩, located, here⟩
    split at here
    · rename_i same
      obtain rfl := Except.ok.inj here
      exact ⟨last, located.trans (by rw [← same])⟩
    · cases here
    · cases here
  · rintro ⟨place, located⟩
    exact ⟨_, located, rfl⟩

theorem readSource_eq_ok_iff {t : FileTree} {path text : String} :
    t.readSource path = .ok text ↔ t.readText path = .ok text :=
  mapError_eq_ok_iff

/-- A walk along names goes from a directory to the place that the names lead to. The length of the
path is known at its end only, so the walk is followed without it. -/
theorem WellFormed.walk_pathAlong {t : FileTree} (wf : t.WellFormed) {names : List String}
    {root : String} {place : Location} {entry : Entry} (clean : '\x00' ∉ root.toList)
    (nonempty : root ≠ "") (walked : t.walk (t.start root) (steps root) = .ok place)
    (found : t.entry? (place ++ names) = some entry) :
    '\x00' ∉ (pathAlong root names).toList ∧ pathAlong root names ≠ "" ∧
      t.walk (t.start (pathAlong root names)) (steps (pathAlong root names)) =
        .ok (place ++ names) := by
  induction names generalizing root place with
  | nil =>
    rw [List.append_nil]
    exact ⟨clean, nonempty, walked⟩
  | cons name names ih =>
    have valid : IsEntryName name := wf.isEntryName_of_entry? found name (by simp)
    have directory := wf.directory_above found (List.cons_ne_nil name names)
    rw [List.append_cons] at found ⊢
    exact ih (nul_notMem_join clean valid) (join_ne_empty valid.isPiece)
      (walk_join valid walked directory) found

/-- A path along names leads from a directory to the entry that the names lead to. -/
theorem WellFormed.locate_pathAlong {t : FileTree} (wf : t.WellFormed) {names : List String}
    {root : String} {place : Location} {entry : Entry} (located : t.directoryAt root = .ok place)
    (found : t.entry? (place ++ names) = some entry)
    (short : (pathAlong root names).utf8ByteSize ≤ Path.longestPath) :
    t.locate (pathAlong root names) = .ok (place ++ names, entry) := by
  obtain ⟨openable, walk, -⟩ := locate_eq_ok_iff.1 (directoryAt_eq_ok_iff.1 located)
  obtain ⟨clean, nonempty, walk⟩ := wf.walk_pathAlong openable.clean openable.nonempty walk found
  exact locate_eq_ok_iff.2 ⟨⟨clean, nonempty, short⟩, walk, found⟩

end FileTree

end Rollback
