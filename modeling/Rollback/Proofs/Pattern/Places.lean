import Rollback.Pattern.Basic
import Rollback.Proofs.Lists

/-!
# Places where a pattern can be read to

Reading with backtracking tries the places where a pattern can end, the preferred one first, until
what follows can be read too. Here these places are a list of their own, so that what a pattern
reads can be said without what follows it.

- `Pattern.places`: the places where a reading can end, in the order of preference
- `Pattern.run_eq`: reading goes on at the first place where the rest can be read
- `Pattern.Reads`: the preferred reading from one place to another
- `Pattern.ReadsOnly`: the only reading from one place to another
- `Pattern.Stuck`: there is no reading at a place
-/

set_option autoImplicit false

namespace Rollback.Pattern

variable {ι β : Type}

/-- The places where any number of turns can end, but no more than the bound has characters. -/
def turnPlaces (turn : Place ι → List (Place ι)) : List Char → Place ι → List (Place ι)
  | [], s => [s]
  | _ :: bound, s => (turn s).flatMap (turnPlaces turn bound) ++ [s]

/-- The places where a reading of a pattern can end, the preferred one first. -/
def places : Pattern ι → Place ι → List (Place ι)
  | empty, s => [s]
  | char set, s =>
    match s.rest with
    | [] => []
    | c :: rest => if set.contains c then [{ s with last := some c, rest }] else []
  | stretch set, s =>
    let (last, rest) := stretchFrom set s.last s.rest
    [{ s with last, rest }]
  | seq p q, s => (p.places s).flatMap q.places
  | alt p q, s => p.places s ++ q.places s
  | many p, s => turnPlaces p.places s.rest s
  | mark name p, s =>
    (p.places s).map fun t => { t with marked := (name, ⟨s.rest, t.rest⟩) :: t.marked }
  | wordEdge, s => if isWordAt s.last != isWordAt s.rest.head? then [s] else []

section Equations

variable (s : Place ι)

/-- Nothing is read in one way, which ends where it starts. -/
theorem places_empty : (empty : Pattern ι).places s = [s] := rfl

/-- A character is read where it belongs to the set, and becomes the last one before the place. -/
theorem places_char (set : CharSet) (l : Option Char) (c : Char) (rest : List Char)
    (m : List (ι × Span)) :
    (char set).places ⟨l, c :: rest, m⟩ = if set.contains c then [⟨some c, rest, m⟩] else [] := rfl

/-- A stretch has one end: it never gives back a character it could take. -/
theorem places_stretch (set : CharSet) :
    (stretch set).places s =
      [{ s with
        last := (stretchFrom set s.last s.rest).1
        rest := (stretchFrom set s.last s.rest).2 }] :=
  rfl

/-- Of two parts, every end of the first one is a start of the second, in the order of
preference. -/
theorem places_seq (p q : Pattern ι) : (p ++ q).places s = (p.places s).flatMap q.places := rfl

theorem places_alt (p q : Pattern ι) : (alt p q).places s = p.places s ++ q.places s := rfl

/-- A repetition takes at most one turn for each character that is left. -/
theorem places_many (p : Pattern ι) : (many p).places s = turnPlaces p.places s.rest s := rfl

/-- A mark changes no end; it adds the span from the start to that end. -/
theorem places_mark (name : ι) (p : Pattern ι) :
    (mark name p).places s =
      (p.places s).map fun t => { t with marked := (name, ⟨s.rest, t.rest⟩) :: t.marked } := rfl

/-- The edge of a word is where exactly one of the neighbours is a word character. -/
theorem places_wordEdge :
    (wordEdge : Pattern ι).places s =
      if isWordAt s.last != isWordAt s.rest.head? then [s] else [] := rfl

theorem turnPlaces_nil (turn : Place ι → List (Place ι)) : turnPlaces turn [] s = [s] := rfl

/-- One more turn is preferred to none. -/
theorem turnPlaces_cons (turn : Place ι → List (Place ι)) (c : Char) (bound : List Char) :
    turnPlaces turn (c :: bound) s = (turn s).flatMap (turnPlaces turn bound) ++ [s] := rfl

end Equations

/-- What is known of the end of a character: it was taken from the rest, and nothing was marked. -/
theorem mem_places_char {set : CharSet} {s t : Place ι} (h : t ∈ (char set).places s) :
    ∃ c, set.contains c = true ∧ s.rest = c :: t.rest ∧ t.last = some c ∧ t.marked = s.marked := by
  obtain ⟨last, rest, marked⟩ := s
  cases rest with
  | nil => exact absurd h List.not_mem_nil
  | cons c rest =>
    rw [places_char] at h
    split at h
    · rename_i inside
      obtain rfl := List.mem_singleton.1 h
      exact ⟨c, inside, rfl, rfl, rfl⟩
    · exact absurd h List.not_mem_nil

/-- An edge of a word takes nothing. -/
theorem eq_of_mem_places_wordEdge {s t : Place ι} (h : t ∈ (wordEdge : Pattern ι).places s) :
    t = s := by
  rw [places_wordEdge] at h
  split at h
  · exact List.mem_singleton.1 h
  · exact absurd h List.not_mem_nil

/-- The step of `run_eq` for repetitions: turns that go on with `next` are those of `turnPlaces`,
tried in this order. -/
theorem repeatTurns_eq {p : Pattern ι}
    (ih : ∀ (s : Place ι) (next : Place ι → Option β), p.run s next = (p.places s).findSome? next)
    (next : Place ι → Option β) :
    ∀ (bound : List Char) (s : Place ι),
      repeatTurns p.run bound s next = (turnPlaces p.places bound s).findSome? next := by
  intro bound
  induction bound with
  | nil =>
    intro s
    rw [turnPlaces_nil, List.findSome?_singleton]
    rfl
  | cons c bound turns =>
    intro s
    rw [turnPlaces_cons, List.findSome?_append, findSome?_flatMap, List.findSome?_singleton,
      ← funext turns, ← ih]
    exact Option.orElse_eq_or

/-- Reading goes on at the first of its places where that succeeds. -/
theorem run_eq (p : Pattern ι) :
    ∀ (s : Place ι) (next : Place ι → Option β), p.run s next = (p.places s).findSome? next := by
  -- What comes next is tried at one place after another, so each case follows the order of places.
  induction p with
  | empty =>
    intro s next
    rw [places_empty, List.findSome?_singleton]
    rfl
  | char set =>
    rintro ⟨l, rest, m⟩ next
    cases rest with
    | nil => rfl
    | cons c rest =>
      rw [places_char]
      show (if set.contains c then next ⟨some c, rest, m⟩ else none) = _
      split
      · exact List.findSome?_singleton.symm
      · rfl
  | stretch set =>
    intro s next
    rw [places_stretch, List.findSome?_singleton]
    rfl
  | seq p q hp hq =>
    intro s next
    show p.run s (fun t => q.run t next) = ((p.places s).flatMap q.places).findSome? next
    rw [hp, findSome?_flatMap]
    congr 1
    funext t
    exact hq t next
  | alt p q hp hq =>
    intro s next
    rw [places_alt, List.findSome?_append, ← hp, ← hq]
    exact Option.orElse_eq_or
  | many p hp =>
    intro s next
    exact repeatTurns_eq hp next s.rest s
  | mark name p hp =>
    intro s next
    rw [places_mark, List.findSome?_map]
    exact hp s _
  | wordEdge =>
    intro s next
    rw [places_wordEdge]
    show (if isWordAt s.last != isWordAt s.rest.head? then next s else none) = _
    split
    · exact List.findSome?_singleton.symm
    · rfl

/-- With no demands on what follows, a run stops at the preferred end. -/
theorem run_some (p : Pattern ι) (s : Place ι) : p.run s some = (p.places s).head? := by
  rw [run_eq]
  cases p.places s <;> rfl

/-- A match is the preferred reading from the start of the text. -/
theorem match?_eq (p : Pattern ι) (text : List Char) :
    p.match? text = (p.places ⟨none, text, []⟩).head? :=
  run_some p _

/-! ## The preferred reading -/

/-- The preferred reading of a pattern at the place `s` ends at the place `t`. -/
def Reads (p : Pattern ι) (s t : Place ι) : Prop :=
  (p.places s).head? = some t

/-- The pattern cannot be read at a place. -/
def Stuck (p : Pattern ι) (s : Place ι) : Prop :=
  p.places s = []

/-- There is one reading of a pattern at the place `s`, and it ends at the place `t`. -/
def ReadsOnly (p : Pattern ι) (s t : Place ι) : Prop :=
  p.places s = [t]

variable {p q r : Pattern ι} {s t u : Place ι}

theorem reads_iff : Reads p s t ↔ ∃ others, p.places s = t :: others :=
  List.head?_eq_some_iff

/-- The first place of a list that is known is the preferred one. -/
theorem reads_of_eq {others : List (Place ι)} (h : p.places s = t :: others) : Reads p s t :=
  reads_iff.2 ⟨others, h⟩

/-- How a sequence is bracketed does not matter. -/
theorem places_seq_assoc (p q r : Pattern ι) (s : Place ι) :
    (p ++ q ++ r).places s = (p ++ (q ++ r)).places s :=
  List.flatMap_assoc

theorem Stuck.assoc (h : Stuck (p ++ (q ++ r)) s) : Stuck (p ++ q ++ r) s :=
  (places_seq_assoc p q r s).trans h

theorem Stuck.of_assoc (h : Stuck (p ++ q ++ r) s) : Stuck (p ++ (q ++ r)) s :=
  (places_seq_assoc p q r s).symm.trans h

theorem Reads.assoc (h : Reads (p ++ (q ++ r)) s t) : Reads (p ++ q ++ r) s t :=
  (congrArg List.head? (places_seq_assoc p q r s)).trans h

/-- A preferred reading from the start of the text is the match. -/
theorem Reads.match? {text : List Char} (h : Reads p ⟨none, text, []⟩ t) :
    p.match? text = some t :=
  (match?_eq p text).trans h

theorem Stuck.match? {text : List Char} (h : Stuck p ⟨none, text, []⟩) : p.match? text = none :=
  (match?_eq p text).trans (congrArg List.head? h)

/-- The preferred reading of a sequence goes through that of its first part, if the second one can
go on from there. -/
theorem Reads.seq (hp : Reads p s t) (hq : Reads q t u) : Reads (p ++ q) s u := by
  obtain ⟨others, hp⟩ := reads_iff.1 hp
  obtain ⟨more, hq⟩ := reads_iff.1 hq
  apply reads_of_eq
  rw [places_seq, hp, List.flatMap_cons, hq, List.cons_append]

theorem Reads.left (hp : Reads p s t) : Reads (alt p q) s t := by
  obtain ⟨others, hp⟩ := reads_iff.1 hp
  apply reads_of_eq
  rw [places_alt, hp, List.cons_append]

/-- The second alternative counts if the first cannot be read. -/
theorem Reads.right (hp : Stuck p s) (hq : Reads q s t) : Reads (alt p q) s t := by
  obtain ⟨others, hq⟩ := reads_iff.1 hq
  have none_left : p.places s = [] := hp
  apply reads_of_eq
  rw [places_alt, none_left, List.nil_append, hq]

/-- A marked part is read like the part, and its span comes first among those marked. -/
theorem Reads.mark (hp : Reads p s t) (name : ι) :
    Reads (mark name p) s { t with marked := (name, ⟨s.rest, t.rest⟩) :: t.marked } := by
  obtain ⟨others, hp⟩ := reads_iff.1 hp
  apply reads_of_eq
  rw [places_mark, hp, List.map_cons]

theorem reads_empty (s : Place ι) : Reads empty s s := rfl

/-- An optional part is read if it can be. -/
theorem Reads.orNothing (hp : Reads p s t) : Reads (orNothing p) s t :=
  hp.left

/-- An optional part that cannot be read is left out. -/
theorem Stuck.orNothing (hp : Stuck p s) : Reads (Pattern.orNothing p) s s :=
  .right hp (reads_empty s)

/-- If an optional part cannot be read, then there is no other way than to leave it out. -/
theorem Stuck.readsOnly_orNothing (hp : Stuck p s) : ReadsOnly (Pattern.orNothing p) s s := by
  have empty : p.places s = [] := hp
  show p.places s ++ [s] = [s]
  rw [empty, List.nil_append]

theorem Stuck.seq_left (hp : Stuck p s) (q : Pattern ι) : Stuck (p ++ q) s := by
  have empty : p.places s = [] := hp
  show (p.places s).flatMap q.places = []
  rw [empty, List.flatMap_nil]

/-- A sequence cannot be read if its second part cannot be read wherever its first part ends. -/
theorem Stuck.seq_right (hq : ∀ t ∈ p.places s, Stuck q t) : Stuck (p ++ q) s :=
  List.flatMap_eq_nil_iff.2 hq

/-- An optional part is left out if what follows cannot be read after it. -/
theorem Reads.skip (hp : Stuck (p ++ q) s) (hq : Reads q s t) :
    Reads (Pattern.orNothing p ++ q) s t := by
  have after : (p.places s).flatMap q.places = [] := hp
  have split : (Pattern.orNothing p ++ q).places s = q.places s := by
    show (p.places s ++ [s]).flatMap q.places = _
    rw [List.flatMap_append, after, List.flatMap_singleton]
    rfl
  rw [Reads, split]
  exact hq

theorem ReadsOnly.reads (hp : ReadsOnly p s t) : Reads p s t :=
  reads_of_eq hp

/-- After a part with one reading, the ends are those of what follows it. -/
theorem ReadsOnly.places_seq (hp : ReadsOnly p s t) (q : Pattern ι) :
    (p ++ q).places s = q.places t := by
  have single : p.places s = [t] := hp
  show (p.places s).flatMap q.places = _
  rw [single, List.flatMap_singleton]

/-- Parts with one reading each make up a sequence with one reading. -/
theorem ReadsOnly.seq (hp : ReadsOnly p s t) (hq : ReadsOnly q t u) : ReadsOnly (p ++ q) s u :=
  (hp.places_seq q).trans hq

/-- A marked part with one reading is marked in one way. -/
theorem ReadsOnly.mark (hp : ReadsOnly p s t) (name : ι) :
    ReadsOnly (mark name p) s { t with marked := (name, ⟨s.rest, t.rest⟩) :: t.marked } := by
  have single : p.places s = [t] := hp
  show (Pattern.mark name p).places s = _
  rw [places_mark, single, List.map_singleton]

theorem ReadsOnly.eq_of_mem (hp : ReadsOnly p s t) (mem : u ∈ p.places s) : u = t := by
  have single : p.places s = [t] := hp
  rw [single] at mem
  exact List.mem_singleton.1 mem

/-- After a single reading the next pattern has to be read where that ends. -/
theorem ReadsOnly.stuck (hp : ReadsOnly p s t) (hq : Stuck q t) : Stuck (p ++ q) s :=
  (hp.places_seq q).trans hq

theorem Stuck.alt (hp : Stuck p s) (hq : Stuck q s) : Stuck (alt p q) s :=
  List.append_eq_nil_iff.2 ⟨hp, hq⟩

theorem Stuck.mark (hp : Stuck p s) (name : ι) : Stuck (mark name p) s :=
  List.map_eq_nil_iff.2 hp

end Rollback.Pattern
