import Rollback.Proofs.Schema.ClauseTexts
import Rollback.Proofs.Schema.Distributions

/-!
# Clauses of tables

The clauses after the body of a CREATE TABLE statement are searched for one by one, each in all of
them, and each is found where it stands.

- `skipsNames_byHash` and the like: each search skips names
- `reads_byHash`, `reads_storage`, `reads_placement`: what is read at a clause
- `distributionOf?_eq`, `storageOf?_eq`, `placementOf?_eq`: what is found among the clauses
-/

set_option autoImplicit false

namespace Rollback

open Pattern

theorem PlainName.listed {name : String} (h : PlainName name) : ListedName name where
  nonempty := h.nonempty
  plain c hc := Text.forall_ascii
    (p := fun c => Text.isWordChar c = true → c ≠ ',' ∧ Text.isNameQuote c = false) (by decide)
    (Text.ascii_of_isWordChar (h.word c hc)) (h.word c hc)
  trimmed := h.trimmed

namespace Sql

/-! ## Phrases -/

/-- The search for this form goes on only at its first word with BY after it. -/
theorem skipsNames_byHash : SkipsNames distributeByHashPhrase "DISTRIBUTE" (.same 'B') where
  toLedBy := (ledBy_keywords (List.all_eq_true.1 rfl) (by decide) rfl rfl ["HASH"]).seq _
  barriers := rfl

theorem skipsNames_inTurn : SkipsNames distributeInTurnPhrase "DISTRIBUTE" (.same 'B') where
  toLedBy := (ledBy_keywords (List.all_eq_true.1 rfl) (by decide) rfl rfl ["ROUNDROBIN"]).seq _
  barriers := rfl

theorem skipsNames_distributedBy : SkipsNames distributedByPhrase "DISTRIBUTED" (.same 'B') where
  toLedBy := (ledBy_keywords (List.all_eq_true.1 rfl) (by decide) rfl rfl []).seq _
  barriers := rfl

theorem skipsNames_randomly : SkipsNames distributedRandomlyPhrase "DISTRIBUTED" (.same 'R') where
  toLedBy := (ledBy_keywords (List.all_eq_true.1 rfl) (by decide) rfl rfl []).seq _
  barriers := rfl

/-- The search for the placement goes on only at TO with GROUP after it. -/
theorem skipsNames_placement : SkipsNames placementPhrase "TO" (.same 'G') where
  toLedBy :=
    ((((ledBy_keywords (List.all_eq_true.1 rfl) (by decide) rfl rfl []).seq _).seq _).seq _).seq _
  barriers := rfl

/-- The search for the storage goes on only at WITH and a parenthesis. -/
theorem skipsNames_storage : SkipsNames storagePhrase "WITH" (.oneOf ['(']) where
  toLedBy := by
    have first : OnlyFrom (literally '(') (.oneOf ['(']) := .char _
    have solid : ∀ c, Text.isGap c = true → (CharSet.oneOf ['(']).contains c = false :=
      fun _ => contains_oneOf_eq_false (p := Text.isGap) rfl
    have stuck : ∀ s : Place Operand,
        startsIn (.oneOf ['(']) (s.rest.dropWhile Text.isGap) = false →
        Stuck (contentsPhrase (stretch inParentheses)) s := fun s outside =>
      ((first.stuck_gaps solid outside).seq_left _).seq_left _
    have led : LedBy (wordEdge ++ (keyword "WITH" ++ contentsPhrase (stretch inParentheses)))
        "WITH" (.oneOf ['(']) := by
      refine ledBy_keyword (List.all_eq_true.1 rfl) (by decide) (fun s word => stuck s ?_) stuck
      cases rest : s.rest with
      | nil => rfl
      | cons c more =>
        rw [rest] at word
        have word : Text.isWordChar c = true := word
        rw [List.dropWhile_cons, Text.isGap_eq_false_of_isWordChar word,
          if_neg Bool.false_ne_true, startsIn_cons]
        exact contains_oneOf_eq_false (p := Text.isWordChar) rfl word
    exact (led.of_stuck fun s none_ => none_.assoc).mark _
  barriers := rfl

/-- A list of keywords that goes on differently is not read. -/
theorem stuck_inTurn_byHash {b : List Char} {m : List (Operand × Span)} :
    Stuck distributeByHashPhrase ⟨some '\n',
      [' '].intercalate (["DISTRIBUTE", "BY", "ROUNDROBIN"].map String.toList) ++ b, m⟩ := by
  have hash : Stuck (keywords ["HASH"]) ⟨some ' ', "ROUNDROBIN".toList ++ b, m⟩ :=
    stuck_keyword rfl
  have words := stuck_keywords (l := some '\n') "DISTRIBUTE" rfl (stuck_keywords "BY" rfl hash)
  exact words.wordEdge.seq_left _

theorem stuck_atRandom_distributedBy {b : List Char} {m : List (Operand × Span)} :
    Stuck distributedByPhrase ⟨some '\n',
      [' '].intercalate (["DISTRIBUTED", "RANDOMLY"].map String.toList) ++ b, m⟩ := by
  have by_ : Stuck (keywords ["BY"]) ⟨some ' ', "RANDOMLY".toList ++ b, m⟩ := stuck_keyword rfl
  have words := stuck_keywords (l := some '\n') "DISTRIBUTED" rfl by_
  exact words.wordEdge.seq_left _

/-! ## Readings -/

section Readings

variable {l : Option Char} {m : List (Operand × Span)} {b inside : List Char}

/-- Contents are read between their parentheses and marked. -/
theorem reads_contents {p : Phrase} {last : Option Char} (blanks : List Char)
    (gap : ∀ c ∈ blanks, Text.isGap c = true)
    (h : Reads p ⟨some '(', inside ++ ')' :: b, m⟩ ⟨last, ')' :: b, m⟩) :
    Reads (contentsPhrase p) ⟨l, blanks ++ '(' :: (inside ++ ')' :: b), m⟩
      ⟨some ')', b, (.contents, ⟨inside ++ ')' :: b, ')' :: b⟩) :: m⟩ := by
  have first : Reads (gaps ++ literally '(') ⟨l, blanks ++ '(' :: (inside ++ ')' :: b), m⟩
      ⟨some '(', inside ++ ')' :: b, m⟩ := (reads_some0 gap rfl).seq (reads_char rfl)
  exact (first.seq (h.mark .contents)).seq (reads_char rfl)

theorem reads_inside (closed : ')' ∉ inside) :
    Reads (stretch inParentheses) ⟨l, inside ++ ')' :: b, m⟩
      ⟨lastAfter l inside, ')' :: b, m⟩ := by
  refine reads_stretch (fun c hc => ?_) rfl
  have other : c ≠ ')' := fun eq => closed (eq ▸ hc)
  simp [inParentheses, CharSet.contains, other]

theorem reads_byHash (nonempty : inside ≠ []) (closed : ')' ∉ inside) :
    ∃ t : Match Operand, Reads distributeByHashPhrase ⟨some '\n',
        [' '].intercalate (["DISTRIBUTE", "BY", "HASH"].map String.toList) ++
          '(' :: (inside ++ ')' :: b), m⟩ t ∧
      t.text .contents = inside := by
  have words := reads_keywords (ι := Operand) (l := some '\n') (m := m)
    ["DISTRIBUTE", "BY", "HASH"] ('(' :: (inside ++ ')' :: b)) rfl
  have body : Reads (char inParentheses ++ stretch inParentheses)
      ⟨some '(', inside ++ ')' :: b, m⟩ ⟨lastAfter (some '(') inside, ')' :: b, m⟩ := by
    cases inside with
    | nil => exact absurd rfl nonempty
    | cons c inside =>
      rw [lastAfter_cons]
      rw [List.mem_cons, not_or] at closed
      refine Reads.seq (reads_char ?_) (reads_inside closed.2)
      simp [inParentheses, CharSet.contains, Ne.symm closed.1]
  exact ⟨_, ((reads_wordEdge rfl).seq words).seq (reads_contents []
    (fun c hc => absurd hc List.not_mem_nil) body), Span.text_append inside _⟩

theorem reads_inTurn (hb : startsIn .word b = false) :
    ∃ t : Match Operand, Reads distributeInTurnPhrase ⟨some '\n',
      [' '].intercalate (["DISTRIBUTE", "BY", "ROUNDROBIN"].map String.toList) ++ b, m⟩ t := by
  have words := reads_keywords (ι := Operand) (l := some '\n') (m := m)
    ["DISTRIBUTE", "BY", "ROUNDROBIN"] b rfl
  have ends : isWordAt b.head? = false := hb
  refine ⟨_, ((reads_wordEdge rfl).seq words).seq (reads_wordEdge ?_)⟩
  rw [ends]
  rfl

theorem reads_randomly (hb : startsIn .word b = false) :
    ∃ t : Match Operand, Reads distributedRandomlyPhrase ⟨some '\n',
      [' '].intercalate (["DISTRIBUTED", "RANDOMLY"].map String.toList) ++ b, m⟩ t := by
  have words := reads_keywords (ι := Operand) (l := some '\n') (m := m)
    ["DISTRIBUTED", "RANDOMLY"] b rfl
  have ends : isWordAt b.head? = false := hb
  refine ⟨_, ((reads_wordEdge rfl).seq words).seq (reads_wordEdge ?_)⟩
  rw [ends]
  rfl

/-- The storage clause is read with its options. -/
theorem reads_storage {options : List (String × String)}
    (closed : ')' ∉ optionsText options) :
    ∃ t : Match Operand, Reads storagePhrase ⟨some ' ', storageText options ++ b, m⟩ t ∧
      t.text .clause = storageText options ∧ t.text .contents = optionsText options := by
  have text : storageText options ++ b =
      "WITH".toList ++ ([' '] ++ '(' :: (optionsText options ++ ')' :: b)) := by
    rw [storageText, List.append_assoc, List.cons_append, List.cons_append, List.append_assoc]
    rfl
  have word : Reads (wordEdge ++ keyword "WITH" : Phrase) ⟨some ' ', storageText options ++ b, m⟩
      ⟨some 'H', [' '] ++ '(' :: (optionsText options ++ ')' :: b), m⟩ := by
    rw [text]
    exact (reads_wordEdge rfl).seq (reads_same_keyword "WITH" _)
  have gap : ∀ c ∈ [' '], Text.isGap c = true := by simp [Text.isGap]
  exact ⟨_, (word.seq (reads_contents [' '] gap (reads_inside closed))).mark .clause,
    Span.text_append _ b, Span.text_append (optionsText options) _⟩

/-- The placement clause is read with its group. -/
theorem reads_placement {group : String} (plain : PlainName group) :
    ∃ t : Match Operand, Reads placementPhrase ⟨some '\n',
        [' '].intercalate (["TO", "GROUP"].map String.toList) ++
          ' ' :: '\x22' :: (group.toList ++ '\x22' :: b), m⟩ t ∧
      t.text .target = group.toList := by
  have words := reads_keywords (ι := Operand) (l := some '\n') (m := m) ["TO", "GROUP"]
    (' ' :: '\x22' :: (group.toList ++ '\x22' :: b)) rfl
  have quote : ∀ (l : Option Char) (rest : List Char) (m : List (Operand × Span)),
      Reads (orNothing nameQuote) ⟨l, '\x22' :: rest, m⟩ ⟨some '\x22', rest, m⟩ := fun l rest m =>
    (reads_char rfl).orNothing
  have inside : ∀ c ∈ group.toList,
      (CharSet.except (.union (.oneOf ['\x60', '\x22', ';']) .gap)).contains c = true := by
    intro c hc
    exact Text.forall_ascii (p := fun c => Text.isWordChar c = true →
      (CharSet.except (.union (.oneOf ['\x60', '\x22', ';']) .gap)).contains c = true)
      (by decide) (Text.ascii_of_isWordChar (plain.word c hc)) (plain.word c hc)
  have name : Reads (some1 (.except (.union (.oneOf ['\x60', '\x22', ';']) .gap)))
      ⟨some '\x22', group.toList ++ '\x22' :: b, m⟩
      ⟨lastAfter (some '\x22') group.toList, '\x22' :: b, m⟩ :=
    reads_some1 plain.nonempty inside rfl
  exact ⟨_, (((((reads_wordEdge rfl).seq words).seq (reads_space rfl)).seq (quote _ _ _)).seq
    (name.mark .target)).seq (quote _ _ _), Span.text_append group.toList _⟩

end Readings

/-! ## What is found -/

theorem notMem_listing {parts : List (List Char)} (h : ∀ part ∈ parts, ')' ∉ part) :
    ')' ∉ [',', ' '].intercalate parts := by
  refine Text.intercalate_induction (p := fun text => ')' ∉ text) List.not_mem_nil ?_ (by decide) h
  intro a b ha hb mem
  rcases List.mem_append.1 mem with mem | mem
  · exact ha mem
  · exact hb mem

theorem notMem_optionsText {options : List (String × String)}
    (names : ∀ o ∈ options, PlainName o.1 ∧ PlainName o.2) : ')' ∉ optionsText options := by
  refine notMem_listing fun part hp mem => ?_
  obtain ⟨option, ho, rfl⟩ := List.mem_map.1 hp
  obtain ⟨key, value⟩ := names option ho
  rcases List.mem_append.1 mem with mem | mem
  · exact key.notMem (by decide) mem
  · rcases List.mem_append.1 mem with mem | mem
    · exact absurd mem (by decide)
    · exact value.notMem (by decide) mem

theorem notMem_columns {columns : List String} (names : ∀ c ∈ columns, PlainName c) :
    ')' ∉ [',', ' '].intercalate (columns.map String.toList) := by
  refine notMem_listing fun part hp => ?_
  obtain ⟨name, mem, rfl⟩ := List.mem_map.1 hp
  exact (names name mem).notMem (by decide)

variable {s : Option StorageOptions} {d : Option Distribution} {g : Option String}

/-- All clauses of a statement with the semicolon. -/
def clausesText (s : Option StorageOptions) (d : Option Distribution) (g : Option String) :
    List Char :=
  storagePart s ++ (distributionPart d ++ (placementPart g ++ [';']))

section Finds

variable {p : Phrase} {word : String} {next : CharSet}

/-- A search that passes each of the clauses finds nothing. -/
theorem SkipsNames.finds_nothing (skip : SkipsNames p word next)
    (hs : ∀ b, Passes p none (storagePart s) b)
    (hd : ∀ l b, startsIn .word b = false → Passes p l (distributionPart d) b)
    (hg : ∀ l, Passes p l (placementPart g ++ [';']) []) :
    p.search? (clausesText s d g) = none := by
  have outside : startsIn .word (placementPart g ++ [';'] ++ []) = false := by cases g <;> rfl
  exact skip.search?_eq_none ((hs _).append ((hd _ _ outside).append (hg _)))

/-- A search that passes the clauses before a line finds what can be read there. -/
theorem SkipsNames.finds (skip : SkipsNames p word next) {a b text : List Char}
    {t : Match Operand} (passes : Passes p none a b) (line : b = '\n' :: text)
    (h : Reads p ⟨some '\n', text, []⟩ t) : p.search? (a ++ b) = some t := by
  have break_ : Passes p (lastAfter none a) ['\n'] text := skip.separators rfl
  rw [search?, passes.searchFrom_append, line]
  exact break_.searchFrom_append.trans h.searchFrom

end Finds

/-! ## The distribution -/

section Distribution

variable {p : Phrase} {word : String} {next : CharSet}

/-- A search for a word of distribution clauses finds nothing in the other clauses. -/
theorem SkipsNames.finds_no_distribution (skip : SkipsNames p word next)
    (others : OtherWords word ["WITH", "TO", "GROUP"]) (options : ∀ t ∈ s, t.Plain)
    (group : ∀ n ∈ g, PlainName n)
    (passes : ∀ l b, startsIn .word b = false → Passes p l (distributionPart d) b) :
    p.search? (clausesText s d g) = none :=
  skip.finds_nothing (fun _ => skip.passes_storage (others.mono (by decide)) options) passes
    fun _ => skip.passes_placement (others.mono (by decide)) group

/-- What can be read on the line of the distribution is found after the storage options. -/
theorem SkipsNames.finds_distribution (skip : SkipsNames p word next)
    (others : OtherWords word ["WITH"]) (options : ∀ t ∈ s, t.Plain) {text : List Char}
    {t : Match Operand}
    (line : distributionPart d ++ (placementPart g ++ [';']) = '\n' :: text)
    (h : Reads p ⟨some '\n', text, []⟩ t) : p.search? (clausesText s d g) = some t :=
  skip.finds (skip.passes_storage others options) line h

/-- The distribution that a clause with columns stands for. -/
def hashOf (m : Match Operand) : Distribution :=
  .byHash (columnList (m.text .contents))

/-- The four forms are tried one after the other. -/
theorem distributionOf?_eq_or (clauses : List Char) :
    distributionOf? clauses =
      ((distributeByHashPhrase.search? clauses).map hashOf <|>
        (distributeInTurnPhrase.search? clauses).map (fun _ => .inTurn) <|>
        (distributedByPhrase.search? clauses).map hashOf <|>
        (distributedRandomlyPhrase.search? clauses).map fun _ => .atRandom) := rfl

/-- Where no distribution is written, none is found, whatever the other clauses hold. -/
theorem distributionOf?_none (options : ∀ t ∈ s, t.Plain) (group : ∀ n ∈ g, PlainName n) :
    distributionOf? (clausesText s none g) = none := by
  have pass : ∀ {p : Phrase} l b, startsIn .word b = false →
      Passes p l (distributionPart none) b := fun _ _ _ => .nil
  rw [distributionOf?_eq_or, skipsNames_byHash.finds_no_distribution rfl options group pass,
    skipsNames_inTurn.finds_no_distribution rfl options group pass,
    skipsNames_distributedBy.finds_no_distribution rfl options group pass,
    skipsNames_randomly.finds_no_distribution rfl options group pass]
  rfl

/-- The columns of a distribution by hash come back. -/
theorem distributionOf?_byHash (options : ∀ t ∈ s, t.Plain) {columns : List String}
    (nonempty : columns ≠ []) (names : ∀ c ∈ columns, PlainName c) :
    distributionOf? (clausesText s (some (.byHash columns)) g) = some (.byHash columns) := by
  have some_ : [',', ' '].intercalate (columns.map String.toList) ≠ [] := by
    cases columns with
    | nil => exact absurd rfl nonempty
    | cons c rest =>
      rw [List.map_cons, Text.intercalate_pair, Text.intercalate_cons]
      exact List.append_ne_nil_of_left_ne_nil (names c List.mem_cons_self).nonempty _
  obtain ⟨t, read, contents⟩ := reads_byHash (m := []) (b := placementPart g ++ [';']) some_
    (notMem_columns names)
  have line : distributionPart (some (.byHash columns)) ++ (placementPart g ++ [';']) =
      '\n' :: ([' '].intercalate (["DISTRIBUTE", "BY", "HASH"].map String.toList) ++
        '(' :: ([',', ' '].intercalate (columns.map String.toList) ++
          ')' :: (placementPart g ++ [';']))) := by
    rw [distributionPart_byHash nonempty]
    simp only [List.append_assoc, List.cons_append, List.nil_append]
  have same : hashOf t = .byHash columns := by
    rw [hashOf, contents, columnList_eq fun c hc => (names c hc).listed]
  rw [distributionOf?_eq_or, skipsNames_byHash.finds_distribution rfl options line read,
    Option.map_some, same]
  rfl

theorem distributionOf?_inTurn (options : ∀ t ∈ s, t.Plain) (group : ∀ n ∈ g, PlainName n) :
    distributionOf? (clausesText s (some .inTurn) g) = some .inTurn := by
  have outside : startsIn .word (placementPart g ++ [';']) = false := by cases g <;> rfl
  obtain ⟨t, read⟩ := reads_inTurn (m := []) outside
  -- The search for the other form stops at the first word and cannot go on after the second.
  have byHash : ∀ l b, startsIn .word b = false →
      Passes distributeByHashPhrase l (distributionPart (some .inTurn)) b := by
    intro l b hb
    rw [distributionPart_inTurn]
    exact skipsNames_byHash.line_of_stuck rfl stuck_inTurn_byHash rfl hb
  rw [distributionOf?_eq_or, skipsNames_byHash.finds_no_distribution rfl options group byHash,
    skipsNames_inTurn.finds_distribution rfl options rfl read]
  rfl

theorem distributionOf?_atRandom (options : ∀ t ∈ s, t.Plain) (group : ∀ n ∈ g, PlainName n) :
    distributionOf? (clausesText s (some .atRandom) g) = some .atRandom := by
  have outside : startsIn .word (placementPart g ++ [';']) = false := by cases g <;> rfl
  obtain ⟨t, read⟩ := reads_randomly (m := []) outside
  have line : ∀ {p word next}, SkipsNames p word next →
      OtherWords word ["DISTRIBUTED", "RANDOMLY"] → ∀ l b, startsIn .word b = false →
      Passes p l (distributionPart (some .atRandom)) b := by
    intro p word next skip others l b hb
    rw [distributionPart_atRandom]
    exact skip.line others hb
  have distributedBy : ∀ l b, startsIn .word b = false →
      Passes distributedByPhrase l (distributionPart (some .atRandom)) b := by
    intro l b hb
    rw [distributionPart_atRandom]
    exact skipsNames_distributedBy.line_of_stuck rfl stuck_atRandom_distributedBy rfl hb
  rw [distributionOf?_eq_or,
    skipsNames_byHash.finds_no_distribution rfl options group (line skipsNames_byHash rfl),
    skipsNames_inTurn.finds_no_distribution rfl options group (line skipsNames_inTurn rfl),
    skipsNames_distributedBy.finds_no_distribution rfl options group distributedBy,
    skipsNames_randomly.finds_distribution rfl options rfl read]
  rfl

/-- The distribution is found among the clauses. -/
theorem distributionOf?_eq (options : ∀ t ∈ s, t.Plain) (distribution : ∀ e ∈ d, e.Plain)
    (group : ∀ n ∈ g, PlainName n) : distributionOf? (clausesText s d g) = d := by
  cases d with
  | none => exact distributionOf?_none options group
  | some e =>
    cases distribution e rfl with
    | byHash nonempty names => exact distributionOf?_byHash options nonempty names
    | inTurn => exact distributionOf?_inTurn options group
    | atRandom => exact distributionOf?_atRandom options group

end Distribution

/-! ## The other clauses -/

/-- The storage options are found among the clauses. -/
theorem storageOf?_eq (options : ∀ t ∈ s, t.Plain) (distribution : ∀ e ∈ d, e.Plain)
    (group : ∀ n ∈ g, PlainName n) : storageOf? (clausesText s d g) = s := by
  have skip := skipsNames_storage
  cases s with
  | none =>
    have nothing : storagePhrase.search? (clausesText none d g) = none :=
      skip.finds_nothing (fun _ => .nil)
        (fun _ _ hb => skip.passes_distribution rfl distribution hb)
        fun _ => skip.passes_placement rfl group
    rw [storageOf?, nothing]
    rfl
  | some storage =>
    obtain @⟨fields, names⟩ := options storage rfl
    obtain ⟨t, read, clause, contents⟩ := reads_storage (m := [])
      (b := distributionPart d ++ (placementPart g ++ [';'])) (notMem_optionsText names)
    have space : Passes storagePhrase none [' ']
        (storageText fields ++ (distributionPart d ++ (placementPart g ++ [';']))) :=
      skip.separators rfl
    have found : storagePhrase.search? (clausesText
        (some (.ofClause (storageText fields) (optionsText fields))) d g) = some t := by
      rw [clausesText, storagePart, raw_ofClause]
      exact space.searchFrom_append.trans read.searchFrom
    rw [storageOf?, found, Option.map_some, clause, contents]

/-- The group of nodes is found among the clauses. -/
theorem placementOf?_eq (options : ∀ t ∈ s, t.Plain) (distribution : ∀ e ∈ d, e.Plain)
    (group : ∀ n ∈ g, PlainName n) : placementOf? (clausesText s d g) = g := by
  have skip := skipsNames_placement
  have before : ∀ b, startsIn .word b = false →
      Passes placementPhrase none (storagePart s ++ distributionPart d) b := fun b hb =>
    (skip.passes_storage rfl options).append (skip.passes_distribution rfl distribution hb)
  cases g with
  | none =>
    have nothing : placementPhrase.search? (clausesText s d none) = none :=
      skip.finds_nothing (fun _ => skip.passes_storage rfl options)
        (fun _ _ hb => skip.passes_distribution rfl distribution hb) fun _ => skip.separators rfl
    rw [placementOf?, nothing]
    rfl
  | some name =>
    obtain ⟨t, read, target⟩ := reads_placement (m := []) (b := [';']) (group name rfl)
    have line : placementPart (some name) ++ [';'] = '\n' ::
        ([' '].intercalate (["TO", "GROUP"].map String.toList) ++
          ' ' :: '\x22' :: (name.toList ++ '\x22' :: [';'])) := by
      rw [placementPart, List.cons_append, List.append_assoc, List.append_assoc]
      rfl
    have found : placementPhrase.search? (clausesText s d (some name)) = some t := by
      rw [clausesText, ← List.append_assoc]
      exact skip.finds (before _ rfl) line read
    rw [placementOf?, found, Option.map_some, target, String.ofList_toList]

end Sql

end Rollback
