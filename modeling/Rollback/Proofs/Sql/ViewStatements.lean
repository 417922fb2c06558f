import Rollback.Proofs.Pattern.Extensions
import Rollback.Proofs.Sql.Identifiers
import Rollback.Proofs.Sql.Recognized

/-!
# Statements that create views

The pattern of CREATE VIEW ends at the word AS, and whatever way it is read, it takes the same text
for the name of the view. So a statement that creates a view still creates it if more text comes
after it, unless that goes on with the last word.

- `viewOperand`: the text between the word VIEW and the next gap or parenthesis
- `text_object_of_mem_places`: every reading of the pattern takes it for the name
- `StartsView`: how a statement that creates a view starts, where no earlier rule accepts it
- `Statement.ofChars_append_createView`: the statement with more text after it
-/

set_option autoImplicit false

namespace Rollback

open Pattern

namespace Sql

/-! ## The name of the view -/

/-- What comes after the gap at the start of a text. -/
def afterGap (text : List Char) : List Char :=
  text.dropWhile Text.isGap

/-- The text between the word VIEW and the next gap or parenthesis. -/
def viewOperand (text : List Char) : List Char :=
  let afterCreate := afterGap (text.drop 6)
  let atView :=
    if startsIn (.same 'O') afterCreate then afterGap ((afterGap (afterCreate.drop 2)).drop 7)
    else afterCreate
  (afterGap (atView.drop 4)).takeWhile fun c => !Text.isGap c && c != '('

section

variable {s t : Place Operand}

/-- A keyword is read off a text that starts with its first letter. -/
theorem startsIn_of_mem_places_keyword {word : String} {c : Char} {more : List Char}
    (first : word.toList = c :: more) (h : t ∈ (keyword word).places s) :
    startsIn (.same c) s.rest = true := by
  obtain ⟨same, -⟩ := mem_places_keyword h
  rw [first] at same
  exact startsIn_of_eqIgnoringCase same

theorem afterGap_eq_self {text : List Char} (solid : startsIn .gap text = false) :
    afterGap text = text := by
  cases text with
  | nil => rfl
  | cons c text => exact List.dropWhile_cons_of_neg (Bool.eq_false_iff.1 solid)

/-- A gap is read to its end if what comes next does not start with one. -/
theorem rest_of_mem_places_gap_of_solid (h : t ∈ gap.places s)
    (solid : startsIn .gap t.rest = false) :
    t.rest = afterGap s.rest := by
  obtain ⟨w, -, inside, rest⟩ := mem_places_some1 h
  have gaps : ∀ c ∈ w, Text.isGap c = true := inside
  rw [afterGap, rest, List.dropWhile_append_of_pos gaps]
  exact (afterGap_eq_self solid).symm

/-- A text that the pattern of qualified names takes is not empty and holds no gap and no
parenthesis. -/
theorem solid_of_readsText_qualifiedName {w : List Char} (h : qualifiedName.ReadsText w) :
    w ≠ [] ∧ ∀ c ∈ w, (!Text.isGap c && c != '(') = true :=
  forall_mem_of_readsText_qualifiedName
    (fun c => forall_identifierChar (p := fun c => (!Text.isGap c && c != '(') = true) (by decide))
    (by decide) (by decide) h

/-- How a statement that creates a view starts. -/
structure StartsView (text : List Char) : Prop where
  create : Text.eqIgnoringCase "CREATE".toList (text.take 6) = true
  next : startsIn (.union (.same 'O') (.same 'V')) (afterGap (text.drop 6)) = true

/-- What comes before the name of the view. -/
def viewHead : Phrase :=
  keyword "CREATE" ++ gap ++ maybe ["OR", "REPLACE"] ++ keyword "VIEW" ++ gap

/-- The words before the name of the view end where the name starts. -/
theorem rest_of_mem_places_viewHead (h : t ∈ viewHead.places s)
    (solid : startsIn .gap t.rest = false) :
    StartsView s.rest ∧ t.rest.takeWhile (fun c => !Text.isGap c && c != '(') =
      viewOperand s.rest := by
  obtain ⟨q, h, ht⟩ := List.mem_flatMap.1 h
  obtain ⟨v, h, hq⟩ := List.mem_flatMap.1 h
  obtain ⟨u, h, hv⟩ := List.mem_flatMap.1 h
  obtain ⟨p, hp, hu⟩ := List.mem_flatMap.1 h
  obtain ⟨create, afterCreate⟩ := mem_places_keyword hp
  obtain ⟨-, afterView⟩ := mem_places_keyword hq
  have atView := startsIn_of_mem_places_keyword (c := 'V') rfl hq
  have name := rest_of_mem_places_gap_of_solid ht solid
  rcases List.mem_append.1 hv with hv | hv
  · obtain ⟨z, hz, hv⟩ := List.mem_flatMap.1 hv
    obtain ⟨y, hy, hz⟩ := List.mem_flatMap.1 hz
    obtain ⟨o, ho, hy⟩ := List.mem_flatMap.1 hy
    obtain ⟨-, afterOr⟩ := mem_places_keyword ho
    obtain ⟨-, afterReplace⟩ := mem_places_keyword hz
    have atOr := startsIn_of_mem_places_keyword (c := 'O') rfl ho
    have atReplace := startsIn_of_mem_places_keyword (c := 'R') rfl hz
    have first := rest_of_mem_places_gap_of_solid hu (startsIn_gap_of_same (by decide) atOr)
    have second := rest_of_mem_places_gap_of_solid hy (startsIn_gap_of_same (by decide) atReplace)
    have third := rest_of_mem_places_gap_of_solid hv (startsIn_gap_of_same (by decide) atView)
    have start : u.rest = afterGap (s.rest.drop 6) := first.trans (congrArg afterGap afterCreate)
    refine ⟨⟨create, ?_⟩, ?_⟩
    · rw [← start, startsIn_union, atOr]
      rfl
    · rw [viewOperand, ← start, if_pos atOr, name, afterView, third, afterReplace, second, afterOr]
      rfl
  · rw [places_empty, List.mem_singleton] at hv
    subst hv
    have first := rest_of_mem_places_gap_of_solid hu (startsIn_gap_of_same (by decide) atView)
    have start : v.rest = afterGap (s.rest.drop 6) := first.trans (congrArg afterGap afterCreate)
    have other : startsIn (.same 'O') v.rest = false :=
      startsIn_same_eq_false (by decide) atView
    refine ⟨⟨create, ?_⟩, ?_⟩
    · rw [← start, startsIn_union, atView, Bool.or_true]
    · rw [viewOperand, ← start, other, name, afterView]
      rfl

/-- What comes after the name of the view, up to the word AS. -/
def viewTail : Phrase :=
  orNothing (gaps ++ parenthesized) ++ (gap ++ (keyword "AS" ++ wordEdge))

theorem firsts_viewTail :
    viewTail.firsts = (.union (.union (.union .gap (.oneOf ['('])) (.oneOf [])) .gap, false) := rfl

/-- The phrase is its head, the name of the view and its tail, however it is bracketed. -/
theorem places_createView (s : Place Operand) :
    createViewPhrase.places s = (viewHead ++ (objectName .object ++ viewTail)).places s := by
  rw [createViewPhrase, places_seq_assoc, places_seq_assoc, places_seq_assoc, places_seq_assoc]
  rfl

/-- What comes after the name of the view starts with a gap or a parenthesis. -/
theorem takeWhile_of_mem_places_viewTail (h : t ∈ viewTail.places s) :
    (s.rest.takeWhile fun c => !Text.isGap c && c != '(') = [] := by
  have start := startsIn_of_mem_places h rfl
  rw [firsts_viewTail] at start
  cases rest : s.rest with
  | nil => rfl
  | cons c after =>
    have stop : (!Text.isGap c && c != '(') = false := by
      rw [rest, startsIn_cons] at start
      simp only [CharSet.contains, List.contains_nil, List.contains_cons] at start
      grind
    rw [List.takeWhile_cons, stop]
    rfl

/-- Every reading of the pattern takes the same text for the name of the view. -/
theorem text_object_of_mem_places {text : List Char} {m : Match Operand}
    (h : m ∈ createViewPhrase.places ⟨none, text, []⟩) :
    StartsView text ∧ m.text .object = viewOperand text := by
  rw [places_createView] at h
  obtain ⟨p, hp, h⟩ := List.mem_flatMap.1 h
  obtain ⟨_, marked, tail⟩ := List.mem_flatMap.1 h
  obtain ⟨q, hq, rfl⟩ := List.mem_map.1 marked
  obtain ⟨name, split⟩ := suffix_of_mem_places hq
  obtain ⟨nonempty, solid⟩ := solid_of_readsText_qualifiedName ⟨p, q, hq, split.symm⟩
  have start : startsIn .gap p.rest = false := by
    rw [← split]
    cases name with
    | nil => exact absurd rfl nonempty
    | cons c name =>
      have first := solid c List.mem_cons_self
      rw [Bool.and_eq_true, Bool.not_eq_true'] at first
      exact first.1
  obtain ⟨starts, operand⟩ := rest_of_mem_places_viewHead hp start
  refine ⟨starts, ?_⟩
  have kept : _ = List.lookup Operand.object _ := lookup_of_mem_places rfl tail
  rw [List.lookup_cons_self] at kept
  rw [← operand, ← split, List.takeWhile_append_of_pos solid, takeWhile_of_mem_places_viewTail tail,
    List.append_nil, Match.text, Match.text?, kept, Option.map_some, Option.getD_some,
    Span.text_of_suffix split.symm]

end

/-! ## Statements with more text after them -/

section

variable {text more : List Char} {n : ObjectName}

theorem goesOn_identifier : GoesOn more identifier :=
  ((GoesOn.char _).orNothing.seq (.some1 _)).seq (GoesOn.char _).orNothing

theorem goesOn_qualifiedName : GoesOn more qualifiedName :=
  goesOn_identifier.seq (GoesOn.orNothing (.seq (.char _) goesOn_identifier))

theorem goesOn_parenthesized : GoesOn more parenthesized :=
  .assoc (.seq (.char _) (.stretch_char _ _))

/-- Only the edge after the word AS depends on what comes after it. -/
theorem goesOn_createViewPhrase (ends : startsIn .word more = false) :
    GoesOn more createViewPhrase := by
  have maybe_ : GoesOn more (maybe ["OR", "REPLACE"]) := .orNothing (.seq (.keywords _) .gap)
  have columns : GoesOn more (orNothing (gaps ++ parenthesized)) :=
    .orNothing (.seq (.some0 _) goesOn_parenthesized)
  have head :=
    (((GoesOn.keyword (ι := Operand) "CREATE").seq .gap).seq maybe_).seq (.keyword "VIEW")
  have object := (head.seq .gap).seq (goesOn_qualifiedName.mark .object)
  exact ((((object.seq columns).seq .gap).seq (.keyword "AS")).seq (.wordEdge ends))

/-- The rule accepts a text exactly if its phrase is read with this name. -/
theorem createView?_eq_some_iff :
    createView? text = some (.createView n) ↔
      ∃ m, createViewPhrase.match? text = some m ∧ objectAt m .object = n := by
  simp [createView?, Option.bind_eq_some_iff]

/-- The rule accepts a text with more after it, if the last word does not go on. -/
theorem createView?_append (h : createView? text = some (.createView n))
    (ends : startsIn .word more = false) : createView? (text ++ more) = some (.createView n) := by
  obtain ⟨m, read, rfl⟩ := createView?_eq_some_iff.1 h
  obtain ⟨m', mem, same⟩ := (goesOn_createViewPhrase ends).exists_mem_places read
  -- The preferred reading of the longer text may be another one, but it takes the same name.
  obtain ⟨first, others, preferred⟩ := List.exists_cons_of_ne_nil (List.ne_nil_of_mem mem)
  have head : first ∈ createViewPhrase.places ⟨none, text ++ more, []⟩ :=
    preferred ▸ List.mem_cons_self
  refine createView?_eq_some_iff.2 ⟨first, (reads_of_eq preferred).match?, ?_⟩
  rw [objectAt, objectAt, (text_object_of_mem_places head).2, ← (text_object_of_mem_places mem).2,
    same]

end

/-! ## The rules before that of CREATE VIEW -/

section

variable {text : List Char}

theorem StartsView.first (h : StartsView text) : startsIn (.same 'C') text = true :=
  startsIn_of_eqIgnoringCase (w := "REATE".toList) h.create

/-- After the word CREATE there comes a gap, or one of the letters O and V. -/
theorem StartsView.startsIn_eq_false {s t : Place Operand} (h : StartsView s.rest)
    (ht : t ∈ (keyword "CREATE" ++ gap).places s) {d : Char}
    (letter : Text.isWordChar d.toLower = true) (notO : 'O'.toLower ≠ d.toLower)
    (notV : 'V'.toLower ≠ d.toLower) : startsIn (.same d) t.rest = false := by
  refine Bool.eq_false_iff.2 fun start => ?_
  obtain ⟨u, hu, ht⟩ := List.mem_flatMap.1 ht
  have here := rest_of_mem_places_gap_of_solid ht (startsIn_gap_of_same letter start)
  have next : startsIn (.union (.same 'O') (.same 'V')) (afterGap (s.rest.drop 6)) = true := h.next
  have rest : u.rest = s.rest.drop 6 := (mem_places_keyword hu).2
  rw [← rest, ← here, startsIn_union, Bool.or_eq_true] at next
  rcases next with next | next
  · exact absurd start (Bool.eq_false_iff.1 (startsIn_same_eq_false notO next))
  · exact absurd start (Bool.eq_false_iff.1 (startsIn_same_eq_false notV next))

/-- A statement that starts like a view creates no table. -/
theorem createTable?_of_startsView (h : StartsView text) : createTable? text = none := by
  have stuck : Stuck createTablePhrase ⟨none, text, []⟩ := by
    refine Stuck.seq_left (.seq_left (.seq_left (.assoc (.seq_right fun t ht => ?_)) _) _) _
    have letterT : startsIn (.same 'T') t.rest = false :=
      h.startsIn_eq_false ht (by decide) (by decide) (by decide)
    have letterU : startsIn (.same 'U') t.rest = false :=
      h.startsIn_eq_false ht (by decide) (by decide) (by decide)
    have others : startsIn (.oneOf []) t.rest = false := by cases t.rest <;> rfl
    refine stuck_of_firsts rfl ?_
    show startsIn (.union (.union (.union (.same 'T') (.union (.same 'T') (.same 'U'))) (.oneOf []))
      (.same 'T')) t.rest = false
    simp only [startsIn_union, letterT, letterU, others, Bool.or_self]
  rw [createTable?, stuck.match?]
  rfl

theorem createIndex?_of_startsView (h : StartsView text) : createIndex? text = none := by
  have stuck : Stuck createIndexPhrase ⟨none, text, []⟩ := by
    have word : Stuck (keyword "CREATE" ++ gap ++
        orNothing (mark .uniqueWord (keyword "UNIQUE" ++ gap)) ++ keyword "INDEX")
        (⟨none, text, []⟩ : Place Operand) := by
      refine .assoc (.seq_right fun t ht => ?_)
      have letterU : startsIn (.same 'U') t.rest = false :=
        h.startsIn_eq_false ht (by decide) (by decide) (by decide)
      have letterI : startsIn (.same 'I') t.rest = false :=
        h.startsIn_eq_false ht (by decide) (by decide) (by decide)
      have others : startsIn (.oneOf []) t.rest = false := by cases t.rest <;> rfl
      refine stuck_of_firsts rfl ?_
      show startsIn (.union (.union (.same 'U') (.oneOf [])) (.same 'I')) t.rest = false
      simp only [startsIn_union, letterU, letterI, others, Bool.or_self]
    have start := ((word.seq_left gap).seq_left (maybe ["CONCURRENTLY"])).seq_left
      (maybe ["IF", "NOT", "EXISTS"])
    exact ((((((start.seq_left _).seq_left _).seq_left _).seq_left _).seq_left _).seq_left _)
  rw [createIndex?, stuck.match?]
  rfl

/-- No rule before that of CREATE VIEW accepts a text that starts like such a statement. -/
theorem rules_refuse_view (h : StartsView text) : ∀ rule ∈ rules.take 15, rule text = none := by
  -- Except for two rules the first letter is enough.
  have refuse : ∀ {p : Phrase} {d : Char}, p.firsts = (.same d, false) → 'C'.toLower ≠ d.toLower →
      p.match? text = none := by
    intro p d first other
    refine (stuck_of_firsts (congrArg Prod.snd first) ?_).match?
    rw [first]
    exact startsIn_same_eq_false other h.first
  have alter : 'C'.toLower ≠ 'A'.toLower := by decide
  have drop : 'C'.toLower ≠ 'D'.toLower := by decide
  have rename : 'C'.toLower ≠ 'R'.toLower := by decide
  have set : 'C'.toLower ≠ 'S'.toLower := by decide
  simp only [rules, List.take_succ_cons, List.take_zero, List.forall_mem_cons]
  refine ⟨?_, createTable?_of_startsView h, ?_, ?_, ?_, ?_, ?_, ?_, ?_, ?_, ?_, ?_, ?_,
    createIndex?_of_startsView h, ?_, by simp⟩
  · rw [setSearchPath?, refuse rfl set]; rfl
  · rw [dropTable?, refuse rfl drop]; rfl
  · rw [addPartition?, refuse rfl alter]; rfl
  · rw [attachPartition?, refuse rfl alter]; rfl
  · rw [detachPartition?, refuse rfl alter]; rfl
  · rw [addColumn?, refuse rfl alter]; rfl
  · rw [dropColumn?, refuse rfl alter]; rfl
  · rw [modifyColumn?, refuse rfl alter]; rfl
  · rw [renameTable?, refuse rfl rename]; rfl
  · rw [renameColumn?, refuse rfl alter]; rfl
  · rw [renameBare?, refuse rfl alter]; rfl
  · rw [renameTo?, refuse rfl alter]; rfl
  · rw [dropIndex?, refuse rfl drop]; rfl

end

/-! ## Which rule a statement comes from -/

/-- Statements about comments start with the word COMMENT. -/
theorem comment_of_ruleOf {stmt : List Char} {s : Statement} (hs : ruleOf s stmt = some s)
    (comment : s.isComment = true) : Text.eqIgnoringCase "COMMENT".toList (stmt.take 7) = true := by
  refine Decidable.byContradiction fun other => ?_
  have stuck : Stuck (keyword "COMMENT") (⟨none, stmt, []⟩ : Place Operand) :=
    stuck_keyword (Bool.eq_false_iff.2 other)
  have refuse : ∀ (object : String) (name : Phrase),
      (keywords ["COMMENT", "ON", object] ++ gap ++ name ++ gap ++ keyword "IS" ++ gap ++
        commentText).match? stmt = none := fun object name =>
    ((((((((stuck.seq_left _).seq_left _).seq_left _).seq_left _).seq_left _).seq_left _).seq_left
      _).seq_left _).match?
  have onTable : commentOnTablePhrase.match? stmt = none := refuse "TABLE" _
  have onColumn : commentOnColumnPhrase.match? stmt = none := refuse "COLUMN" _
  have onView : commentOnViewPhrase.match? stmt = none := refuse "VIEW" _
  cases s with
  | commentOnTable =>
    rw [ruleOf, commentOnTable?, onTable] at hs
    cases hs
  | commentOnColumn =>
    rw [ruleOf, commentOnColumn?, onColumn] at hs
    cases hs
  | commentOnView =>
    rw [ruleOf, commentOnView?, onView] at hs
    cases hs
  | _ => cases comment

/-- A statement that starts like CREATE VIEW does not start with the word COMMENT. -/
theorem StartsView.not_comment {text more : List Char} (h : StartsView (text ++ more)) :
    Text.eqIgnoringCase "COMMENT".toList (text.take 7) = false := by
  have create := h.create
  match text with
  | [] => rfl
  | [c] => exact Bool.and_false _
  | c :: d :: text =>
    refine Bool.eq_false_iff.2 fun comment => ?_
    have afterC : Text.eqIgnoringCase ('C' :: 'R' :: "EATE".toList)
      (c :: d :: (text ++ more).take 4) = true := create
    have afterC' :
        Text.eqIgnoringCase ('C' :: 'O' :: "MMENT".toList) (c :: d :: text.take 5) = true :=
      comment
    rw [eqIgnoringCase_cons, eqIgnoringCase_cons, Bool.and_eq_true,
      Bool.and_eq_true] at afterC afterC'
    have second : 'R'.toLower = 'O'.toLower :=
      (beq_iff_eq.1 afterC.2.1).trans (beq_iff_eq.1 afterC'.2.1).symm
    exact absurd second (by decide)

end Sql

namespace Statement

open Sql

variable {text more : List Char} {n : ObjectName}

/-- Only the rule for views makes a statement that creates a view. -/
theorem createView?_of_ofChars (h : ofChars text = .createView n) :
    createView? (Text.trim text) = some (.createView n) :=
  ruleOf_ofChars h rfl

/-- A statement that creates a view starts with the words for it. -/
theorem startsView_of_ofChars (h : ofChars text = .createView n) : StartsView (Text.trim text) := by
  obtain ⟨m, read, -⟩ := createView?_eq_some_iff.1 (createView?_of_ofChars h)
  rw [match?_eq] at read
  exact (text_object_of_mem_places (List.mem_of_head? read)).1

/-- A comment statement starts with its word. -/
theorem comment_of_ofChars (h : (ofChars text).isComment = true) :
    Text.eqIgnoringCase "COMMENT".toList ((Text.trim text).take 7) = true := by
  have known : (ofChars text).isRecognized = true := by
    generalize ofChars text = s at h
    cases s <;> first | rfl | cases h
  exact comment_of_ruleOf (ruleOf_ofChars rfl known) h

/-- A statement that creates a view still creates it with more text after it. -/
theorem ofChars_append_createView (h : ofChars text = .createView n) (trimmed : Text.Trimmed text)
    (ends : startsIn .word more = false) (whole : Text.Trimmed (text ++ more)) :
    ofChars (text ++ more) = .createView n := by
  have accepts := createView?_of_ofChars h
  rw [trimmed.trim_eq] at accepts
  have still := createView?_append accepts ends
  obtain ⟨m, read, -⟩ := createView?_eq_some_iff.1 still
  rw [match?_eq] at read
  have starts := (text_object_of_mem_places (List.mem_of_head? read)).1
  exact ofChars_of_rule whole 15 (rules_refuse_view starts) rfl still

/-- A statement about a comment creates no view, whatever comes after it. -/
theorem ofChars_append_comment (h : (ofChars text).isComment = true) (trimmed : Text.Trimmed text)
    (whole : Text.Trimmed (text ++ more)) : ofChars (text ++ more) ≠ .createView n := by
  intro creates
  have comment := comment_of_ofChars h
  have starts := startsView_of_ofChars creates
  rw [trimmed.trim_eq] at comment
  rw [whole.trim_eq] at starts
  exact absurd comment (Bool.eq_false_iff.1 starts.not_comment)

end Statement

namespace Sql

/-! ## Statements of scripts -/

/-- A text that starts with a letter still does without the blanks around it. -/
theorem startsIn_trim {c : Char} {text : List Char} (letter : Text.isWordChar c.toLower = true)
    (h : startsIn (.same c) text = true) : startsIn (.same c) (Text.trim text) = true := by
  obtain ⟨before, after, split, blankBefore, blankAfter⟩ := Text.exists_trim text
  have solid : ∀ {d : Char}, d.toLower = c.toLower → Text.isBlank d = false := fun same =>
    Text.isBlank_eq_false_of_isWordChar (by rwa [← Text.isWordChar_toLower, same])
  rw [split] at h
  cases before with
  | cons d before =>
    have blank := blankBefore d List.mem_cons_self
    exact absurd blank (Bool.eq_false_iff.1 (solid (beq_iff_eq.1 h)))
  | nil =>
    cases trimmed : Text.trim text with
    | cons d more => rwa [trimmed] at h
    | nil =>
      rw [trimmed, List.nil_append, List.nil_append] at h
      cases after with
      | nil => exact absurd h Bool.false_ne_true
      | cons d after =>
        have blank := blankAfter d List.mem_cons_self
        exact absurd blank (Bool.eq_false_iff.1 (solid (beq_iff_eq.1 h)))

/-- The statements for chained actions start with the word ALTER. -/
theorem startsIn_of_mem_expandActionTexts? {text action : List Char} {texts : List (List Char)}
    (h : expandActionTexts? text = some texts) (mem : action ∈ texts) :
    startsIn (.same 'A') action = true := by
  simp only [expandActionTexts?, Option.bind_eq_bind, Option.bind_eq_some_iff,
    Option.ite_none_left_eq_some, Option.some.injEq] at h
  obtain ⟨m, read, -, rfl⟩ := h
  obtain ⟨part, -, rfl⟩ := List.mem_map.1 mem
  obtain ⟨w, found⟩ : ∃ w, m.text? .head = some w := m.exists_text? read rfl
  obtain ⟨q, hq, reads⟩ := m.readsText read found
  obtain rfl := List.mem_singleton.1 hq
  have head : m.text .head = w := congrArg (Option.getD · []) found
  rw [singleAction, head, List.append_assoc]
  exact startsIn_append (startsIn_trim (by decide) (reads.startsIn rfl)) _

/-- Of the statements that a script stands for, those that start with the letter C are cut from it
as they are. -/
theorem mem_statementTexts_of_mem_actions {script stmt : String} (mem : stmt ∈ actions script)
    (start : startsIn (.same 'C') (Text.trim stmt.toList) = true) :
    Text.trim stmt.toList ∈ statementTexts script.toList := by
  obtain ⟨text, cut, mem⟩ := List.mem_flatMap.1 mem
  rw [expandActions?] at mem
  cases expanded : expandActionTexts? text.toList with
  | some texts =>
    rw [expanded] at mem
    obtain ⟨action, hmem, rfl⟩ := List.mem_map.1 (show stmt ∈ texts.map String.ofList from mem)
    rw [String.toList_ofList] at start
    have other := startsIn_trim (by decide) (startsIn_of_mem_expandActionTexts? expanded hmem)
    exact absurd start (Bool.eq_false_iff.1 (startsIn_same_eq_false (by decide) other))
  | none =>
    rw [expanded] at mem
    obtain rfl : stmt = text := List.mem_singleton.1 mem
    obtain ⟨chars, found, rfl⟩ := List.mem_map.1 cut
    rwa [String.toList_ofList, (trimmed_of_mem_statementTexts found).trim_eq]

end Sql

namespace Statement

open Sql

/-- A statement that creates a view or is about a comment starts with the letter C. -/
theorem startsIn_of_ofChars {text : List Char}
    (h : (∃ n, ofChars text = .createView n) ∨ (ofChars text).isComment = true) :
    startsIn (.same 'C') (Text.trim text) = true := by
  rcases h with ⟨n, creates⟩ | comment
  · exact (startsView_of_ofChars creates).first
  · exact startsIn_of_eqIgnoringCase (w := "OMMENT".toList) (comment_of_ofChars comment)

end Statement

end Rollback
