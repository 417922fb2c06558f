import Mathlib.Data.List.Forall2
import Rollback.Proofs.Pattern.LetterCase
import Rollback.Proofs.Sql.StatementNames

/-!
# Statements and letter case

The case of ASCII letters never changes what a statement is recognized as or into how many actions
it is expanded. A text in ASCII lower case stands for the same statement with its operands in lower
case, so two texts that differ in the case of their letters stand for statements that do so too, and
name the same objects.

- `Statement.asciiLower`: a statement with the texts of its operands in lower case
- `Sql.topLevelParts_asciiLower`: a list is cut at the same commas
- `Sql.rule_asciiLower`: each rule accepts or refuses a text in any case of its letters
- `Statement.ofText_asciiLower`, `Sql.expandActions?_asciiLower`: what a text in lower case stands
  for
- `Statement.SameButCase`: statements that differ in the case of ASCII letters only
-/

set_option autoImplicit false

namespace Rollback

namespace Statement

/-- The statement with the ASCII letters of its texts in lower case. -/
def asciiLower : Statement → Statement
  | setSearchPath schema => setSearchPath schema.asciiLower
  | createTable name => createTable name.asciiLower
  | dropTable name => dropTable name.asciiLower
  | addPartition table partition bounds =>
    addPartition table.asciiLower (partition.map String.asciiLower) (bounds.map String.asciiLower)
  | attachPartition table child => attachPartition table.asciiLower child.asciiLower
  | detachPartition table child => detachPartition table.asciiLower child.asciiLower
  | addColumn table column definition columnWord =>
    addColumn table.asciiLower column.asciiLower (definition.map String.asciiLower) columnWord
  | dropColumn table column columnWord =>
    dropColumn table.asciiLower column.asciiLower columnWord
  | modifyColumn table column definition columnWord =>
    modifyColumn table.asciiLower column.asciiLower (definition.map String.asciiLower) columnWord
  | renameTable source target => renameTable source.asciiLower target.asciiLower
  | renameColumn table source target =>
    renameColumn table.asciiLower source.asciiLower target.asciiLower
  | renameBare table source target =>
    renameBare table.asciiLower source.asciiLower target.asciiLower
  | renameTo table target => renameTo table.asciiLower target.asciiLower
  | createIndex name table unique => createIndex name.asciiLower table.asciiLower unique
  | dropIndex name => dropIndex name.asciiLower
  | createView name => createView name.asciiLower
  | dropView name => dropView name.asciiLower
  | renameView view target => renameView view.asciiLower target.asciiLower
  | commentOnTable table comment =>
    commentOnTable table.asciiLower (comment.map String.asciiLower)
  | commentOnColumn table column comment =>
    commentOnColumn table.asciiLower column.asciiLower (comment.map String.asciiLower)
  | commentOnView view comment => commentOnView view.asciiLower (comment.map String.asciiLower)
  | unrecognized preview => unrecognized preview.asciiLower

/-- What a statement does is no matter of case. -/
theorem kind_asciiLower (s : Statement) : s.asciiLower.kind = s.kind := by
  cases s <;> rfl

theorem objectNames_asciiLower (s : Statement) :
    s.asciiLower.objectNames = s.objectNames.map ObjectName.asciiLower := by
  cases s <;> rfl

/-- The objects of a statement do not depend on the case of ASCII letters. -/
theorem keys_asciiLower (s : Statement) :
    s.asciiLower.objectNames.map ObjectName.key = s.objectNames.map ObjectName.key := by
  rw [objectNames_asciiLower, List.map_map]
  exact List.map_congr_left fun n _ => n.key_asciiLower

end Statement

namespace Sql

open Pattern Text

/-! ## Parts of lists -/

theorem isQuote_toLower (c : Char) : isQuote c.toLower = isQuote c :=
  apply_toLower isQuote (by decide) c

theorem isAlpha_of_isQuote {q : Char} (h : isQuote q = true) : q.isAlpha = false := by
  rw [isQuote, Bool.or_eq_true, Bool.or_eq_true, beq_iff_eq, beq_iff_eq, beq_iff_eq] at h
  rcases h with (rfl | rfl) | rfl <;> rfl

/-- Neither quotes nor what separates parts are letters, so a list is cut at the same places. -/
theorem partsFrom_asciiLower (escapes : Escapes) (quote : Option Char) (depth : Nat)
    (part text : List Char) (isOpen : ∀ q ∈ quote, isQuote q = true) :
    partsFrom escapes quote depth (asciiLower part) (asciiLower text) =
      (partsFrom escapes quote depth part text).map asciiLower := by
  have slash (c : Char) : (c.toLower == '\\') = (c == '\\') := toLower_beq (by decide) c
  have opening (c : Char) : (c.toLower == '(') = (c == '(') := toLower_beq (by decide) c
  have closing (c : Char) : (c.toLower == ')') = (c == ')') := toLower_beq (by decide) c
  have comma (c : Char) : (c.toLower == ',') = (c == ',') := toLower_beq (by decide) c
  -- The induction is on the walk through the list, with one case for each branch that it takes.
  fun_induction partsFrom escapes quote depth part text with
  | case1 quote depth part =>
    rw [asciiLower_nil, partsFrom, List.map_singleton, asciiLower_reverse]
  | case2 depth part c q escape =>
    rw [asciiLower_cons, asciiLower_nil, partsFrom.eq_def]
    simp only [slash, escape, if_true, List.map_singleton, asciiLower_reverse, asciiLower_cons]
  | case3 depth part c q escape d rest ih =>
    rw [asciiLower_cons, asciiLower_cons, partsFrom.eq_def]
    simp only [slash, escape, if_true]
    exact ih isOpen
  | case4 depth part c rest q plain ih =>
    have letter := isAlpha_of_isQuote (isOpen q rfl)
    rw [asciiLower_cons, partsFrom.eq_def]
    simp only [slash, plain, toLower_beq letter]
    refine ih fun d mem => ?_
    split at mem
    · exact absurd mem (by simp)
    · exact isOpen d mem
  | case5 depth part c rest quote ih =>
    rw [asciiLower_cons, partsFrom.eq_def]
    simp only [isQuote_toLower, quote, if_true]
    rw [toLower_of_isAlpha_eq_false (isAlpha_of_isQuote quote)]
    have same := ih fun d mem => Option.some.inj mem ▸ quote
    rwa [asciiLower_cons, toLower_of_isAlpha_eq_false (isAlpha_of_isQuote quote)] at same
  | case6 depth part c rest plain opens ih =>
    rw [asciiLower_cons, partsFrom.eq_def]
    simp only [isQuote_toLower, plain, opening, opens, if_true]
    exact ih isOpen
  | case7 depth part c rest plain notOpen closes ih =>
    rw [asciiLower_cons, partsFrom.eq_def]
    simp only [isQuote_toLower, plain, opening, notOpen, closing, closes, if_true]
    exact ih isOpen
  | case8 depth part c rest plain notOpen notClosing separates ih =>
    rw [asciiLower_cons, partsFrom.eq_def]
    simp only [isQuote_toLower, plain, opening, notOpen, closing, notClosing, comma, separates,
      if_true]
    rw [List.map_cons, asciiLower_reverse, ← ih isOpen]
    rfl
  | case9 depth part c rest plain notOpen notClosing inside ih =>
    rw [asciiLower_cons, partsFrom.eq_def]
    simp only [isQuote_toLower, plain, opening, notOpen, closing, notClosing, comma, inside]
    exact ih isOpen

/-- Commas, quotes and parentheses have no case, so a list is cut at the same places. -/
@[simp] theorem topLevelParts_asciiLower (escapes : Escapes) (text : List Char) :
    topLevelParts escapes (asciiLower text) = (topLevelParts escapes text).map asciiLower := by
  have cut : partsFrom escapes none 0 [] (asciiLower text) =
      (partsFrom escapes none 0 [] text).map asciiLower :=
    partsFrom_asciiLower escapes none 0 [] text fun q mem => absurd mem (by simp)
  have trimmed : Text.trim ∘ asciiLower = asciiLower ∘ Text.trim := funext trim_asciiLower
  rw [topLevelParts, cut, List.map_map, trimmed, ← List.map_map, List.filter_map, topLevelParts]
  simp only [Function.comp_def, isEmpty_asciiLower]

theorem dropTerminators_asciiLower (text : List Char) :
    dropTerminators (asciiLower text) = asciiLower (dropTerminators text) := by
  rw [dropTerminators, trimEnd_asciiLower, dropEndWhile_asciiLower (toLower_beq (by decide)),
    dropTerminators]

/-- The actions of a statement are told apart at the same places. -/
theorem actionParts_asciiLower (body : List Char) :
    actionParts (asciiLower body) = (actionParts body).map asciiLower := by
  rw [actionParts, dropTerminators_asciiLower, topLevelParts_asciiLower, actionParts]

/-- The word of an action is found in any case. -/
theorem startsWithAction_asciiLower (part : List Char) :
    startsWithAction (asciiLower part) = startsWithAction part := by
  rw [startsWithAction, words_asciiLower, List.head?_map, Option.any_map, startsWithAction]
  congr 1
  exact funext (isOneOf_asciiLower actionWords)

/-! ## Operands -/

section Operands

variable (m : Match Operand) (operand : Operand)

theorem objectAt_asciiLower : objectAt m.asciiLower operand = (objectAt m operand).asciiLower := by
  rw [objectAt, Match.text_asciiLower, ObjectName.ofChars_asciiLower, objectAt]

theorem identifierAt_asciiLower :
    identifierAt m.asciiLower operand = asciiLower (identifierAt m operand) := by
  rw [identifierAt, Match.text_asciiLower, unquote_asciiLower, identifierAt]

theorem clause?_asciiLower (text : List Char) :
    clause? (asciiLower text) = (clause? text).map asciiLower := by
  simp only [clause?, trim_asciiLower, isEmpty_asciiLower]
  split <;> rfl

theorem clauseAt?_asciiLower :
    clauseAt? m.asciiLower operand = (clauseAt? m operand).map asciiLower := by
  rw [clauseAt?, Match.text?_asciiLower, clauseAt?]
  cases m.text? operand with
  | none => rfl
  | some text => exact clause?_asciiLower text

theorem commentAt?_asciiLower :
    commentAt? m.asciiLower = (commentAt? m).map String.asciiLower := by
  rw [commentAt?, Match.text?_asciiLower, commentAt?, Option.map_map, Option.map_map]
  congr 1
  exact funext String.ofList_asciiLower

theorem isMarked_asciiLower : isMarked m.asciiLower operand = isMarked m operand := by
  rw [isMarked, Match.text?_asciiLower, Option.isSome_map, isMarked]

theorem chainsActions_asciiLower : chainsActions m.asciiLower = chainsActions m := by
  rw [chainsActions, Match.after?_asciiLower, chainsActions]
  cases m.after? .object with
  | none => rfl
  | some rest =>
    rw [Option.map_some, Option.getD_some, Option.getD_some, actionParts_asciiLower,
      List.length_map]

/-- The schemas of a search path are cut and bared in the same way. -/
theorem schemasOf_asciiLower (list : List Char) :
    schemasOf (asciiLower list) = (schemasOf list).map asciiLower := by
  have schema (piece : List Char) :
      Text.trim (dropAround (· == '\x27') (unquote (asciiLower piece))) =
        asciiLower (Text.trim (dropAround (· == '\x27') (unquote piece))) := by
    rw [unquote_asciiLower, dropAround_asciiLower (toLower_beq (by decide)), trim_asciiLower]
  rw [schemasOf, pieces_asciiLower (by decide), List.map_map, schemasOf, List.map_map]
  refine List.map_congr_left fun piece _ => ?_
  rw [Function.comp_apply, Function.comp_apply, schema]

/-- What stands before the semicolon is as long in lower case. -/
theorem beforeSemicolon?_asciiLower (rest : List Char) :
    beforeSemicolon? (asciiLower rest) = (beforeSemicolon? rest).map asciiLower := by
  have other (c : Char) : (c.toLower != ';') = (c != ';') :=
    congrArg (!·) (toLower_beq (by decide) c)
  have after (s : List Char) : (asciiLower s).drop 1 = asciiLower (s.drop 1) := List.map_drop.symm
  rw [beforeSemicolon?, dropWhile_asciiLower other, after, all_asciiLower isGap_toLower,
    takeWhile_asciiLower other, beforeSemicolon?]
  split <;> rfl

theorem withoutSemicolon_asciiLower (rest : List Char) :
    withoutSemicolon (asciiLower rest) = asciiLower (withoutSemicolon rest) := by
  rw [withoutSemicolon, ← asciiLower_reverse, dropWhile_asciiLower isGap_toLower, withoutSemicolon]
  cases rest.reverse.dropWhile isGap with
  | nil => rfl
  | cons c before =>
    by_cases last : c = ';'
    · subst last
      exact (asciiLower_reverse before).symm
    · have other : c.toLower ≠ ';' := by
        rw [Ne, ← beq_iff_eq, toLower_beq (by decide), beq_iff_eq]
        exact last
      split
      · rename_i first
        exact absurd (List.cons.inj first).1 other
      · split
        · rename_i first
          exact absurd (List.cons.inj first).1 last
        · exact (asciiLower_reverse _).symm

end Operands

/-! ## Previews -/

theorem flatten_asciiLower (text : List Char) :
    flatten (asciiLower text) = asciiLower (flatten text) := by
  rw [flatten, words_asciiLower, flatten]
  cases words text with
  | nil => rfl
  | cons word rest =>
    rw [List.map_cons, intercalate_cons, intercalate_cons, asciiLower_append, List.flatMap_map,
      asciiLower, asciiLower, List.map_flatMap]
    rfl

theorem preview_asciiLower (text : String) (max : Nat) :
    preview text.asciiLower max = (preview text max).asciiLower := by
  simp only [preview, String.toList_asciiLower, flatten_asciiLower, length_asciiLower]
  split
  · have cut : (asciiLower (flatten text.toList)).take max =
        asciiLower ((flatten text.toList).take max) := List.map_take.symm
    rw [cut, String.ofList_asciiLower, String.asciiLower_append]
    rfl
  · exact String.ofList_asciiLower _

/-! ## Rules -/

/-- A statement that is made of a reading is the same for a reading in lower case. -/
theorem bind_match?_asciiLower {p : Phrase} (h : p.ignoresCase = true)
    {f : Match Operand → Option Statement}
    (same : ∀ m : Match Operand, f m.asciiLower = (f m).map Statement.asciiLower)
    (stmt : List Char) :
    (p.match? (asciiLower stmt)).bind f = ((p.match? stmt).bind f).map Statement.asciiLower := by
  rw [match?_asciiLower h]
  cases p.match? stmt with
  | none => rfl
  | some m => exact same m

/-- The placeholder for the user's own schema is passed over in any case. -/
theorem setSearchPath?_asciiLower (stmt : List Char) :
    setSearchPath? (asciiLower stmt) = (setSearchPath? stmt).map Statement.asciiLower := by
  refine bind_match?_asciiLower (p := setSearchPathPhrase) (by decide) (fun m => ?_) stmt
  have counts : (fun schema => !schema.isEmpty && !eqIgnoringCase schema "$user".toList) ∘
      asciiLower = fun schema => !schema.isEmpty && !eqIgnoringCase schema "$user".toList := by
    funext schema
    rw [Function.comp_apply, isEmpty_asciiLower, eqIgnoringCase_comm, eqIgnoringCase_asciiLower,
      eqIgnoringCase_comm]
  show (beforeSemicolon? (asciiLower m.rest)).bind _ = _
  rw [beforeSemicolon?_asciiLower]
  cases beforeSemicolon? m.rest with
  | none => rfl
  | some list =>
    show ((schemasOf (asciiLower list)).find? _).bind _ = (((schemasOf list).find? _).bind _).map _
    rw [schemasOf_asciiLower, List.find?_map, counts]
    cases (schemasOf list).find? fun schema =>
        !schema.isEmpty && !eqIgnoringCase schema "$user".toList with
    | none => rfl
    | some schema =>
      exact congrArg (some ∘ Statement.setSearchPath) (String.ofList_asciiLower schema)

theorem map_ofList_asciiLower (text : Option (List Char)) :
    (text.map asciiLower).map String.ofList = (text.map String.ofList).map String.asciiLower := by
  cases text with
  | none => rfl
  | some text => exact congrArg some (String.ofList_asciiLower text)

/-- The words that start the bounds of a nameless partition are found in any case. -/
theorem addPartition?_asciiLower (stmt : List Char) :
    addPartition? (asciiLower stmt) = (addPartition? stmt).map Statement.asciiLower := by
  refine bind_match?_asciiLower (p := addPartitionPhrase) (by decide) (fun m => ?_) stmt
  have bounds : clause? (withoutSemicolon m.asciiLower.rest) =
      (clause? (withoutSemicolon m.rest)).map asciiLower := by
    rw [Place.asciiLower, withoutSemicolon_asciiLower, clause?_asciiLower]
  simp only [bounds, objectAt_asciiLower, identifierAt_asciiLower, isEmpty_asciiLower,
    isOneOf_asciiLower, Match.text_asciiLower, map_ofList_asciiLower]
  split
  · rfl
  · split
    · cases clause? (withoutSemicolon m.rest) with
      | none =>
        simp only [Option.map_none, String.ofList_asciiLower]
        rfl
      | some rest =>
        have text : asciiLower (m.text .partition) ++ ' ' :: asciiLower rest =
            asciiLower (m.text .partition ++ ' ' :: rest) :=
          (asciiLower_append (m.text .partition) (' ' :: rest)).symm
        simp only [Option.map_some, text, String.ofList_asciiLower]
        rfl
    · rw [String.ofList_asciiLower]
      rfl

/-- The words of other clauses are found in any case, so the same additions are refused. -/
theorem addColumn?_asciiLower (stmt : List Char) :
    addColumn? (asciiLower stmt) = (addColumn? stmt).map Statement.asciiLower := by
  refine bind_match?_asciiLower (p := addColumnPhrase) (by decide) (fun m => ?_) stmt
  simp only [chainsActions_asciiLower, identifierAt_asciiLower, isOneOf_asciiLower,
    objectAt_asciiLower, clauseAt?_asciiLower, map_ofList_asciiLower, isMarked_asciiLower,
    String.ofList_asciiLower]
  split <;> rfl

theorem dropColumn?_asciiLower (stmt : List Char) :
    dropColumn? (asciiLower stmt) = (dropColumn? stmt).map Statement.asciiLower := by
  refine bind_match?_asciiLower (p := dropColumnPhrase) (by decide) (fun m => ?_) stmt
  simp only [chainsActions_asciiLower, identifierAt_asciiLower, isOneOf_asciiLower,
    objectAt_asciiLower, isMarked_asciiLower, String.ofList_asciiLower]
  split <;> rfl

theorem modifyColumn?_asciiLower (stmt : List Char) :
    modifyColumn? (asciiLower stmt) = (modifyColumn? stmt).map Statement.asciiLower := by
  refine bind_match?_asciiLower (p := modifyColumnPhrase) (by decide) (fun m => ?_) stmt
  simp only [chainsActions_asciiLower, identifierAt_asciiLower, objectAt_asciiLower,
    clauseAt?_asciiLower, map_ofList_asciiLower, isMarked_asciiLower, String.ofList_asciiLower]
  split <;> rfl

/-- The words that are no name here are found in any case. -/
theorem renameBare?_asciiLower (stmt : List Char) :
    renameBare? (asciiLower stmt) = (renameBare? stmt).map Statement.asciiLower := by
  refine bind_match?_asciiLower (p := renameBarePhrase) (by decide) (fun m => ?_) stmt
  simp only [identifierAt_asciiLower, isOneOf_asciiLower, objectAt_asciiLower,
    String.ofList_asciiLower]
  split <;> rfl

/-- The last dot of the path is at the same place. -/
theorem commentOnColumn?_asciiLower (stmt : List Char) :
    commentOnColumn? (asciiLower stmt) = (commentOnColumn? stmt).map Statement.asciiLower := by
  refine bind_match?_asciiLower (p := commentOnColumnPhrase) (by decide) (fun m => ?_) stmt
  rw [Match.text_asciiLower, cutAtLast_asciiLower (by decide), commentAt?_asciiLower]
  cases cutAtLast '.' (m.text .object) with
  | none => rfl
  | some path =>
    obtain ⟨table, column⟩ := path
    simp only [Option.map_some, Option.bind_eq_bind, Option.bind_some,
      ObjectName.ofChars_asciiLower, unquote_asciiLower, String.ofList_asciiLower]
    rfl

/-- A rule accepts a text in lower case exactly if it accepts the text, and reads the
same operands. -/
theorem rule_asciiLower (stmt : List Char) :
    ∀ rule ∈ rules, rule (asciiLower stmt) = (rule stmt).map Statement.asciiLower := by
  simp only [rules, List.forall_mem_cons]
  refine ⟨setSearchPath?_asciiLower stmt, ?_, ?_, addPartition?_asciiLower stmt, ?_, ?_,
    addColumn?_asciiLower stmt, dropColumn?_asciiLower stmt, modifyColumn?_asciiLower stmt, ?_, ?_,
    renameBare?_asciiLower stmt, ?_, ?_, ?_, ?_, ?_, ?_, ?_, commentOnColumn?_asciiLower stmt, ?_,
    List.forall_mem_nil _⟩
  -- The other rules refuse nothing that they read.
  all_goals
    refine bind_match?_asciiLower (by decide) (fun m => ?_) stmt
    simp only [objectAt_asciiLower, identifierAt_asciiLower, isMarked_asciiLower,
      commentAt?_asciiLower, String.ofList_asciiLower]
    rfl

/-! ## Chained actions -/

theorem singleAction_asciiLower (head part : List Char) :
    singleAction (asciiLower head) (asciiLower part) = asciiLower (singleAction head part) := by
  rw [singleAction, singleAction, asciiLower_append, asciiLower_append]
  rfl

/-- The head and the actions are told apart at the same places. -/
theorem expandActionTexts?_asciiLower (stmt : List Char) :
    expandActionTexts? (asciiLower stmt) = (expandActionTexts? stmt).map (List.map asciiLower) := by
  rw [expandActionTexts?, trim_asciiLower, match?_asciiLower (p := alterTableHeadPhrase)
    (by decide), expandActionTexts?]
  cases alterTableHeadPhrase.match? (Text.trim stmt) with
  | none => rfl
  | some m =>
    have parts : actionParts m.asciiLower.rest = (actionParts m.rest).map asciiLower :=
      actionParts_asciiLower m.rest
    have led : startsWithAction ∘ asciiLower = startsWithAction :=
      funext startsWithAction_asciiLower
    simp only [Option.map_some, Option.bind_eq_bind, Option.bind_some, parts, List.length_map,
      List.all_map, led, Match.text_asciiLower, trim_asciiLower]
    split
    · rfl
    · rw [Option.map_some, List.map_map, List.map_map]
      exact congrArg some (List.map_congr_left fun part _ => singleAction_asciiLower _ part)

/-- A text in lower case is expanded to the same statements in lower case. -/
theorem expandActions?_asciiLower (stmt : String) :
    expandActions? stmt.asciiLower = (expandActions? stmt).map (List.map String.asciiLower) := by
  rw [expandActions?, String.toList_asciiLower, expandActionTexts?_asciiLower, expandActions?,
    Option.map_map, Option.map_map]
  congr 1
  funext texts
  rw [Function.comp_apply, Function.comp_apply, List.map_map, List.map_map]
  exact List.map_congr_left fun text _ => String.ofList_asciiLower text

end Sql

namespace Statement

open Sql Text

/-- A text in lower case is recognized as the statement in lower case, by the same rule. -/
theorem ofChars_asciiLower (text : List Char) :
    ofChars (Text.asciiLower text) = (ofChars text).asciiLower := by
  have accepted : (rules.findSome? fun rule => rule (Text.asciiLower (trim text))) =
      (rules.findSome? fun rule => rule (trim text)).map asciiLower := by
    rw [List.map_findSome?, ← List.head?_filterMap, ← List.head?_filterMap]
    exact congrArg List.head? (List.filterMap_congr (rule_asciiLower (trim text)))
  rw [ofChars, trim_asciiLower, accepted, String.ofList_asciiLower, preview_asciiLower, ofChars]
  exact Option.getD_map asciiLower (.unrecognized _) _

/-- A text in lower case stands for the same statement in lower case. -/
theorem ofText_asciiLower (text : String) : ofText text.asciiLower = (ofText text).asciiLower := by
  rw [ofText, String.toList_asciiLower, ofChars_asciiLower, ofText]

/-- Two statements of one kind, with the same flags and optional operands, whose texts differ in the
case of ASCII letters only, and whose objects are the same. -/
structure SameButCase (a b : Statement) : Prop where
  kind : a.kind = b.kind
  texts : a.asciiLower = b.asciiLower
  keys : a.objectNames.map ObjectName.key = b.objectNames.map ObjectName.key

theorem SameButCase.of_asciiLower {a b : Statement} (h : a.asciiLower = b.asciiLower) :
    a.SameButCase b where
  kind := by rw [← kind_asciiLower, h, kind_asciiLower]
  texts := h
  keys := by rw [← keys_asciiLower, h, keys_asciiLower]

end Statement

open Text

/-- Lists with one lower case differ in the case of their texts only. -/
theorem forall₂_eqIgnoringCase {xs ys : List String}
    (h : xs.map String.asciiLower = ys.map String.asciiLower) :
    List.Forall₂ (fun x y => eqIgnoringCase x.toList y.toList = true) xs ys := by
  rw [← List.forall₂_eq_eq_eq, List.forall₂_map_left_iff, List.forall₂_map_right_iff] at h
  refine h.imp fun x y same => ?_
  rw [eqIgnoringCase, beq_iff_eq, ← String.toList_asciiLower, same, String.toList_asciiLower]

/--
The case of ASCII letters never changes the meaning of a text. Two texts that differ in nothing else
stand for statements that differ in nothing else, which name the same objects; and they are both
expanded, to as many actions that differ in nothing else, or neither is.
-/
theorem sameButCase_of_eqIgnoringCase {s t : String}
    (h : eqIgnoringCase s.toList t.toList = true) :
    (Statement.ofText s).SameButCase (Statement.ofText t) ∧
      Option.Rel (List.Forall₂ fun a b => eqIgnoringCase a.toList b.toList = true)
        (Sql.expandActions? s) (Sql.expandActions? t) := by
  have same : s.asciiLower = t.asciiLower := congrArg String.ofList (beq_iff_eq.1 h)
  constructor
  · refine .of_asciiLower ?_
    rw [← Statement.ofText_asciiLower, same, Statement.ofText_asciiLower]
  · have actions : (Sql.expandActions? s).map (List.map String.asciiLower) =
        (Sql.expandActions? t).map (List.map String.asciiLower) := by
      rw [← Sql.expandActions?_asciiLower, same, Sql.expandActions?_asciiLower]
    cases first : Sql.expandActions? s with
    | none =>
      rw [first, Option.map_none, eq_comm, Option.map_eq_none_iff] at actions
      rw [actions]
      exact .none
    | some xs =>
      rw [first, Option.map_some, eq_comm, Option.map_eq_some_iff] at actions
      obtain ⟨ys, second, equal⟩ := actions
      rw [second]
      exact .some (forall₂_eqIgnoringCase equal.symm)

/-- The comment and the name between backticks differ in their letters as the key words do. -/
theorem sameButCase_of_eqIgnoringCase_mixed :
    let s := "Comment on Column `S`.T.a Is 'Größe: It''s';"
    let t := "COMMENT ON COLUMN `s`.t.A IS 'größe: it''S';"
    let chained := "alter table T add Column a Enum('x, Y'), drop B;"
    let chained' := "ALTER TABLE t ADD COLUMN A ENUM('X, y'), DROP b;"
    (eqIgnoringCase s.toList t.toList = true ∧
      Statement.ofText s = .commentOnColumn ⟨some "S", "T"⟩ "a" (some "Größe: It''s") ∧
      (Statement.ofText s).SameButCase (Statement.ofText t)) ∧
    eqIgnoringCase chained.toList chained'.toList = true ∧
      Sql.expandActions? chained =
        some ["alter table T add Column a Enum('x, Y');", "alter table T drop B;"] ∧
      Option.Rel (List.Forall₂ fun a b => eqIgnoringCase a.toList b.toList = true)
        (Sql.expandActions? chained) (Sql.expandActions? chained') := by
  intro s t chained chained'
  have same : eqIgnoringCase s.toList t.toList = true := by decide +kernel
  have same' : eqIgnoringCase chained.toList chained'.toList = true := by decide +kernel
  exact ⟨⟨same, by decide +kernel, (sameButCase_of_eqIgnoringCase same).1⟩, same',
    by decide +kernel, (sameButCase_of_eqIgnoringCase same').2⟩

end Rollback
