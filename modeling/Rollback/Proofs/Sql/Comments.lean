import Rollback.Proofs.Lists
import Rollback.Proofs.Sql.Scripts
import Rollback.Proofs.Text.Pairs

/-!
# Texts inside comments

A block comment around a text is one comment and nothing else exactly if the text has no slash right
after a star. Then it holds no statement.

- `IsSingleComment`: a text that is one block comment
- `isSingleComment_iff`: when a block comment around a text is one
-/

set_option autoImplicit false

namespace Rollback

open Text

namespace Sql

/-- The text is one block comment and nothing else. -/
def IsSingleComment (text : List Char) : Prop :=
  lex .code text = ([.blockEnd], .code)

instance (text : List Char) : Decidable (IsSingleComment text) :=
  inferInstanceAs (Decidable (_ = _))

/-- Only the empty text is read from and to plain code without leaving anything. -/
theorem eq_nil_of_lex_eq {mode : Mode} {s : List Char} (h : lex mode s = ([], .code)) :
    mode = .code ∧ s = [] := by
  induction mode, s using lex.induct with
  | case1 mode =>
    rw [lex] at h
    exact ⟨(Prod.mk.inj h).2, rfl⟩
  | case2 rest ih =>
    rw [lex] at h
    exact absurd (ih h).1 (by decide)
  | case3 rest ih =>
    rw [lex] at h
    exact absurd (ih h).1 (by decide)
  | case4 c rest slash dash opens after mode =>
    rw [lex_code_quote opens] at h
    exact absurd (Prod.mk.inj h).1 (by simp)
  | case5 c rest slash dash plain after mode =>
    rw [lex_code_cons (Bool.eq_false_iff.2 plain)
      (fun eq => head?_ne_of_forall fun more => slash more eq)
      (fun eq => head?_ne_of_forall fun more => dash more eq)] at h
    exact absurd (Prod.mk.inj h).1 (by simp)
  | case6 quote escaping c rest after mode =>
    rw [lex_literal_cons] at h
    exact absurd (Prod.mk.inj h).1 (by simp)
  | case7 rest after mode =>
    rw [lex] at h
    exact absurd (Prod.mk.inj h).1 (by simp)
  | case8 c rest notEnd ih =>
    rw [lex] at h
    · exact absurd (ih h).1 (by decide)
    · exact notEnd
  | case9 c rest lineEnd after mode =>
    rw [lex, if_pos lineEnd] at h
    exact absurd (Prod.mk.inj h).1 (by simp)
  | case10 c rest other ih =>
    rw [lex, if_neg other] at h
    exact absurd (ih h).1 (by decide)

/-- Between the marks of a block comment, a text ends the comment itself if it has a slash right
after a star. -/
theorem lex_blockComment_iff (text : List Char) :
    lex .blockComment (text ++ [' ', '*', '/']) = ([.blockEnd], .code) ↔
      LacksPair '*' '/' text := by
  induction text with
  | nil => exact ⟨fun _ => List.IsChain.nil, fun _ => rfl⟩
  | cons c text ih =>
    rw [lacksPair_cons]
    by_cases ends : c = '*' ∧ text.head? = some '/'
    · obtain ⟨rfl, slash⟩ := ends
      obtain ⟨more, rfl⟩ := List.head?_eq_some_iff.1 slash
      refine ⟨fun h => ?_, fun h => absurd slash (h.1 rfl)⟩
      have left : lex .code (more ++ [' ', '*', '/']) = ([], .code) := by
        have step : lex .blockComment ('*' :: '/' :: more ++ [' ', '*', '/']) =
            (.blockEnd :: (lex .code (more ++ [' ', '*', '/'])).1,
              (lex .code (more ++ [' ', '*', '/'])).2) := by
          rw [List.cons_append, List.cons_append, lex]
        rw [step] at h
        obtain ⟨nothing, code⟩ := Prod.mk.inj h
        exact Prod.ext (List.cons_eq_cons.1 nothing).2 code
      exact absurd (eq_nil_of_lex_eq left).2 (by simp)
    · have step : lex .blockComment (c :: text ++ [' ', '*', '/']) =
          lex .blockComment (text ++ [' ', '*', '/']) := by
        refine lex_blockComment_cons fun star slash => ends ⟨star, ?_⟩
        cases text with
        | nil => exact absurd slash (by decide)
        | cons d text => exact slash
      rw [step, ih]
      exact ⟨fun h => ⟨fun star slash => ends ⟨star, slash⟩, h⟩, fun h => h.2⟩

/-- So a softened text does not end the comment, whatever it was before. -/
theorem lacksPair_softenChars (text : List Char) : LacksPair '*' '/' (softenChars text) := by
  rw [← lex_blockComment_iff, lex_softenChars _ _ (by decide)]
  rfl

theorem toList_blockComment (text : String) :
    (blockComment text).toList = '/' :: '*' :: ' ' :: (text.toList ++ [' ', '*', '/']) := by
  simp [blockComment]

/-- A block comment around a text is one comment exactly if the text does not end it. -/
theorem isSingleComment_iff (text : String) :
    IsSingleComment (blockComment text).toList ↔ LacksPair '*' '/' text.toList := by
  have start : lex .code (blockComment text).toList =
      lex .blockComment (' ' :: text.toList ++ [' ', '*', '/']) := by
    rw [toList_blockComment, lex, List.cons_append]
  rw [IsSingleComment, start, lex_blockComment_iff, lacksPair_cons]
  exact and_iff_right fun eq => absurd eq (by decide)

/-- A block comment holds no statement. -/
theorem statementTexts_of_isSingleComment {text : List Char} (h : IsSingleComment text) :
    statementTexts text = [] := by
  have all : lexemes text = [.blockEnd] := congrArg Prod.fst h
  rw [statementTexts, all]
  rfl

end Sql

end Rollback
