import Rollback.Proofs.Text.Words
import Rollback.Sql.Name

/-!
# Texts without dots

A dot separates the parts of a name. Neither trimming nor lower case puts a dot into a text, so the
last dot of a key is the one between the schema and the name.

- `dot_notMem_lower`: lower case introduces no dot
- `eq_of_dotted_eq`: a text with a last dot has one reading
- `ObjectName.dot_notMem_name_ofChars`: a name that is read holds no dot
-/

set_option autoImplicit false

namespace Rollback

namespace Text

/-! ## Parts of a text -/

theorem mem_of_mem_dropEndWhile {α : Type} {p : α → Bool} {x : α} {xs : List α}
    (h : x ∈ dropEndWhile p xs) : x ∈ xs := by
  rw [dropEndWhile, List.mem_reverse] at h
  exact List.mem_reverse.1 ((List.dropWhile_sublist p).subset h)

theorem mem_of_mem_dropAround {α : Type} {p : α → Bool} {x : α} {xs : List α}
    (h : x ∈ dropAround p xs) : x ∈ xs :=
  (List.dropWhile_sublist p).subset (mem_of_mem_dropEndWhile h)

theorem mem_of_mem_trim {c : Char} {s : List Char} (h : c ∈ trim s) : c ∈ s :=
  (List.dropWhile_sublist isBlank).subset (mem_of_mem_dropEndWhile h)

/-- Taking quotes away adds no characters. -/
theorem mem_of_mem_unquote {c : Char} {s : List Char} (h : c ∈ unquote s) : c ∈ s :=
  mem_of_mem_trim (mem_of_mem_dropAround h)

/-- The step of `separator_notMem_pieces`, with the piece that is read so far. -/
theorem separator_notMem_piecesFrom (separator : Char) (s : List Char) :
    ∀ piece : List Char, separator ∉ piece → ∀ part ∈ piecesFrom separator piece s,
      separator ∉ part := by
  induction s with
  | nil =>
    intro piece clean part hpart
    rw [piecesFrom, List.mem_singleton] at hpart
    simpa [hpart] using clean
  | cons c rest ih =>
    intro piece clean part hpart
    rw [piecesFrom] at hpart
    split at hpart
    · rcases List.mem_cons.1 hpart with hpart | hpart
      · simpa [hpart] using clean
      · exact ih [] List.not_mem_nil part hpart
    · rename_i other
      refine ih (c :: piece) ?_ part hpart
      intro mem
      rcases List.mem_cons.1 mem with rfl | mem
      · exact other (beq_self_eq_true _)
      · exact clean mem

/-- The pieces of a text do not have its separator. -/
theorem separator_notMem_pieces {separator : Char} {s part : List Char}
    (h : part ∈ pieces separator s) : separator ∉ part :=
  separator_notMem_piecesFrom separator s [] List.not_mem_nil part h

/-- Around its last dot a text is cut in one way only. -/
theorem eq_of_dotted_eq {a b x y : List Char} (h : a ++ '.' :: x = b ++ '.' :: y)
    (hx : '.' ∉ x) (hy : '.' ∉ y) : a = b ∧ x = y := by
  -- One of the first parts starts with the other; what it has more would hold the other dot.
  rcases List.append_eq_append_iff.1 h with ⟨as, hb, hx'⟩ | ⟨bs, ha, hy'⟩
  · cases as with
    | nil => simp_all
    | cons c as => exact absurd (by simp_all) hx
  · cases bs with
    | nil => simp_all
    | cons c bs => exact absurd (by simp_all) hy

/-! ## Lower case -/

set_option maxRecDepth 4000 in
/-- No run of code points is mapped to the dot. -/
theorem above_dot_of_mem_lowerRuns {run : CaseRun} (h : run ∈ lowerRuns) :
    (46 : Int) < run.first + run.delta := by
  have all : lowerRuns.all (fun run => (46 : Int) < run.first + run.delta) = true := by rfl
  simpa using List.all_eq_true.1 all run h

/-- No other character than the dot has a dot in its lower case. -/
theorem dot_notMem_caseImage_lower {n : Nat} (h : n ≠ 46) :
    46 ∉ caseImage lowerRuns lowerExpansions n := by
  have expansions : lowerExpansions.all (fun e => !e.2.contains 46) = true := by decide
  rw [caseImage]
  split
  · rename_i images found
    obtain ⟨before, after, split, -⟩ := List.lookup_eq_some_iff.1 found
    have mem : (n, images) ∈ lowerExpansions := by simp [split]
    simpa using List.all_eq_true.1 expansions _ mem
  · rw [List.mem_singleton]
    intro dot
    cases found : lowerRuns.findSome? (·.map? n) with
    | none => exact h (by simpa [found] using dot.symm)
    | some m =>
      obtain ⟨run, mem, image⟩ := List.exists_of_findSome?_eq_some found
      have above := above_dot_of_mem_lowerRuns mem
      rw [CaseRun.map?] at image
      split at image
      · rename_i inside
        simp only [Bool.and_eq_true, decide_eq_true_eq] at inside
        have value : Int.toNat (n + run.delta) = 46 := by
          rw [Option.some.inj image, dot, found]
          rfl
        omega
      · exact absurd image (by simp)

/-- Only one number stands for the dot. -/
theorem eq_dot_code_of_ofNat_eq {n : Nat} (h : Char.ofNat n = '.') : n = 46 := by
  by_cases valid : n.isValidChar
  · have char : Char.ofNat n = Char.ofNatAux n valid := dif_pos valid
    exact congrArg Char.toNat (char.symm.trans h)
  · have char : Char.ofNat n = Char.ofNat 0 := dif_neg valid
    exact absurd (char.symm.trans h) (by decide)

theorem dot_notMem_lowerChar {c : Char} (h : c ≠ '.') : '.' ∉ lowerChar c := by
  rw [lowerChar]
  split
  · rename_i ascii
    have clean : c ≠ '.' → '.' ∉ [c.toLower] :=
      forall_ascii (p := fun c => c ≠ '.' → '.' ∉ [c.toLower]) (by decide) ascii
    exact clean h
  · intro dot
    obtain ⟨m, mem, image⟩ := List.mem_map.1 dot
    have code : c.toNat ≠ 46 := fun eq => h (Char.toNat_inj.1 eq)
    exact dot_notMem_caseImage_lower code (eq_dot_code_of_ofNat_eq image ▸ mem)

/-- Lower case of a text without dots has no dots, whatever stands before it. -/
theorem dot_notMem_lowerFrom {s : List Char} :
    ∀ before : List Char, '.' ∉ s → '.' ∉ lowerFrom before s := by
  induction s with
  | nil => intro before h; exact List.not_mem_nil
  | cons c rest ih =>
    intro before h
    rw [List.mem_cons, not_or] at h
    rw [lowerFrom, List.mem_append, not_or]
    refine ⟨?_, ih _ h.2⟩
    split
    · split <;> decide
    · exact dot_notMem_lowerChar (Ne.symm h.1)

/-- Lower case introduces no dot. -/
theorem dot_notMem_lower {s : List Char} (h : '.' ∉ s) : '.' ∉ lower s :=
  dot_notMem_lowerFrom [] h

end Text

/-! ## Names -/

namespace ObjectName

/-- What holds of all parts of a name holds of its last one, which is the name without its
schema. -/
theorem name_ofParts {p : String → Prop} (empty : p "") :
    ∀ parts : List String, (∀ part ∈ parts, p part) → p (ofParts parts).name
  | [], _ => empty
  | [_], h => h _ List.mem_cons_self
  | [_, _], h => h _ (List.mem_cons_of_mem _ List.mem_cons_self)
  | _ :: b :: c :: rest, h =>
    name_ofParts empty (b :: c :: rest) fun part mem => h part (List.mem_cons_of_mem _ mem)

/-- A name that is read holds no dot. -/
theorem dot_notMem_name_ofChars (raw : List Char) : '.' ∉ (ofChars raw).name.toList := by
  refine name_ofParts (p := fun name => '.' ∉ name.toList) (by simp) _ ?_
  intro part mem
  obtain ⟨piece, hpiece, rfl⟩ := List.mem_map.1 mem
  rw [String.toList_ofList]
  exact fun dot => Text.separator_notMem_pieces hpiece (Text.mem_of_mem_unquote dot)

end ObjectName

end Rollback
