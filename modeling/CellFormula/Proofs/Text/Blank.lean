import CellFormula.Proofs.Lists
import CellFormula.Text.Blank
import Mathlib
/-!
# Blanks

Letters and digits are no blanks. A text is cut into its leading blanks and a rest, and trimming takes
away a text that is all blank and leaves a text as it is that neither starts nor ends with a blank.
-/

namespace CellFormula

/-! ## Characters that are no blanks -/

theorem isBlank_eq_false_of_isAlphanum {c : Char} (hc : c.isAlphanum = true) :
    Text.isBlank c = false := by
  have hrange : 48 ≤ c.toNat ∧ c.toNat ≤ 122 := by
    simp [Char.isAlphanum, Char.isAlpha, Char.isUpper, Char.isLower, Char.isDigit,
      UInt32.le_iff_toNat_le] at hc
    omega
  simp [Text.isBlank]
  omega

theorem isBlank_eq_false_of_isDigit {c : Char} (hc : c.isDigit = true) : Text.isBlank c = false :=
  isBlank_eq_false_of_isAlphanum (by simp [Char.isAlphanum, hc])

theorem isBlank_eq_false_of_isAlpha {c : Char} (hc : c.isAlpha = true) : Text.isBlank c = false :=
  isBlank_eq_false_of_isAlphanum (by simp [Char.isAlphanum, hc])

/-! ## Leading blanks -/

/-- The characters are all blanks. -/
def AllBlank (cs : List Char) : Prop :=
  ∀ c ∈ cs, Text.isBlank c = true

theorem eq_nil_of_allBlank {blanks : List Char} (h : AllBlank blanks)
    (hnone : ∀ c ∈ blanks, Text.isBlank c = false) : blanks = [] := by
  refine List.eq_nil_iff_forall_not_mem.2 fun c hc => ?_
  cases (h c hc).symm.trans (hnone c hc)

/-- Blanks and a rest that does not start with one. -/
theorem exists_blanks (cs : List Char) : ∃ blanks rest, cs = blanks ++ rest ∧ AllBlank blanks ∧
    ∀ c ∈ rest.head?, Text.isBlank c = false := by
  refine ⟨cs.takeWhile Text.isBlank, cs.dropWhile Text.isBlank,
    List.takeWhile_append_dropWhile.symm, fun c hc => List.mem_takeWhile_imp hc, fun c hc => ?_⟩
  have hhead := List.head?_dropWhile_not Text.isBlank cs
  rwa [Option.mem_def.1 hc] at hhead

/-! ## Trimming -/

namespace Text

theorem trimChars_eq_nil {cs : List Char} : trimChars cs = [] ↔ AllBlank cs := by
  obtain ⟨blanks, rest, rfl, hblanks, hrest⟩ := exists_blanks cs
  rw [trimChars, (span_append hblanks hrest).2, List.reverse_eq_nil_iff, List.dropWhile_eq_nil_iff]
  constructor
  · intro h
    exact List.forall_mem_append.2 ⟨hblanks, fun c hc => h c (List.mem_reverse.2 hc)⟩
  · intro h c hc
    exact h c (List.mem_append_right _ (List.mem_reverse.1 hc))

theorem trimChars_eq_self {cs : List Char} (hfirst : ∀ c ∈ cs.head?, isBlank c = false)
    (hlast : ∀ c ∈ cs.getLast?, isBlank c = false) : trimChars cs = cs := by
  have hself : ∀ {cs : List Char}, (∀ c ∈ cs.head?, isBlank c = false) → cs.dropWhile isBlank = cs :=
    fun {cs} hcs => (@span_append _ isBlank [] cs nofun hcs).2
  rw [trimChars, hself hfirst, hself (by rwa [List.head?_reverse]), List.reverse_reverse]

theorem trim_of_no_blank {text : String} (h : ∀ c ∈ text.toList, isBlank c = false) :
    trim text = text := by
  rw [trim, trimChars_eq_self (fun c hc => h c (List.mem_of_mem_head? hc))
    (fun c hc => h c (List.mem_of_mem_getLast? hc)), String.ofList_toList]

/-- A character that is no blank stays in front. -/
theorem exists_trimChars_cons {c : Char} (hc : isBlank c = false) (cs : List Char) :
    ∃ cs', trimChars (c :: cs) = c :: cs' := by
  rw [trimChars, List.dropWhile_cons_of_neg (by simp [hc]), List.reverse_cons, List.dropWhile_append]
  split
  · exact ⟨[], by rw [List.dropWhile_cons_of_neg (by simp [hc])]; rfl⟩
  · exact ⟨_, List.reverse_concat ..⟩

end Text

end CellFormula
