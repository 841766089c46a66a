import PhraseStructure.Proofs.Grammar.Nullable
import PhraseStructure.Proofs.Partition.Enumeration
import PhraseStructure.TopDown

/-!
# Early rejection is sound

A form is rejected before any split is tried when it is too long for the part, or
when its leading terminals, its trailing terminals or the numbers of its terminals
do not fit.  No form that yields the part is rejected.

The length test relies on the recognizer's list of nullable tokens.  A list with too
many tokens would only reject less; one that misses a nullable token would reject
forms that match.
-/

namespace PhraseStructure
namespace TopDown

variable {recognizer : TopDown} {height : Nat} {form part : Phrase}

/-- A recognizer that allows empty groups knows the nullable tokens of its
grammar. -/
def KnowsNullable (recognizer : TopDown) : Prop :=
  recognizer.allowEmpty = true → recognizer.nullable = recognizer.grammar.nullable

theorem knowsNullable_general (grammar : Grammar) : (general grammar).KnowsNullable :=
  fun _ => rfl

theorem knowsNullable_epsilonFree (grammar : Grammar) : (epsilonFree grammar).KnowsNullable :=
  fun hfalse => nomatch hfalse

theorem knowsNullable_of_mem {variant : Grammar → TopDown}
    (hvariant : variant ∈ [general, epsilonFree]) (grammar : Grammar) :
    (variant grammar).KnowsNullable := by
  rcases List.mem_pair.mp hvariant with rfl | rfl
  · exact knowsNullable_general grammar
  · exact knowsNullable_epsilonFree grammar

/-- A token that is not nullable accounts for a token of the yield. -/
theorem countP_le_length {grammar : Grammar} (h : Yields grammar true height form part) :
    (form.countP fun token => !grammar.nullable.contains token) ≤ part.length := by
  induction h with
  | nil => exact Nat.le_refl _
  | keep _ _ ih =>
      rw [List.countP_cons, List.length_cons]
      split <;> omega
  | @expand height token _ _ part _ hproduction hinner _ _ ih =>
      rw [List.countP_cons, List.length_append]
      split
      · rename_i hnot
        -- An empty part would make the token nullable.
        have hpart : part ≠ [] := by
          rintro rfl
          have hmem := Grammar.mem_nullable_iff.mpr
            ⟨height + 1, Yields.of_production hproduction hinner⟩
          simp [hmem] at hnot
        have hpos := List.length_pos_iff.mpr hpart
        omega
      · omega

theorem leastLength_le (hknows : recognizer.KnowsNullable)
    (h : Yields recognizer.grammar recognizer.allowEmpty height form part) :
    recognizer.leastLength form ≤ part.length := by
  unfold leastLength
  cases hempty : recognizer.allowEmpty with
  | true =>
      rw [hempty] at h
      rw [hknows hempty]
      exact countP_le_length h
  | false =>
      rw [hempty] at h
      exact h.length_le

theorem startsWith_leading
    (h : Yields recognizer.grammar recognizer.allowEmpty height form part) :
    part.startsWith (recognizer.leading form) = true := by
  have hword : recognizer.grammar.IsWord (recognizer.leading form) :=
    fun token htoken => List.all_eq_true.mp List.all_takeWhile token htoken
  rw [← List.takeWhile_append_dropWhile (p := recognizer.grammar.isTerminal) (l := form)] at h
  obtain ⟨first, second, rfl, hfirst, _⟩ := h.exists_of_append
  rw [hfirst.eq_of_isWord hword]
  exact List.isPrefixOf_iff_prefix.mpr (List.prefix_append _ _)

theorem endsWith_trailing
    (h : Yields recognizer.grammar recognizer.allowEmpty height form part) :
    part.endsWith (recognizer.trailing form) = true := by
  have hword : recognizer.grammar.IsWord (recognizer.trailing form) := by
    intro token htoken
    exact List.all_eq_true.mp List.all_takeWhile token (List.mem_reverse.mp htoken)
  have hform : (form.reverse.dropWhile recognizer.grammar.isTerminal).reverse ++
      recognizer.trailing form = form := by
    rw [trailing, ← List.reverse_append, List.takeWhile_append_dropWhile, List.reverse_reverse]
  rw [← hform] at h
  obtain ⟨first, second, rfl, _, hsecond⟩ := h.exists_of_append
  rw [hsecond.eq_of_isWord hword]
  exact List.isSuffixOf_iff_suffix.mpr (List.suffix_append _ _)

theorem affords_of_yields
    (h : Yields recognizer.grammar recognizer.allowEmpty height form part) :
    recognizer.affords form part = true := by
  refine List.all_eq_true.mpr fun token _ => ?_
  cases hterminal : recognizer.grammar.isTerminal token with
  | false => rfl
  | true => simpa [hterminal] using h.count_le hterminal

/-- A form that yields the part is not rejected. -/
theorem rejects_eq_false (hknows : recognizer.KnowsNullable)
    (h : Yields recognizer.grammar recognizer.allowEmpty height form part) :
    recognizer.rejects form part = false := by
  have hlength : ¬ part.length < recognizer.leastLength form :=
    Nat.not_lt.mpr (leastLength_le hknows h)
  simp [rejects, hlength, startsWith_leading h, endsWith_trailing h, affords_of_yields h]

/-- Without empty groups a form of some tokens does not match the empty part. -/
theorem rejects_nil (hempty : recognizer.allowEmpty = false) (hform : form ≠ []) :
    recognizer.rejects form [] = true := by
  have hlength : 0 < form.length := List.length_pos_iff.mpr hform
  simp [rejects, leastLength, hempty, hlength]

/-- A form that is not rejected has splits of the part to be tried. -/
theorem refusal?_eq_none (hform : form ≠ []) (h : recognizer.rejects form part = false) :
    Splits.refusal? part.length form.length recognizer.allowEmpty = none := by
  simp only [rejects, Bool.or_eq_false_iff, decide_eq_false_iff_not, Nat.not_lt] at h
  have hlength := h.1.1.1
  refine Splits.refusal?_eq_none_iff.mpr ⟨fun hzero => hform (List.length_eq_zero_iff.mp hzero), ?_⟩
  intro hfalse
  simpa [leastLength, hfalse] using hlength

end TopDown
end PhraseStructure
