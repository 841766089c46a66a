import PhraseStructure.Proofs.Partition.Enumeration

/-!
# Divider lists and splits determine each other

A divider list cuts a sequence exactly if its dividers never fall and none passes the end of the
sequence.  Dividers may be repeated, may be zero and may stand at the end; the groups there are
empty.  The groups of a cut end at the dividers and together are the sequence, and a
concatenation of groups that is cut where its groups end gives the groups back.  So for one
sequence and one number of groups cutting is a bijection, and a list of all divider lists is a
list of all splits.

`Dividers.ends` leaves out the end of the last group.  That position is the length of the
sequence and no divider.
-/

namespace PhraseStructure
namespace Dividers

variable {α : Type _} {maximum : Nat} {allowEmpty : Bool}

theorem le_of_lowest_le {base divider : Nat} (h : lowest allowEmpty base ≤ divider) :
    base ≤ divider := by
  cases allowEmpty with
  | true => exact h
  | false => exact Nat.le_of_succ_le h

/-- A divider list is valid if its dividers are in order and within bounds. -/
theorem valid_iff {base : Nat} {dividers : List Nat} :
    Valid maximum allowEmpty base dividers ↔
      (dividers.Pairwise fun earlier later => lowest allowEmpty earlier ≤ later) ∧
        ∀ divider ∈ dividers, lowest allowEmpty base ≤ divider ∧ divider ≤ maximum := by
  induction dividers generalizing base with
  | nil => simp [Valid]
  | cons divider rest ih =>
      rw [Valid, ih, List.pairwise_cons, List.forall_mem_cons]
      constructor
      · rintro ⟨hlow, hhigh, hrest, hbounds⟩
        refine ⟨⟨fun later hlater => (hbounds later hlater).1, hrest⟩, ⟨hlow, hhigh⟩, ?_⟩
        intro later hlater
        obtain ⟨hbehind, hlater'⟩ := hbounds later hlater
        have hmiddle := le_of_lowest_le hbehind
        exact ⟨Nat.le_trans hlow hmiddle, hlater'⟩
      · rintro ⟨⟨hbehind, hrest⟩, ⟨hlow, hhigh⟩, hbounds⟩
        refine ⟨hlow, hhigh, hrest, ?_⟩
        exact fun later hlater => ⟨hbehind later hlater, (hbounds later hlater).2⟩

/-- A divider list that is not valid cuts nothing; the fault names it and the number of
elements. -/
theorem cutFrom_of_not_valid {whole : List Nat} {count start : Nat} {dividers : List Nat}
    (elements : List α) (h : ¬ Valid count true start dividers) :
    cutFrom whole count start dividers elements = .error (.dividers whole count) := by
  induction dividers generalizing start elements with
  | nil => exact absurd trivial h
  | cons stop rest ih =>
      rw [cutFrom]
      split
      · rename_i hbounds
        have hrest : ¬ Valid count true stop rest := fun hrest => h ⟨hbounds.1, hbounds.2, hrest⟩
        rw [ih _ hrest]
        rfl
      · rfl

/-- A divider list that falls somewhere, or passes the end, does not cut.  Any other one cuts a
sequence into one group more than there are dividers; the groups together are the sequence and
end at the dividers.  Conversely, groups are what their concatenation is cut into where they
end. -/
theorem cut_inverse_of_ends :
    (∀ (elements : List α) (dividers : List Nat),
      (¬ (dividers.Pairwise (· ≤ ·) ∧ ∀ divider ∈ dividers, divider ≤ elements.length) →
        cut elements dividers = .error (.dividers dividers elements.length)) ∧
      (dividers.Pairwise (· ≤ ·) ∧ (∀ divider ∈ dividers, divider ≤ elements.length) →
        ∃ groups, cut elements dividers = .ok groups ∧ groups.length = dividers.length + 1 ∧
          groups.flatten = elements ∧ ends 0 groups = dividers)) ∧
      ∀ groups : List (List α), groups ≠ [] →
        cut groups.flatten (ends 0 groups) = .ok groups := by
  refine ⟨fun elements dividers => ?_, fun groups hne => ?_⟩
  · have hvalid : Valid elements.length true 0 dividers ↔
        dividers.Pairwise (· ≤ ·) ∧ ∀ divider ∈ dividers, divider ≤ elements.length := by
      simp [valid_iff, lowest]
    rw [← hvalid]
    refine ⟨cutFrom_of_not_valid elements, fun h => ?_⟩
    obtain ⟨groups, hgroups⟩ := exists_cutFrom elements (Nat.le_refl _) h
    obtain ⟨hne, hflatten, hends⟩ := of_cutFrom (Nat.zero_add _) hgroups
    refine ⟨groups, hgroups, ?_, hflatten, hends⟩
    rw [← hends, length_ends 0 hne]
  · exact cutFrom_ends _ hne (Nat.zero_add _)

/-- Dividers that are repeated, zero or at the end cut, and falling ones do not. -/
theorem cut_inverse_of_ends_repeated :
    cut ['a', 'b'] [2, 1] = .error (.dividers [2, 1] 2) ∧
      (∃ groups, cut ['a', 'b'] [0, 2, 2] = .ok groups ∧ groups.length = 4 ∧
        groups.flatten = ['a', 'b'] ∧ ends 0 groups = [0, 2, 2]) ∧
      cut [[], ['a'], [], ['b']].flatten (ends 0 [[], ['a'], [], ['b']]) =
        .ok [[], ['a'], [], ['b']] := by
  obtain ⟨hcuts, hends⟩ := cut_inverse_of_ends (α := Char)
  exact ⟨(hcuts ['a', 'b'] [2, 1]).1 (by decide), (hcuts ['a', 'b'] [0, 2, 2]).2 (by decide),
    hends _ (List.cons_ne_nil _ _)⟩

end Dividers
end PhraseStructure
