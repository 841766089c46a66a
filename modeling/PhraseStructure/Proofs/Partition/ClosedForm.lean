import PhraseStructure.Proofs.Partition.Listing

/-!
# The closed form counts the splits

A split into `groups` groups is a choice of `groups - 1` dividers, so a closed form for the
number of splits is a binomial coefficient.  Where it gives a number, this is the length of the
list of all splits.  It gives none if the last of its running products reaches the limit, and
it is a fault if the sizes cannot be added; with that its outcome is settled for all sizes.

The list of all splits has a length also where the closed form gives none, and a request for
more non-empty groups than elements has a number, zero, but no list.
-/

namespace PhraseStructure
namespace Splits

variable {α : Type _} {elements : List α} {count groups : Nat} {allowEmpty : Bool}

theorem count?_eq_zero (h : groups = 0 ∨ allowEmpty = false ∧ count = 0) :
    count? count groups allowEmpty = .ok (some 0) := by
  rcases h with rfl | ⟨rfl, rfl⟩
  · rfl
  · simp [count?]

/-- The only fault of the closed form is a sum that is no word. -/
theorem count?_eq_error_iff {fault : Fault} :
    count? count groups allowEmpty = .error fault ↔
      fault = .addition ∧ groups ≠ 0 ∧ allowEmpty = true ∧ wordLimit ≤ count + groups := by
  by_cases hzero : groups = 0 ∨ allowEmpty = false ∧ count = 0
  · rw [count?_eq_zero hzero]
    simp only [reduceCtorEq, false_iff]
    rintro ⟨-, hgroups, rfl, -⟩
    simp [hgroups] at hzero
  · rw [not_or, not_and] at hzero
    obtain ⟨hgroups, hcount⟩ := hzero
    by_cases hoverflow : allowEmpty = true ∧ wordLimit ≤ count + groups
    · obtain ⟨rfl, hsize⟩ := hoverflow
      rw [count?_of_overflow hgroups hsize]
      simp [hgroups, hsize, eq_comm]
    · rw [count?_eq_binomial? hgroups hcount hoverflow]
      simp only [reduceCtorEq, false_iff]
      exact fun hall => hoverflow hall.2.2

/-- A binomial coefficient that is given is right, and below the limit. -/
theorem lt_productLimit_of_binomial? {n k number : Nat} (h : binomial? n k = some number) :
    number < productLimit := by
  rw [binomial?_eq] at h
  split at h
  · cases h
    decide
  · rename_i hle
    split at h
    · rename_i hlimit
      cases h
      rcases Nat.eq_zero_or_pos (min k (n - k)) with hzero | hpos
      · have hend : k = 0 ∨ k = n := by omega
        rcases hend with rfl | rfl
        · rw [Nat.choose_zero_right]
          decide
        · rw [Nat.choose_self]
          decide
      · exact Nat.lt_of_le_of_lt (Nat.le_mul_of_pos_left _ hpos) hlimit
    · cases h

theorem list_eq_fault_iff {fault : Fault} :
    list elements groups allowEmpty = .error (.fault fault) ↔
      fault = .addition ∧ 1 < groups ∧ allowEmpty = true ∧
        wordLimit ≤ elements.length + groups := by
  cases hrefusal : refusal? elements.length groups allowEmpty with
  | some error =>
      rw [list_of_refusal? hrefusal]
      refine iff_of_false ?_ ?_
      · intro heq
        cases heq
        exact ne_fault_of_refusal? hrefusal fault rfl
      · rintro ⟨-, hgroups, rfl, -⟩
        rw [refusal?_of_allowEmpty (by omega)] at hrefusal
        cases hrefusal
  | none =>
      obtain ⟨splits, hsplits, _⟩ := exists_toList_all hrefusal
      have hgroups := (refusal?_eq_none_iff.mp hrefusal).1
      have hone : groups ≠ 1 ↔ 1 < groups := by omega
      rw [list_eq_of_toList hrefusal hsplits, ← hone]
      split
      · rename_i hoverflow
        simp [hoverflow, eq_comm]
      · rename_i hoverflow
        simp only [reduceCtorEq, false_iff]
        exact fun hall => hoverflow hall.2

theorem length_of_list {splits : List (List (List α))}
    (h : list elements groups allowEmpty = .ok splits) :
    splits.length = (choices elements.length groups allowEmpty).choose (groups - 1) := by
  cases hrefusal : refusal? elements.length groups allowEmpty with
  | some error =>
      rw [list_of_refusal? hrefusal] at h
      cases h
  | none =>
      obtain ⟨other, hother, _⟩ := exists_toList_all hrefusal
      rw [list_eq_of_toList hrefusal hother] at h
      split at h
      · cases h
      · cases h
        exact length_of_toList hrefusal hother

/-- The outcome of the closed form for all sizes.  It is zero for no groups and for non-empty
groups of no elements.  Otherwise it is a fault if the sizes are added and their sum is no word,
zero if there are fewer positions than dividers, the binomial coefficient if the last running
product is below the limit, and else nothing; so what it gives is right and below the limit.
The length of every list of splits is this binomial coefficient, and such a list has no fault
but the sum of the sizes, so its comparison with the closed form never fails. -/
theorem closed_form_counts_splits (count groups : Nat) (allowEmpty : Bool) :
    (groups = 0 ∨ allowEmpty = false ∧ count = 0 →
        count? count groups allowEmpty = .ok (some 0)) ∧
      (∀ fault, count? count groups allowEmpty = .error fault ↔
        fault = .addition ∧ groups ≠ 0 ∧ allowEmpty = true ∧ wordLimit ≤ count + groups) ∧
      (¬ (groups = 0 ∨ allowEmpty = false ∧ count = 0) →
        ¬ (allowEmpty = true ∧ wordLimit ≤ count + groups) →
          count? count groups allowEmpty = .ok
              (if choices count groups allowEmpty < groups - 1 then
                some 0
              else if min (groups - 1) (choices count groups allowEmpty - (groups - 1)) *
                  (choices count groups allowEmpty).choose (groups - 1) < productLimit then
                some ((choices count groups allowEmpty).choose (groups - 1))
              else
                none) ∧
            ∀ number, count? count groups allowEmpty = .ok (some number) →
              number = (choices count groups allowEmpty).choose (groups - 1) ∧
                number < productLimit) ∧
      ∀ {α : Type _} (elements : List α), elements.length = count →
        (∀ splits, list elements groups allowEmpty = .ok splits →
            splits.length = (choices count groups allowEmpty).choose (groups - 1)) ∧
          ∀ fault, list elements groups allowEmpty = .error (.fault fault) ↔
            fault = .addition ∧ 1 < groups ∧ allowEmpty = true ∧ wordLimit ≤ count + groups := by
  refine ⟨count?_eq_zero, fun fault => count?_eq_error_iff, ?_, ?_⟩
  · intro hzero hoverflow
    rw [not_or, not_and] at hzero
    rw [count?_eq_binomial? hzero.1 hzero.2 hoverflow, ← binomial?_eq]
    refine ⟨rfl, ?_⟩
    intro number hnumber
    have hbinomial := Except.ok.inj hnumber
    exact ⟨binomial?_eq_some hbinomial, lt_productLimit_of_binomial? hbinomial⟩
  · rintro α elements rfl
    exact ⟨fun splits => length_of_list, fun fault => list_eq_fault_iff⟩

/-- No groups, sizes whose sum is the first number that is no word, and three elements in two
groups. -/
theorem closed_form_counts_splits_limits :
    count? 3 0 true = .ok (some 0) ∧
      count? (wordLimit - 1) 1 true = .error .addition ∧
      count? 3 2 true = .ok (some 4) ∧
      (∀ splits, list ['a', 'b', 'c'] 2 true = .ok splits → splits.length = 4) ∧
      ∀ fault, list ['a', 'b', 'c'] 2 true ≠ .error (.fault fault) := by
  obtain ⟨hzero, _⟩ := closed_form_counts_splits 3 0 true
  obtain ⟨_, hfault, _⟩ := closed_form_counts_splits (wordLimit - 1) 1 true
  obtain ⟨_, _, hgiven, hlist⟩ := closed_form_counts_splits 3 2 true
  obtain ⟨hlength, hlistFault⟩ := hlist ['a', 'b', 'c'] rfl
  refine ⟨hzero (by decide), (hfault .addition).mpr (by decide), ?_, hlength, ?_⟩
  · exact (hgiven (by decide) (by decide)).1
  · intro fault hfault
    exact absurd ((hlistFault fault).mp hfault).2.2.2 (by decide)

-- The last running product is three times the number of these splits, which is below the limit.
example : count? 10000000000001 4 false = .ok none := by decide

end Splits
end PhraseStructure
