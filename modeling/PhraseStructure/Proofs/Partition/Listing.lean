import PhraseStructure.Proofs.Partition.Counting
import PhraseStructure.Proofs.Partition.Enumeration

/-!
# The list of all splits

A request that is not refused has one list of splits: each split once, in strictly
increasing order of the divider lists.  `Splits.list` returns it, and asking for the
next split again and again gives its entries one by one and then nothing.

`Splits.list` compares the length of its list with the closed form.  The comparison never
fails.  The closed form may give nothing for a list that is too long; then nothing is compared.
It is a fault if the sizes have to be added and their sum is no 64-bit word.
-/

namespace PhraseStructure
namespace Splits

variable {α : Type _} {elements : List α} {groups : Nat} {allowEmpty : Bool}

/-! ### One refusal or one list -/

theorem exists_refusal? {count : Nat}
    (h : groups = 0 ∨ allowEmpty = false ∧ count < groups) :
    ∃ error, refusal? count groups allowEmpty = some error := by
  cases hrefusal : refusal? count groups allowEmpty with
  | some error => exact ⟨error, rfl⟩
  | none =>
      obtain ⟨hgroups, hcount⟩ := refusal?_eq_none_iff.mp hrefusal
      rcases h with hzero | ⟨hfalse, hfew⟩
      · exact absurd hzero hgroups
      · exact absurd (hcount hfalse) (Nat.not_le.mpr hfew)

theorem refusal?_eq_none_of_not {count : Nat}
    (h : ¬ (groups = 0 ∨ allowEmpty = false ∧ count < groups)) :
    refusal? count groups allowEmpty = none := by
  rw [not_or, not_and, Nat.not_lt] at h
  exact refusal?_eq_none_iff.mpr h

/-- What is refused is not a fault. -/
theorem ne_fault_of_refusal? {count : Nat} {error : SplitError}
    (h : refusal? count groups allowEmpty = some error) (fault : Fault) :
    error ≠ .fault fault := by
  rintro rfl
  unfold refusal? at h
  split at h
  · cases h
  · split at h
    · cases h
    · split at h <;> cases h

theorem make_of_refusal? {error : SplitError}
    (h : refusal? elements.length groups allowEmpty = some error) :
    make elements groups allowEmpty = .error error := by
  simp only [make, h]

theorem make_of_refusal?_eq_none (h : refusal? elements.length groups allowEmpty = none) :
    make elements groups allowEmpty = .ok (all elements groups allowEmpty) := by
  simp only [make, h]

theorem list_of_refusal? {error : SplitError}
    (h : refusal? elements.length groups allowEmpty = some error) :
    list elements groups allowEmpty = .error error := by
  rw [list, make_of_refusal? h]
  rfl

/-! ### Order -/

/-- The divider lists of the splits, in the order of the splits. -/
theorem map_ends_of_toList {splits : List (List (List α))}
    (h : refusal? elements.length groups allowEmpty = none)
    (hsplits : (all elements groups allowEmpty).toList = .ok splits) :
    splits.map (Dividers.ends 0) =
      Dividers.onward (Dividers.greatest elements.length allowEmpty) allowEmpty
        (Dividers.first groups allowEmpty) := by
  obtain ⟨other, hother, hmap, _⟩ := exists_toList (Dividers.greatest_le ..) (valid_first h)
  have hsame : (all elements groups allowEmpty).toList = .ok other := hother
  rw [hsplits] at hsame
  cases hsame
  exact hmap

/-- One split comes before another in the order of their divider lists. -/
def Precedes (earlier later : List (List α)) : Prop :=
  List.Lex (· < ·) (Dividers.ends 0 earlier) (Dividers.ends 0 later)

theorem pairwise_of_toList {splits : List (List (List α))}
    (h : refusal? elements.length groups allowEmpty = none)
    (hsplits : (all elements groups allowEmpty).toList = .ok splits) :
    splits.Pairwise Precedes := by
  have hpairwise := Dividers.pairwise_onward (Dividers.greatest elements.length allowEmpty)
    allowEmpty (Dividers.first groups allowEmpty)
  rw [← map_ends_of_toList h hsplits, List.pairwise_map] at hpairwise
  exact hpairwise

theorem nodup_of_pairwise {splits : List (List (List α))} (h : splits.Pairwise Precedes) :
    splits.Nodup := by
  refine h.imp ?_
  rintro earlier later hlex rfl
  exact List.lex_irrefl Nat.lt_irrefl _ hlex

/-! ### Number -/

/-- The number of positions from which the dividers of a split are chosen. -/
def choices (count groups : Nat) (allowEmpty : Bool) : Nat :=
  if allowEmpty then count + groups - 1 else count - 1

theorem ways_greatest {count : Nat} (hgroups : groups ≠ 0) :
    Dividers.ways allowEmpty (Dividers.greatest count allowEmpty) (groups - 1) =
      (choices count groups allowEmpty).choose (groups - 1) := by
  cases allowEmpty with
  | true =>
      show (count + (groups - 1)).choose (groups - 1) = (count + groups - 1).choose (groups - 1)
      rw [Nat.add_sub_assoc (Nat.one_le_iff_ne_zero.mpr hgroups)]
  | false => rfl

theorem length_of_toList {splits : List (List (List α))}
    (h : refusal? elements.length groups allowEmpty = none)
    (hsplits : (all elements groups allowEmpty).toList = .ok splits) :
    splits.length = (choices elements.length groups allowEmpty).choose (groups - 1) := by
  obtain ⟨hgroups, hcount⟩ := refusal?_eq_none_iff.mp h
  have hroom : allowEmpty = false →
      0 + (groups - 1) ≤ Dividers.greatest elements.length allowEmpty := by
    rintro rfl
    have hle := hcount rfl
    show 0 + (groups - 1) ≤ elements.length - 1
    omega
  rw [← List.length_map (Dividers.ends 0), map_ends_of_toList h hsplits,
    Dividers.length_onward, Dividers.first, Dividers.rank_least hroom, Nat.sub_zero,
    ways_greatest hgroups]

/-- The closed form is a binomial coefficient, if there is one and the sizes can be added. -/
theorem count?_eq_binomial? {count : Nat} (hgroups : groups ≠ 0)
    (hcount : allowEmpty = false → count ≠ 0)
    (hsize : ¬ (allowEmpty = true ∧ wordLimit ≤ count + groups)) :
    count? count groups allowEmpty =
      .ok (binomial? (choices count groups allowEmpty) (groups - 1)) := by
  rw [not_and, Nat.not_le] at hsize
  cases allowEmpty with
  | true => simp [count?, choices, hgroups, hsize rfl]
  | false => simp [count?, choices, hgroups, hcount rfl]

theorem count?_of_overflow {count : Nat} (hgroups : groups ≠ 0)
    (hsize : wordLimit ≤ count + groups) : count? count groups true = .error .addition := by
  simp [count?, hgroups, Nat.not_lt.mpr hsize]

/-- Where the closed form gives a number, the list of all splits has this length. -/
theorem counted_of_toList {splits : List (List (List α))}
    (h : refusal? elements.length groups allowEmpty = none)
    (hsize : ¬ (allowEmpty = true ∧ wordLimit ≤ elements.length + groups))
    (hsplits : (all elements groups allowEmpty).toList = .ok splits) :
    counted elements groups allowEmpty splits = .ok splits := by
  obtain ⟨hgroups, hcount⟩ := refusal?_eq_none_iff.mp h
  have hcount' : allowEmpty = false → elements.length ≠ 0 := by
    intro hfalse
    have hle := hcount hfalse
    omega
  rw [counted, count?_eq_binomial? hgroups hcount' hsize]
  cases hexpected : binomial? (choices elements.length groups allowEmpty) (groups - 1) with
  | none => rfl
  | some number =>
      have hlength : splits.length = number :=
        (length_of_toList h hsplits).trans (binomial?_eq_some hexpected).symm
      show (if splits.length = number then Except.ok splits else _) = _
      rw [if_pos hlength]

/-- The only split into one group is the sequence itself. -/
theorem eq_singleton_of_toList {splits : List (List (List α))}
    (h : refusal? elements.length 1 allowEmpty = none)
    (hsplits : (all elements 1 allowEmpty).toList = .ok splits) :
    splits = [[elements]] := by
  obtain ⟨other, hother, hmem⟩ := exists_toList_all h
  rw [hsplits] at hother
  cases hother
  have hlength : splits.length = 1 := by
    rw [length_of_toList h hsplits, Nat.sub_self, Nat.choose_zero_right]
  obtain ⟨split, rfl⟩ := List.length_eq_one_iff.mp hlength
  obtain ⟨hone, hflatten, _⟩ := (hmem split).mp (List.mem_singleton_self split)
  obtain ⟨group, rfl⟩ := List.length_eq_one_iff.mp hone
  rw [← hflatten, List.flatten_singleton]

/-- Where there are splits, they are listed, unless more than one group is asked for and the sizes
cannot be added. -/
theorem list_eq_of_toList {splits : List (List (List α))}
    (h : refusal? elements.length groups allowEmpty = none)
    (hsplits : (all elements groups allowEmpty).toList = .ok splits) :
    list elements groups allowEmpty =
      if groups ≠ 1 ∧ allowEmpty = true ∧ wordLimit ≤ elements.length + groups then
        .error (.fault .addition)
      else
        .ok splits := by
  have hgroups := (refusal?_eq_none_iff.mp h).1
  rw [list, make_of_refusal?_eq_none h]
  show (if groups = 1 then .ok [[elements]] else
    ((all elements groups allowEmpty).toList >>= counted elements groups allowEmpty).mapError
      SplitError.fault) = _
  by_cases hone : groups = 1
  · subst hone
    rw [if_pos rfl, if_neg (fun hoverflow => hoverflow.1 rfl), eq_singleton_of_toList h hsplits]
  · rw [if_neg hone, hsplits]
    show (counted elements groups allowEmpty splits).mapError SplitError.fault = _
    by_cases hoverflow : allowEmpty = true ∧ wordLimit ≤ elements.length + groups
    · obtain ⟨rfl, hsize⟩ := hoverflow
      rw [if_pos ⟨hone, rfl, hsize⟩, counted, count?_of_overflow hgroups hsize]
      rfl
    · rw [if_neg (fun hall => hoverflow hall.2), counted_of_toList h hoverflow hsplits]
      rfl

theorem list_of_toList {splits : List (List (List α))}
    (h : refusal? elements.length groups allowEmpty = none)
    (hsize : elements.length + groups < wordLimit)
    (hsplits : (all elements groups allowEmpty).toList = .ok splits) :
    list elements groups allowEmpty = .ok splits := by
  rw [list_eq_of_toList h hsplits, if_neg fun hoverflow => Nat.not_le.mpr hsize hoverflow.2.2]

/-! ### One by one -/

theorem of_toList {splits : Splits α} {list : List (List (List α))}
    (h : splits.toList = .ok list) :
    (list = [] ∧ splits.next? = .ok none) ∨
      ∃ split rest more, list = split :: more ∧ splits.next? = .ok (some (split, rest)) ∧
        rest.toList = .ok more := by
  rw [toList] at h
  split at h
  · cases h
  · rename_i hnext
    cases h
    exact .inl ⟨rfl, hnext⟩
  · rename_i split rest hnext
    cases hrest : rest.toList with
    | error fault =>
        rw [hrest] at h
        cases h
    | ok more =>
        rw [hrest] at h
        cases h
        exact .inr ⟨split, rest, more, rfl, hnext, hrest⟩

/-- Asking for the next split gives the entries of the list in order and then nothing. -/
theorem outcomes_of_toList {splits : Splits α} {list : List (List (List α))}
    (h : splits.toList = .ok list) (count : Nat) :
    splits.outcomes count = .ok ((List.range count).map fun position => list[position]?) := by
  induction count generalizing splits list with
  | zero => rfl
  | succ count ih =>
      rw [List.range_succ_eq_map, List.map_cons, List.map_map]
      rcases of_toList h with ⟨rfl, hnext⟩ | ⟨split, rest, more, rfl, hnext, hmore⟩
      · rw [outcomes, hnext]
        show (splits.outcomes count >>= fun others => .ok (none :: others)) = _
        rw [ih h]
        rfl
      · rw [outcomes, hnext]
        show (rest.outcomes count >>= fun others => .ok (some split :: others)) = _
        rw [ih hmore]
        rfl

/-- A request is refused exactly if it asks for no groups, or for more non-empty groups
than there are elements.  Any other request has one list of all splits, each once and
in strictly increasing order of the divider lists, and the splits that are asked for one
by one are the entries of this list and then nothing. -/
theorem list_enumerates_splits (elements : List α) (groups : Nat) (allowEmpty : Bool)
    (hsize : elements.length + groups < wordLimit) :
    ((groups = 0 ∨ allowEmpty = false ∧ elements.length < groups) →
        ∃ error, (∀ fault, error ≠ .fault fault) ∧
          list elements groups allowEmpty = .error error ∧
          make elements groups allowEmpty = .error error) ∧
      (¬ (groups = 0 ∨ allowEmpty = false ∧ elements.length < groups) →
        ∃ splits start, list elements groups allowEmpty = .ok splits ∧
          make elements groups allowEmpty = .ok start ∧
          (∀ split, split ∈ splits ↔ IsSplit elements groups allowEmpty split) ∧
          splits.Nodup ∧
          (splits.Pairwise fun earlier later =>
            List.Lex (· < ·) (Dividers.ends 0 earlier) (Dividers.ends 0 later)) ∧
          ∀ count, start.outcomes count =
            .ok ((List.range count).map fun position => splits[position]?)) := by
  constructor
  · intro h
    obtain ⟨error, hrefusal⟩ := exists_refusal? h
    exact ⟨error, ne_fault_of_refusal? hrefusal, list_of_refusal? hrefusal,
      make_of_refusal? hrefusal⟩
  · intro h
    have hrefusal := refusal?_eq_none_of_not h
    obtain ⟨splits, hsplits, hmem⟩ := exists_toList_all hrefusal
    have hpairwise := pairwise_of_toList hrefusal hsplits
    exact ⟨splits, all elements groups allowEmpty, list_of_toList hrefusal hsize hsplits,
      make_of_refusal?_eq_none hrefusal, hmem, nodup_of_pairwise hpairwise, hpairwise,
      outcomes_of_toList hsplits⟩

/-- Two equal elements have no split into three non-empty groups; with empty groups the
splits of three elements into two are listed and come one by one. -/
theorem list_enumerates_splits_repeated :
    (∃ error, list ['a', 'a'] 3 false = .error error ∧ make ['a', 'a'] 3 false = .error error) ∧
      ∃ splits start, list ['a', 'a', 'b'] 2 true = .ok splits ∧
        make ['a', 'a', 'b'] 2 true = .ok start ∧ [['a'], ['a', 'b']] ∈ splits ∧ splits.Nodup ∧
        start.outcomes 2 = .ok [splits[0]?, splits[1]?] := by
  constructor
  · obtain ⟨error, _, hlist, hmake⟩ :=
      (list_enumerates_splits ['a', 'a'] 3 false (by decide)).1 (by decide)
    exact ⟨error, hlist, hmake⟩
  · obtain ⟨splits, start, hlist, hmake, hmem, hnodup, _, houtcomes⟩ :=
      (list_enumerates_splits ['a', 'a', 'b'] 2 true (by decide)).2 (by decide)
    have hsplit : IsSplit ['a', 'a', 'b'] 2 true [['a'], ['a', 'b']] :=
      ⟨rfl, rfl, fun hfalse => nomatch hfalse⟩
    exact ⟨splits, start, hlist, hmake, (hmem _).mpr hsplit, hnodup, houtcomes 2⟩

end Splits
end PhraseStructure
