import PhraseStructure.Partition.Splits
import PhraseStructure.Proofs.Partition.Successor

/-!
# The enumeration of splits

Divider lists and splits determine each other: cutting at a divider list gives
groups that end at its dividers, and cutting a concatenation at the positions where
its groups end gives the groups back.  Together with the order of the divider lists
this says what `Splits.toList` holds: every split of the wanted shape and nothing
else.

`Splits.anyM` looks at the splits one by one and stops at the first that passes.
It never needs the list, but on a sequence that has splits it gives what a search
through the list gives, in every monad.
-/

namespace PhraseStructure

variable {α : Type _}

namespace Dividers

/-- The positions at which groups end when the first one begins at `start`, the
last position left out. -/
def ends (start : Nat) : List (List α) → List Nat
  | [] => []
  | [_] => []
  | group :: next :: rest =>
      (start + group.length) :: ends (start + group.length) (next :: rest)

theorem length_ends (start : Nat) {groups : List (List α)} (h : groups ≠ []) :
    (ends start groups).length + 1 = groups.length := by
  fun_induction ends start groups with
  | case1 => exact absurd rfl h
  | case2 => rfl
  | case3 start group next rest ih =>
      have htail := ih (List.cons_ne_nil _ _)
      simp only [List.length_cons] at htail ⊢
      omega

/-- Cutting a concatenation where its groups end gives the groups back. -/
theorem cutFrom_ends (whole : List Nat) {count start : Nat} {groups : List (List α)}
    (hne : groups ≠ []) (hcount : start + groups.flatten.length = count) :
    cutFrom whole count start (ends start groups) groups.flatten = .ok groups := by
  fun_induction ends start groups with
  | case1 => exact absurd rfl hne
  | case2 start group => simp [cutFrom]
  | case3 start group next rest ih =>
      have hlength : start + group.length + (next :: rest).flatten.length = count := by
        rw [List.flatten_cons, List.length_append] at hcount
        omega
      have htail := ih (List.cons_ne_nil _ _) hlength
      have hbounds : start ≤ start + group.length ∧ start + group.length ≤ count := by
        omega
      have hwidth : start + group.length - start = group.length := by omega
      rw [List.flatten_cons, cutFrom, if_pos hbounds, hwidth, List.drop_left,
        List.take_left, htail]
      rfl

/-- What a successful cut says about its groups. -/
theorem of_cutFrom {whole : List Nat} {count start : Nat} {dividers : List Nat}
    {elements : List α} {groups : List (List α)}
    (hcount : start + elements.length = count)
    (h : cutFrom whole count start dividers elements = .ok groups) :
    groups ≠ [] ∧ groups.flatten = elements ∧ ends start groups = dividers := by
  induction dividers generalizing start elements groups with
  | nil =>
      cases h
      exact ⟨List.cons_ne_nil _ _, List.append_nil _, rfl⟩
  | cons stop rest ih =>
      rw [cutFrom] at h
      split at h
      · rename_i hbounds
        cases htail : cutFrom whole count stop rest (elements.drop (stop - start)) with
        | error fault =>
            rw [htail] at h
            cases h
        | ok tail =>
            rw [htail] at h
            cases h
            have hlength : stop + (elements.drop (stop - start)).length = count := by
              rw [List.length_drop]
              omega
            have hwidth : start + (elements.take (stop - start)).length = stop := by
              rw [List.length_take]
              omega
            obtain ⟨hne, hflatten, hends⟩ := ih hlength htail
            refine ⟨List.cons_ne_nil _ _, ?_, ?_⟩
            · rw [List.flatten_cons, hflatten, List.take_append_drop]
            · obtain ⟨next, later, rfl⟩ := List.exists_cons_of_ne_nil hne
              rw [ends, hwidth, hends]
      · cases h

/-- A cut succeeds where the dividers never fall and never pass the end. -/
theorem exists_cutFrom {whole : List Nat} {maximum count start : Nat} {allowEmpty : Bool}
    {dividers : List Nat} (elements : List α) (hmaximum : maximum ≤ count)
    (h : Valid maximum allowEmpty start dividers) :
    ∃ groups, cutFrom whole count start dividers elements = .ok groups := by
  induction dividers generalizing start elements with
  | nil => exact ⟨[elements], rfl⟩
  | cons stop rest ih =>
      obtain ⟨hlow, hhigh, hrest⟩ := h
      have hstart : start ≤ stop := by
        cases allowEmpty with
        | true => exact hlow
        | false => exact Nat.le_of_succ_le hlow
      obtain ⟨tail, htail⟩ := ih (elements.drop (stop - start)) hrest
      refine ⟨elements.take (stop - start) :: tail, ?_⟩
      rw [cutFrom, if_pos ⟨hstart, Nat.le_trans hhigh hmaximum⟩, htail]
      rfl

/-- The greatest value of a divider for a number of elements. -/
def greatest (count : Nat) (allowEmpty : Bool) : Nat :=
  if allowEmpty then count else count - 1

theorem greatest_le (count : Nat) (allowEmpty : Bool) : greatest count allowEmpty ≤ count := by
  cases allowEmpty with
  | true => exact Nat.le_refl _
  | false => exact Nat.sub_le _ _

/-- Groups end at valid dividers; without empty groups the last one leaves room
for its own elements. -/
theorem valid_ends {allowEmpty : Bool} {count start : Nat} {groups : List (List α)}
    (hcount : start + groups.flatten.length = count)
    (hfull : allowEmpty = false → ∀ group ∈ groups, group ≠ []) :
    Valid (greatest count allowEmpty) allowEmpty start (ends start groups) := by
  fun_induction ends start groups with
  | case1 => trivial
  | case2 => trivial
  | case3 start group next rest ih =>
      have hlength : start + group.length + (next :: rest).flatten.length = count := by
        rw [List.flatten_cons, List.length_append] at hcount
        omega
      have htail := ih hlength fun hfalse later hlater =>
        hfull hfalse later (List.mem_cons_of_mem _ hlater)
      cases allowEmpty with
      | true =>
          have hhigh : start + group.length ≤ count := by omega
          exact ⟨Nat.le_add_right _ _, hhigh, htail⟩
      | false =>
          -- The group behind this divider needs an element too, hence `count - 1`.
          have hgroup := List.length_pos_iff.mpr (hfull rfl group (by simp))
          have hnext := List.length_pos_iff.mpr (hfull rfl next (by simp))
          rw [List.flatten_cons, List.length_append] at hlength
          have hlow : start + 1 ≤ start + group.length := by omega
          have hhigh : start + group.length ≤ count - 1 := by omega
          exact ⟨hlow, hhigh, htail⟩

/-- Groups that end at strictly increasing dividers before the last position are
not empty. -/
theorem ne_nil_of_valid_ends {count start : Nat} {groups : List (List α)}
    (hcount : start + groups.flatten.length = count) (hstart : start < count)
    (h : Valid (count - 1) false start (ends start groups)) :
    ∀ group ∈ groups, group ≠ [] := by
  fun_induction ends start groups with
  | case1 => simp
  | case2 start group =>
      -- The last group ends at `count` and begins before it.
      intro other hother hnil
      rw [List.mem_singleton] at hother
      subst hother
      subst hnil
      simp only [List.flatten_cons, List.flatten_nil, List.append_nil, List.length_nil] at hcount
      omega
  | case3 start group next rest ih =>
      obtain ⟨hlow, hhigh, htail⟩ := h
      have hlow' : start + 1 ≤ start + group.length := hlow
      have hlength : start + group.length + (next :: rest).flatten.length = count := by
        rw [List.flatten_cons, List.length_append] at hcount
        omega
      have hrest := ih hlength (by omega) htail
      intro other hother
      rcases List.mem_cons.mp hother with rfl | hother
      · exact List.length_pos_iff.mp (by omega)
      · exact hrest other hother

/-- Groups of one concatenation that end at the same positions are the same. -/
theorem eq_of_ends_eq {left right : List (List α)} (hleft : left ≠ []) (hright : right ≠ [])
    (hflatten : left.flatten = right.flatten) (hends : ends 0 left = ends 0 right) :
    left = right := by
  have hcutLeft := cutFrom_ends [] hleft (Nat.zero_add left.flatten.length)
  have hcutRight := cutFrom_ends [] hright (Nat.zero_add right.flatten.length)
  rw [hflatten, hends, hcutRight] at hcutLeft
  exact (Except.ok.inj hcutLeft).symm

end Dividers

/-- A way to write a sequence as a concatenation of a number of groups. -/
structure IsSplit (elements : List α) (groups : Nat) (allowEmpty : Bool)
    (split : List (List α)) : Prop where
  length_eq : split.length = groups
  flatten_eq : split.flatten = elements
  ne_nil : allowEmpty = false → ∀ group ∈ split, group ≠ []

namespace Splits

theorem refusal?_eq_none_iff {count groups : Nat} {allowEmpty : Bool} :
    refusal? count groups allowEmpty = none ↔
      groups ≠ 0 ∧ (allowEmpty = false → groups ≤ count) := by
  cases allowEmpty with
  | true => simp [refusal?]
  | false =>
      simp only [refusal?, Bool.not_false, Bool.true_and, decide_eq_true_eq, forall_const]
      split
      · simp_all
      · split
        · simp only [reduceCtorEq, false_iff]
          omega
        · split
          · simp only [reduceCtorEq, false_iff]
            omega
          · simp only [true_iff]
            omega

/-- With empty groups any number of groups but none will do. -/
theorem refusal?_of_allowEmpty {groups : Nat} (h : groups ≠ 0) (count : Nat) :
    refusal? count groups true = none :=
  refusal?_eq_none_iff.mpr ⟨h, fun hfalse => nomatch hfalse⟩

theorem valid_first {count groups : Nat} {allowEmpty : Bool}
    (h : refusal? count groups allowEmpty = none) :
    Dividers.Valid (Dividers.greatest count allowEmpty) allowEmpty 0
      (Dividers.first groups allowEmpty) := by
  obtain ⟨hgroups, hcount⟩ := refusal?_eq_none_iff.mp h
  apply Dividers.valid_least
  cases allowEmpty with
  | true => exact Nat.zero_le _
  | false =>
      have hle := hcount rfl
      show 0 + (groups - 1) ≤ count - 1
      omega

theorem next?_none (elements : List α) (maximum : Nat) (allowEmpty : Bool) :
    (⟨elements, none, maximum, allowEmpty⟩ : Splits α).next? = .ok none := rfl

theorem next?_some {elements : List α} {dividers : List Nat} (maximum : Nat)
    (allowEmpty : Bool) {groups : List (List α)}
    (hcut : Dividers.cut elements dividers = .ok groups) :
    (⟨elements, some dividers, maximum, allowEmpty⟩ : Splits α).next? =
      .ok (some (groups, ⟨elements, Dividers.advance? maximum allowEmpty dividers,
        maximum, allowEmpty⟩)) := by
  simp only [next?, hcut]
  rfl

theorem toList_of_none {splits : Splits α} (h : splits.next? = .ok none) :
    splits.toList = .ok [] := by
  rw [toList]
  split <;> simp_all

theorem toList_of_some {splits rest : Splits α} {groups : List (List α)}
    {more : List (List (List α))} (h : splits.next? = .ok (some (groups, rest)))
    (hmore : rest.toList = .ok more) : splits.toList = .ok (groups :: more) := by
  rw [toList]
  split
  · rename_i hfault
    rw [h] at hfault
    cases hfault
  · rename_i hnone
    rw [h] at hnone
    cases hnone
  · rename_i hsome
    rw [h] at hsome
    cases hsome
    rw [hmore]
    rfl

/-- From a valid divider list on, the enumeration gives one split of the sequence
for each divider list, in their order. -/
theorem exists_toList {elements : List α} {maximum : Nat} {allowEmpty : Bool}
    {dividers : List Nat} (hmaximum : maximum ≤ elements.length)
    (hvalid : Dividers.Valid maximum allowEmpty 0 dividers) :
    ∃ list, (⟨elements, some dividers, maximum, allowEmpty⟩ : Splits α).toList = .ok list ∧
      list.map (Dividers.ends 0) = Dividers.onward maximum allowEmpty dividers ∧
      ∀ split ∈ list, split ≠ [] ∧ split.flatten = elements := by
  fun_induction Dividers.onward maximum allowEmpty dividers with
  | case1 dividers hnone =>
      obtain ⟨groups, hcut⟩ := Dividers.exists_cutFrom elements hmaximum hvalid
      obtain ⟨hne, hflatten, hends⟩ := Dividers.of_cutFrom (Nat.zero_add _) hcut
      have hnext := next?_some maximum allowEmpty hcut
      rw [hnone] at hnext
      refine ⟨[groups], toList_of_some hnext (toList_of_none (next?_none ..)), ?_, ?_⟩
      · rw [List.map_singleton, hends]
      · intro split hsplit
        rw [List.mem_singleton] at hsplit
        subst hsplit
        exact ⟨hne, hflatten⟩
  | case2 dividers next hadvance ih =>
      obtain ⟨groups, hcut⟩ := Dividers.exists_cutFrom elements hmaximum hvalid
      obtain ⟨hne, hflatten, hends⟩ := Dividers.of_cutFrom (Nat.zero_add _) hcut
      have hnext := next?_some maximum allowEmpty hcut
      rw [hadvance] at hnext
      obtain ⟨more, hmore, hmap, hall⟩ := ih (Dividers.valid_advance? hvalid hadvance)
      refine ⟨groups :: more, toList_of_some hnext hmore, ?_, ?_⟩
      · rw [List.map_cons, hends, hmap]
      · intro split hsplit
        rcases List.mem_cons.mp hsplit with rfl | hsplit
        · exact ⟨hne, hflatten⟩
        · exact hall split hsplit

/-- On a sequence that has splits the enumeration lists exactly them. -/
theorem exists_toList_all {elements : List α} {groups : Nat} {allowEmpty : Bool}
    (h : refusal? elements.length groups allowEmpty = none) :
    ∃ list, (all elements groups allowEmpty).toList = .ok list ∧
      ∀ split, split ∈ list ↔ IsSplit elements groups allowEmpty split := by
  obtain ⟨hgroups, hcount⟩ := refusal?_eq_none_iff.mp h
  have hvalid := valid_first h
  obtain ⟨list, hlist, hmap, hall⟩ := exists_toList (Dividers.greatest_le ..) hvalid
  refine ⟨list, hlist, fun split => ⟨fun hsplit => ?_, fun hsplit => ?_⟩⟩
  · obtain ⟨hne, hflatten⟩ := hall split hsplit
    have hmem : Dividers.ends 0 split ∈ list.map (Dividers.ends 0) :=
      List.mem_map_of_mem hsplit
    rw [hmap, Dividers.mem_onward_first hvalid] at hmem
    obtain ⟨hvalidEnds, hlength⟩ := hmem
    have hends := Dividers.length_ends 0 hne
    refine ⟨by omega, hflatten, fun hfalse => ?_⟩
    subst hfalse
    have hle := hcount rfl
    exact Dividers.ne_nil_of_valid_ends (by rw [hflatten, Nat.zero_add]) (by omega) hvalidEnds
  · have hne : split ≠ [] := by
      intro hnil
      have hlength := hsplit.length_eq
      rw [hnil, List.length_nil] at hlength
      exact hgroups hlength.symm
    have hends := Dividers.length_ends 0 hne
    have hlength := hsplit.length_eq
    have hvalidEnds : Dividers.Valid (Dividers.greatest elements.length allowEmpty) allowEmpty 0
        (Dividers.ends 0 split) :=
      Dividers.valid_ends (by rw [hsplit.flatten_eq, Nat.zero_add]) hsplit.ne_nil
    -- A split is found by the positions at which its groups end.
    have hmem : Dividers.ends 0 split ∈ list.map (Dividers.ends 0) := by
      rw [hmap, Dividers.mem_onward_first hvalid]
      exact ⟨hvalidEnds, by omega⟩
    obtain ⟨other, hother, heq⟩ := List.mem_map.mp hmem
    obtain ⟨hneOther, hflattenOther⟩ := hall other hother
    have hsame := Dividers.eq_of_ends_eq hneOther hne
      (hflattenOther.trans hsplit.flatten_eq.symm) heq
    exact hsame ▸ hother

section Search

variable {m : Type → Type _} [Monad m] [MonadExceptOf Fault m]

theorem anyM_of_none {splits : Splits α} (test : List (List α) → m Bool)
    (h : splits.next? = .ok none) : splits.anyM test = pure false := by
  rw [anyM]
  split <;> simp_all

theorem anyM_of_some {splits rest : Splits α} {groups : List (List α)}
    (test : List (List α) → m Bool) (h : splits.next? = .ok (some (groups, rest))) :
    splits.anyM test =
      test groups >>= fun verdict => if verdict then pure true else rest.anyM test := by
  rw [anyM]
  split <;> simp_all

/-- A search through the splits one by one is a search through their list. -/
theorem anyM_eq_of_toList {splits : Splits α} {list : List (List (List α))}
    (h : splits.toList = .ok list) (test : List (List α) → m Bool) :
    splits.anyM test = list.anyM test := by
  fun_induction toList splits generalizing list with
  | case1 => cases h
  | case2 splits hnext =>
      cases h
      exact anyM_of_none test hnext
  | case3 splits groups rest hnext ih =>
      cases hrest : rest.toList with
      | error fault =>
          rw [hrest] at h
          cases h
      | ok more =>
          rw [hrest] at h
          cases h
          rw [anyM_of_some test hnext, List.anyM, ih hrest]
          -- The two searches branch on the same verdict, one by `if` and one by `match`.
          congr 1
          funext verdict
          cases verdict <;> rfl

/-- A trusted search is a search through all splits. -/
theorem trusted_eq_all {elements : List α} {groups : Nat} {allowEmpty : Bool}
    (h : refusal? elements.length groups allowEmpty = none) :
    trusted elements groups allowEmpty = .ok (all elements groups allowEmpty) := by
  simp only [trusted, h]

end Search
end Splits
end PhraseStructure
