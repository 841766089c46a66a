import PhraseStructure.Partition.Dividers

/-!
# The advance is the lexicographic successor

A divider list is valid behind a position when its entries never fall below what
the entry before them allows and never exceed the maximum.  Among the valid lists
of one length `least` is the first, and `advance?` gives the one that follows: no
valid list lies strictly between a list and its advance, and only the last valid
list has none.  So the lists that are reached from the first one by repeated
advances are exactly the valid ones, and they come in order.

The order is `List.Lex` over numbers.  Validity of the list that is advanced is
not needed for the advance to be greater; it is needed for the advance to be
valid.
-/

namespace PhraseStructure
namespace Dividers

variable {maximum : Nat} {allowEmpty : Bool}

/-- The least value of a divider that stands behind one of value `base`. -/
def lowest (allowEmpty : Bool) (base : Nat) : Nat :=
  if allowEmpty then base else base + 1

/-- Every divider is at least the lowest value behind its predecessor, the first
one behind `base`, and at most the maximum. -/
def Valid (maximum : Nat) (allowEmpty : Bool) : Nat → List Nat → Prop
  | _, [] => True
  | base, divider :: rest =>
      lowest allowEmpty base ≤ divider ∧ divider ≤ maximum ∧
        Valid maximum allowEmpty divider rest

theorem least_succ (base count : Nat) :
    least allowEmpty base (count + 1) =
      lowest allowEmpty base :: least allowEmpty (lowest allowEmpty base) count := rfl

/-- Without empty groups every later divider needs a place of its own below the
maximum. -/
theorem Valid.add_length_le {base : Nat} {dividers : List Nat} (hbase : base ≤ maximum)
    (h : Valid maximum false base dividers) : base + dividers.length ≤ maximum := by
  induction dividers generalizing base with
  | nil => exact hbase
  | cons divider rest ih =>
      obtain ⟨hlow, hhigh, hrest⟩ := h
      have hlow' : base + 1 ≤ divider := hlow
      have htail := ih hhigh hrest
      simp only [List.length_cons]
      omega

/-- The first divider of a valid list is at most its ceiling. -/
theorem Valid.le_ceiling {base divider : Nat} {rest : List Nat}
    (h : Valid maximum allowEmpty base (divider :: rest)) :
    divider ≤ ceiling maximum allowEmpty rest.length := by
  obtain ⟨_, hhigh, hrest⟩ := h
  cases allowEmpty with
  | true => exact hhigh
  | false =>
      have htail := Valid.add_length_le hhigh hrest
      show divider ≤ maximum - rest.length
      omega

/-- There is room for `count` dividers behind one that is below its ceiling. -/
theorem valid_least {base count : Nat}
    (hroom : if allowEmpty then base ≤ maximum else base + count ≤ maximum) :
    Valid maximum allowEmpty base (least allowEmpty base count) := by
  induction count generalizing base with
  | zero => trivial
  | succ count ih =>
      rw [least_succ]
      cases allowEmpty with
      | true =>
          exact ⟨Nat.le_refl _, hroom, ih hroom⟩
      | false =>
          have hroom' : base + (count + 1) ≤ maximum := hroom
          have hfirst : base + 1 ≤ maximum := by omega
          have hrest : base + 1 + count ≤ maximum := by omega
          exact ⟨Nat.le_refl _, hfirst, ih hrest⟩

/-- The dividers behind one that was raised below its ceiling can start again at their least
list. -/
theorem valid_least_of_lt_ceiling {divider count : Nat}
    (h : divider < ceiling maximum allowEmpty count) :
    divider < maximum ∧
      Valid maximum allowEmpty (divider + 1) (least allowEmpty (divider + 1) count) := by
  have hmaximum : divider < maximum := Nat.lt_of_lt_of_le h (ceiling_le ..)
  refine ⟨hmaximum, valid_least ?_⟩
  cases allowEmpty with
  | true => exact hmaximum
  | false =>
      have hroom : divider < maximum - count := h
      show divider + 1 + count ≤ maximum
      omega

/-- No valid list of the same length comes before the least one. -/
theorem eq_least_or_lex {base : Nat} {dividers : List Nat}
    (h : Valid maximum allowEmpty base dividers) :
    dividers = least allowEmpty base dividers.length ∨
      List.Lex (· < ·) (least allowEmpty base dividers.length) dividers := by
  induction dividers generalizing base with
  | nil => exact .inl rfl
  | cons divider rest ih =>
      obtain ⟨hlow, _, hrest⟩ := h
      rw [List.length_cons, least_succ]
      rcases Nat.lt_or_eq_of_le hlow with hlt | heq
      · exact .inr (.rel hlt)
      · rw [heq]
        rcases ih hrest with htail | htail
        · exact .inl (congrArg _ htail)
        · exact .inr (.cons htail)

/-! ### One advance -/

theorem lex_advance? {dividers next : List Nat}
    (h : advance? maximum allowEmpty dividers = some next) :
    List.Lex (· < ·) dividers next := by
  induction dividers generalizing next with
  | nil => simp [advance?] at h
  | cons divider rest ih =>
      simp only [advance?] at h
      split at h
      · rename_i rest' hrest
        cases h
        exact .cons (ih hrest)
      · split at h
        · cases h
          exact .rel (Nat.lt_succ_self divider)
        · simp at h

theorem valid_advance? {base : Nat} {dividers next : List Nat}
    (hvalid : Valid maximum allowEmpty base dividers)
    (h : advance? maximum allowEmpty dividers = some next) :
    Valid maximum allowEmpty base next := by
  induction dividers generalizing base next with
  | nil => simp [advance?] at h
  | cons divider rest ih =>
      obtain ⟨hlow, hhigh, hrest⟩ := hvalid
      simp only [advance?] at h
      split at h
      · rename_i rest' htail
        cases h
        exact ⟨hlow, hhigh, ih hrest htail⟩
      · split at h
        · rename_i hbelow
          cases h
          obtain ⟨hmaximum, hleast⟩ := valid_least_of_lt_ceiling hbelow
          exact ⟨Nat.le_succ_of_le hlow, hmaximum, hleast⟩
        · simp at h

/-- A list with a valid list of the same length above it has an advance, and the
advance is not above that list. -/
theorem advance?_of_lex {base : Nat} {dividers later : List Nat}
    (hvalid : Valid maximum allowEmpty base later)
    (hlength : later.length = dividers.length)
    (hlex : List.Lex (· < ·) dividers later) :
    ∃ next, advance? maximum allowEmpty dividers = some next ∧
      (later = next ∨ List.Lex (· < ·) next later) := by
  induction dividers generalizing base later with
  | nil =>
      have hnil : later = [] := List.length_eq_zero_iff.mp hlength
      rw [hnil] at hlex
      cases hlex
  | cons divider rest ih =>
      -- Two lists in order either share the first divider or differ there already.
      cases hlex with
      | @cons _ _ rest' htail =>
          have hlength' : rest'.length = rest.length := Nat.succ.inj hlength
          obtain ⟨next, hnext, horder⟩ := ih hvalid.2.2 hlength' htail
          refine ⟨divider :: next, by simp [advance?, hnext], ?_⟩
          rcases horder with rfl | horder
          · exact .inl rfl
          · exact .inr (.cons horder)
      | @rel _ _ _ rest' hlt =>
          rename_i divider'
          have hlength' : rest'.length = rest.length := Nat.succ.inj hlength
          cases htail : advance? maximum allowEmpty rest with
          | some next =>
              exact ⟨divider :: next, by simp [advance?, htail], .inr (.rel hlt)⟩
          | none =>
              -- The pivot is the first divider, and `later` shows that it is below its ceiling.
              have hceiling := hvalid.le_ceiling
              rw [hlength'] at hceiling
              have hbelow : divider < ceiling maximum allowEmpty rest.length :=
                Nat.lt_of_lt_of_le hlt hceiling
              refine ⟨(divider + 1) :: least allowEmpty (divider + 1) rest.length,
                by simp [advance?, htail, hbelow], ?_⟩
              -- A later list with the same first divider cannot be before the least tail.
              rcases Nat.lt_or_eq_of_le (Nat.succ_le_of_lt hlt) with hlt' | heq
              · exact .inr (.rel hlt')
              · subst heq
                rw [← hlength']
                rcases eq_least_or_lex hvalid.2.2 with heq | hlex'
                · exact .inl (congrArg _ heq)
                · exact .inr (.cons hlex')

/-! ### Repeated advances -/

/-- A divider list and all that follow it by repeated advances. -/
def onward (maximum : Nat) (allowEmpty : Bool) (dividers : List Nat) : List (List Nat) :=
  match _ : advance? maximum allowEmpty dividers with
  | none => [dividers]
  | some next => dividers :: onward maximum allowEmpty next
termination_by distance maximum dividers
decreasing_by
  rename_i h
  exact distance_advance? h

/-- Repeated advances keep validity and length. -/
theorem valid_of_mem_onward {base : Nat} {dividers later : List Nat}
    (hvalid : Valid maximum allowEmpty base dividers)
    (hmem : later ∈ onward maximum allowEmpty dividers) :
    Valid maximum allowEmpty base later ∧ later.length = dividers.length := by
  fun_induction onward maximum allowEmpty dividers with
  | case1 dividers _ =>
      rw [List.mem_singleton] at hmem
      subst hmem
      exact ⟨hvalid, rfl⟩
  | case2 dividers next hnext ih =>
      rcases List.mem_cons.mp hmem with rfl | hmem
      · exact ⟨hvalid, rfl⟩
      · obtain ⟨hvalid', hlength⟩ := ih (valid_advance? hvalid hnext) hmem
        exact ⟨hvalid', hlength.trans (length_advance? hnext)⟩

/-- Repeated advances reach every valid list of the same length that is not before
the list they start from. -/
theorem mem_onward {base : Nat} {dividers later : List Nat}
    (hvalid : Valid maximum allowEmpty base later)
    (hlength : later.length = dividers.length)
    (horder : later = dividers ∨ List.Lex (· < ·) dividers later) :
    later ∈ onward maximum allowEmpty dividers := by
  fun_induction onward maximum allowEmpty dividers with
  | case1 dividers hnone =>
      rcases horder with rfl | hlex
      · exact List.mem_singleton_self _
      · -- A list without an advance has no valid list behind it.
        obtain ⟨next, hnext, _⟩ := advance?_of_lex hvalid hlength hlex
        rw [hnone] at hnext
        cases hnext
  | case2 dividers next hnext ih =>
      rcases horder with rfl | hlex
      · exact List.mem_cons_self
      · obtain ⟨next', hnext', horder'⟩ := advance?_of_lex hvalid hlength hlex
        rw [hnext] at hnext'
        cases hnext'
        exact List.mem_cons_of_mem _ (ih (hlength.trans (length_advance? hnext).symm) horder')

/-- What repeated advances reach comes after the list they start from. -/
theorem eq_or_lex_of_mem_onward {dividers later : List Nat}
    (hmem : later ∈ onward maximum allowEmpty dividers) :
    later = dividers ∨ List.Lex (· < ·) dividers later := by
  fun_induction onward maximum allowEmpty dividers with
  | case1 => exact .inl (List.mem_singleton.mp hmem)
  | case2 dividers next hnext ih =>
      rcases List.mem_cons.mp hmem with rfl | hmem
      · exact .inl rfl
      · have hfirst := lex_advance? hnext
        rcases ih hmem with rfl | hlex
        · exact .inr hfirst
        · exact .inr (List.lex_trans Nat.lt_trans hfirst hlex)

/-- Repeated advances give divider lists in strictly increasing order. -/
theorem pairwise_onward (maximum : Nat) (allowEmpty : Bool) (dividers : List Nat) :
    (onward maximum allowEmpty dividers).Pairwise (List.Lex (· < ·)) := by
  fun_induction onward maximum allowEmpty dividers with
  | case1 => exact List.pairwise_singleton _ _
  | case2 dividers next hnext ih =>
      refine List.pairwise_cons.mpr ⟨?_, ih⟩
      intro later hlater
      have hfirst := lex_advance? hnext
      rcases eq_or_lex_of_mem_onward hlater with rfl | hlex
      · exact hfirst
      · exact List.lex_trans Nat.lt_trans hfirst hlex

/-- The divider lists for a number of groups, from the first one on, are the valid
ones. -/
theorem mem_onward_first {groups : Nat} {dividers : List Nat}
    (hvalid : Valid maximum allowEmpty 0 (first groups allowEmpty)) :
    dividers ∈ onward maximum allowEmpty (first groups allowEmpty) ↔
      Valid maximum allowEmpty 0 dividers ∧ dividers.length = groups - 1 := by
  have hfirst : (first groups allowEmpty).length = groups - 1 := length_least ..
  constructor
  · intro hmem
    obtain ⟨hvalid', hlength⟩ := valid_of_mem_onward hvalid hmem
    exact ⟨hvalid', hlength.trans hfirst⟩
  · rintro ⟨hvalid', hlength⟩
    have horder := eq_least_or_lex hvalid'
    rw [hlength] at horder
    exact mem_onward hvalid' (hlength.trans hfirst.symm) horder

end Dividers
end PhraseStructure
