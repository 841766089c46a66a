import PhraseStructure.Proofs.Chart.Layout
import PhraseStructure.Proofs.Partition.Enumeration

/-!
# Arithmetic in machine words

The numbers of a recognition are sizes and positions, which are 64-bit words.  `Word.sum?`,
`Word.product?` and `Word.difference?` give nothing where a word would overflow or fall below
zero.  The places of a chart, the first divider list and the step to the next split are
computed here with these operations, in the order in which the operands are at hand, and the
results are those of the arithmetic without bounds.

For a chart the product that its number of cells is half of has to be a word; nothing greater
comes up on the way to a place.  For splits the greatest divider has to be one.  No bound on
the dividers themselves is needed, because only dividers below the greatest one grow.
-/

namespace PhraseStructure

namespace Word

/-- The sum of two numbers, if it is a word. -/
def sum? (a b : Nat) : Option Nat :=
  if a + b < Splits.wordLimit then some (a + b) else none

/-- The product of two numbers, if it is a word. -/
def product? (a b : Nat) : Option Nat :=
  if a * b < Splits.wordLimit then some (a * b) else none

/-- The difference of two numbers, if it is not below zero. -/
def difference? (a b : Nat) : Option Nat :=
  if b ≤ a then some (a - b) else none

variable {a b : Nat}

theorem sum?_eq_some (h : a + b < Splits.wordLimit) : sum? a b = some (a + b) := if_pos h

theorem product?_eq_some (h : a * b < Splits.wordLimit) : product? a b = some (a * b) := if_pos h

theorem difference?_eq_some (h : b ≤ a) : difference? a b = some (a - b) := if_pos h

end Word

/-! ### Charts -/

namespace Chart

/-- The number of cells, computed in words. -/
def cellCountInWords? (size : Nat) : Option Nat := do
  let rows ← Word.sum? size 1
  let cells ← Word.sum? size 2
  let doubled ← Word.product? rows cells
  return doubled / 2

/-- The place of a cell, computed in words. -/
def placeInWords? (size length start : Nat) : Option Nat := do
  let width ← Word.sum? size 1
  let whole ← Word.product? length width
  let pairs ← Word.product? length (length - 1)
  let row ← Word.difference? whole (pairs / 2)
  Word.sum? row start

variable {size : Nat}

theorem cellCountInWords?_eq (h : (size + 1) * (size + 2) < Splits.wordLimit) :
    cellCountInWords? size = some (cellCount size) := by
  have hcells : size + 2 ≤ (size + 1) * (size + 2) := Nat.le_mul_of_pos_left _ (Nat.succ_pos size)
  rw [cellCountInWords?, Word.sum?_eq_some (by omega), Word.sum?_eq_some (by omega)]
  show (Word.product? (size + 1) (size + 2) >>= _) = _
  rw [Word.product?_eq_some h]
  rfl

/-- The place of a cell that exists can be computed in words. -/
theorem placeInWords?_eq (h : (size + 1) * (size + 2) < Splits.wordLimit) {length start : Nat}
    (hinside : start + length ≤ size) :
    placeInWords? size length start = place? size length start := by
  have hwidth : size + 2 ≤ (size + 1) * (size + 2) := Nat.le_mul_of_pos_left _ (Nat.succ_pos size)
  have hwhole : length * (size + 1) ≤ (size + 1) * (size + 2) := by
    rw [Nat.mul_comm (size + 1)]
    exact Nat.mul_le_mul_right _ (by omega)
  have hpairs : length * (length - 1) ≤ length * (size + 1) :=
    Nat.mul_le_mul_left _ (by omega)
  have hplace := rowStart_add_lt_cellCount hinside
  have hcount : cellCount size ≤ (size + 1) * (size + 2) := Nat.div_le_self _ _
  rw [place?_of_le hinside, placeInWords?, Word.sum?_eq_some (by omega)]
  show (Word.product? length (size + 1) >>= _) = _
  rw [Word.product?_eq_some (by omega)]
  show (Word.product? length (length - 1) >>= _) = _
  rw [Word.product?_eq_some (by omega)]
  show (Word.difference? (length * (size + 1)) (length * (length - 1) / 2) >>= _) = _
  rw [Word.difference?_eq_some (half_le_mul (by omega))]
  exact Word.sum?_eq_some (by unfold rowStart at hplace; omega)

end Chart

/-! ### Divider lists -/

namespace Dividers

/-- The first divider list, computed in words. -/
def firstInWords? (groups : Nat) (allowEmpty : Bool) : Option (List Nat) :=
  if allowEmpty then do
    let count ← Word.difference? groups 1
    return List.replicate count 0
  else
    some (List.range' 1 (groups - 1))

/-- The least values of `count` dividers behind one of value `base`, computed in words;
`offset` more dividers stand between. -/
def leastInWords? (allowEmpty : Bool) (base : Nat) : Nat → Nat → Option (List Nat)
  | _, 0 => some []
  | offset, count + 1 => do
      let before ← if allowEmpty then some base else Word.sum? base offset
      let divider ← if allowEmpty then some before else Word.sum? before 1
      let rest ← leastInWords? allowEmpty base (offset + 1) count
      return divider :: rest

/-- The divider list that is advanced at a given pivot, computed in words. -/
def advanceAtInWords? (allowEmpty : Bool) (dividers : List Nat) (pivot : Nat) :
    Option (List Nat) := do
  let divider ← dividers[pivot]?
  let base ← Word.sum? divider 1
  let later ← leastInWords? allowEmpty base 0 (dividers.length - (pivot + 1))
  return dividers.take pivot ++ base :: later

/-- The next divider list, computed in words. -/
def advanceInWords (maximum : Nat) (allowEmpty : Bool) (dividers : List Nat) :
    Except Fault (List Nat) :=
  match pivot? maximum allowEmpty dividers with
  | none => .error (.exhausted dividers maximum allowEmpty)
  | some pivot =>
      match advanceAtInWords? allowEmpty dividers pivot with
      | some next => .ok next
      | none => .error .addition

variable {maximum : Nat} {allowEmpty : Bool}

theorem least_true (base count : Nat) : least true base count = List.replicate count base := by
  induction count with
  | zero => rfl
  | succ count ih => rw [least_succ, List.replicate_succ, ← ih]; rfl

theorem least_false (base count : Nat) : least false base count = List.range' (base + 1) count := by
  induction count generalizing base with
  | zero => rfl
  | succ count ih => rw [least_succ, List.range'_succ, ← ih]; rfl

theorem firstInWords?_eq {groups : Nat} (h : groups ≠ 0) :
    firstInWords? groups allowEmpty = some (first groups allowEmpty) := by
  cases allowEmpty with
  | true =>
      rw [first, least_true, firstInWords?, if_pos rfl,
        Word.difference?_eq_some (Nat.one_le_iff_ne_zero.mpr h)]
      rfl
  | false =>
      rw [first, least_false]
      rfl

theorem leastInWords?_eq {base offset count : Nat}
    (h : allowEmpty = false → base + offset + count < Splits.wordLimit) :
    leastInWords? allowEmpty base offset count =
      some (least allowEmpty (if allowEmpty then base else base + offset) count) := by
  induction count generalizing offset with
  | zero => rfl
  | succ count ih =>
      have hrest : leastInWords? allowEmpty base (offset + 1) count =
          some (least allowEmpty (if allowEmpty then base else base + (offset + 1)) count) := by
        apply ih
        intro hfalse
        have hbound := h hfalse
        omega
      rw [leastInWords?, hrest, least_succ]
      cases allowEmpty with
      | true => rfl
      | false =>
          have hbound := h rfl
          show (Word.sum? base offset >>= _) = _
          rw [Word.sum?_eq_some (by omega)]
          show (Word.sum? (base + offset) 1 >>= _) = _
          rw [Word.sum?_eq_some (by omega)]
          rfl

/-- A divider below its ceiling can be raised and the `count` dividers behind it reset in
words. -/
theorem leastInWords?_of_lt_ceiling (hmaximum : maximum < Splits.wordLimit) {divider count : Nat}
    (h : divider < ceiling maximum allowEmpty count) :
    Word.sum? divider 1 = some (divider + 1) ∧
      leastInWords? allowEmpty (divider + 1) 0 count =
        some (least allowEmpty (divider + 1) count) := by
  have hgreatest := ceiling_le maximum allowEmpty count
  have hlater : allowEmpty = false → divider + 1 + 0 + count < Splits.wordLimit := by
    rintro rfl
    have hroom : divider < maximum - count := h
    omega
  refine ⟨Word.sum?_eq_some (by omega), ?_⟩
  rw [leastInWords?_eq hlater, Nat.add_zero, ite_self]

/-- A divider list has a pivot exactly if it has an advance. -/
theorem pivot?_eq_none_iff {dividers : List Nat} :
    pivot? maximum allowEmpty dividers = none ↔ advance? maximum allowEmpty dividers = none := by
  induction dividers with
  | nil => exact iff_of_true rfl rfl
  | cons divider rest ih =>
      simp only [pivot?, advance?]
      cases hpivot : pivot? maximum allowEmpty rest with
      | none =>
          rw [ih.mp hpivot]
          by_cases hbelow : divider < ceiling maximum allowEmpty rest.length <;> simp [hbelow]
      | some position =>
          cases hadvance : advance? maximum allowEmpty rest with
          | none =>
              rw [ih.mpr hadvance] at hpivot
              cases hpivot
          | some next => simp

theorem exists_advance?_of_pivot? {dividers : List Nat} {pivot : Nat}
    (h : pivot? maximum allowEmpty dividers = some pivot) :
    ∃ next, advance? maximum allowEmpty dividers = some next := by
  cases hadvance : advance? maximum allowEmpty dividers with
  | none =>
      rw [pivot?_eq_none_iff.mpr hadvance] at h
      cases h
  | some next => exact ⟨next, rfl⟩

theorem advanceAtInWords?_cons (divider : Nat) (rest : List Nat) (pivot : Nat) :
    advanceAtInWords? allowEmpty (divider :: rest) (pivot + 1) =
      (advanceAtInWords? allowEmpty rest pivot).map (divider :: ·) := by
  have hcount : (divider :: rest).length - (pivot + 1 + 1) = rest.length - (pivot + 1) := by
    rw [List.length_cons, Nat.add_sub_add_right]
  simp only [advanceAtInWords?, List.getElem?_cons_succ, List.take_succ_cons, hcount,
    Option.bind_eq_bind, Option.map_bind, Option.pure_def, Function.comp_def, Option.map_some,
    List.cons_append]

/-- At its pivot a divider list is advanced in words. -/
theorem advanceAtInWords?_eq (hmaximum : maximum < Splits.wordLimit) {dividers : List Nat}
    {pivot : Nat} (h : pivot? maximum allowEmpty dividers = some pivot) :
    advanceAtInWords? allowEmpty dividers pivot = advance? maximum allowEmpty dividers := by
  induction dividers generalizing pivot with
  | nil => cases h
  | cons divider rest ih =>
      rw [advance?]
      cases hpivot : pivot? maximum allowEmpty rest with
      | some position =>
          simp only [pivot?, hpivot, Option.some.injEq] at h
          subst h
          obtain ⟨next, hadvance⟩ := exists_advance?_of_pivot? hpivot
          rw [advanceAtInWords?_cons, ih hpivot, hadvance]
          rfl
      | none =>
          simp only [pivot?, hpivot] at h
          rw [pivot?_eq_none_iff.mp hpivot]
          split at h
          · rename_i hbelow
            cases h
            obtain ⟨hsum, hleast⟩ := leastInWords?_of_lt_ceiling hmaximum hbelow
            show (Word.sum? divider 1 >>= _) = _
            rw [hsum]
            show (leastInWords? allowEmpty (divider + 1) 0 rest.length >>= _) = _
            rw [hleast, if_pos hbelow]
            rfl
          · cases h

/-- No divider overflows when a list is advanced, be it one that cuts or not. -/
theorem advanceInWords_eq (hmaximum : maximum < Splits.wordLimit) (dividers : List Nat) :
    advanceInWords maximum allowEmpty dividers = advance maximum allowEmpty dividers := by
  unfold advanceInWords advance
  cases hpivot : pivot? maximum allowEmpty dividers with
  | none => rw [pivot?_eq_none_iff.mp hpivot]
  | some pivot =>
      obtain ⟨next, hadvance⟩ := exists_advance?_of_pivot? hpivot
      simp only [advanceAtInWords?_eq hmaximum hpivot, hadvance]

end Dividers

/-! ### Splits -/

namespace Splits

variable {α : Type _}

/-- All splits of a sequence, set up in words. -/
def allInWords? (elements : List α) (groups : Nat) (allowEmpty : Bool) : Option (Splits α) := do
  let maximum ← if allowEmpty then some elements.length else Word.difference? elements.length 1
  let dividers ← Dividers.firstInWords? groups allowEmpty
  return ⟨elements, some dividers, maximum, allowEmpty⟩

/-- The next split and what is left after it: the divider list is advanced in words, and
only if it has a pivot. -/
def nextInWords (splits : Splits α) : Except Fault (Option (List (List α) × Splits α)) :=
  match splits.dividers with
  | none => .ok none
  | some dividers => do
      let groups ← Dividers.cut splits.elements dividers
      if (Dividers.pivot? splits.maximum splits.allowEmpty dividers).isSome then
        let later ← Dividers.advanceInWords splits.maximum splits.allowEmpty dividers
        return some (groups, ⟨splits.elements, some later, splits.maximum, splits.allowEmpty⟩)
      else
        return some (groups, ⟨splits.elements, none, splits.maximum, splits.allowEmpty⟩)

theorem allInWords?_eq {elements : List α} {groups : Nat} {allowEmpty : Bool}
    (h : refusal? elements.length groups allowEmpty = none) :
    allInWords? elements groups allowEmpty = some (all elements groups allowEmpty) := by
  obtain ⟨hgroups, hcount⟩ := refusal?_eq_none_iff.mp h
  rw [allInWords?, Dividers.firstInWords?_eq hgroups]
  cases allowEmpty with
  | true => rfl
  | false =>
      have hlength : 1 ≤ elements.length :=
        Nat.le_trans (Nat.one_le_iff_ne_zero.mpr hgroups) (hcount rfl)
      show (Word.difference? elements.length 1 >>= _) = _
      rw [Word.difference?_eq_some hlength]
      rfl

theorem nextInWords_eq {splits : Splits α} (h : splits.maximum < wordLimit) :
    splits.nextInWords = splits.next? := by
  cases hdividers : splits.dividers with
  | none => simp only [nextInWords, next?, hdividers]
  | some dividers =>
      simp only [nextInWords, next?, hdividers, Dividers.advanceInWords_eq h, Dividers.advance]
      cases hpivot : Dividers.pivot? splits.maximum splits.allowEmpty dividers with
      | none =>
          rw [Dividers.pivot?_eq_none_iff.mp hpivot]
          rfl
      | some pivot =>
          obtain ⟨later, hadvance⟩ := Dividers.exists_advance?_of_pivot? hpivot
          rw [hadvance]
          rfl

end Splits
end PhraseStructure
