import Mathlib.Data.Nat.Choose.Basic
import PhraseStructure.Partition.Count
import PhraseStructure.Proofs.Partition.Successor

/-!
# The number of divider lists

The rank of a divider list is the number of valid lists that come after it: for each
of its dividers, those that agree with it before this divider and are greater there.
An advance lowers the rank by exactly one, and a list without an advance has rank
zero.  So repeated advances from the first list give one more list than its rank,
and Pascal's rule turns the rank of the first list into one binomial coefficient.

`binomial?` computes binomial coefficients by a running product.  Up to the middle the products
do not decrease, so the last one alone decides whether a coefficient is given.  A coefficient
below the limit need not be given.
-/

namespace PhraseStructure
namespace Dividers

variable {maximum : Nat} {allowEmpty : Bool}

/-- The number of valid lists of `count` dividers behind one that is `room` below the
maximum. -/
def ways (allowEmpty : Bool) (room count : Nat) : Nat :=
  (if allowEmpty then room + count else room).choose count

/-- The number of valid lists whose first divider is greater than `divider`, with
`later` further dividers. -/
def above (maximum : Nat) (allowEmpty : Bool) (divider later : Nat) : Nat :=
  (if allowEmpty then maximum - divider + later else maximum - divider).choose (later + 1)

/-- The number of valid lists that come after a divider list. -/
def rank (maximum : Nat) (allowEmpty : Bool) : List Nat → Nat
  | [] => 0
  | divider :: rest => above maximum allowEmpty divider rest.length + rank maximum allowEmpty rest

/-- Nothing is above a divider that has reached its ceiling. -/
theorem above_eq_zero {divider later : Nat} (h : ceiling maximum allowEmpty later ≤ divider) :
    above maximum allowEmpty divider later = 0 := by
  apply Nat.choose_eq_zero_of_lt
  cases allowEmpty with
  | true =>
      have hceiling : maximum ≤ divider := h
      show maximum - divider + later < later + 1
      omega
  | false =>
      have hceiling : maximum - later ≤ divider := h
      show maximum - divider < later + 1
      omega

/-- Pascal's rule: a first divider above `divider` is its successor or above that. -/
theorem above_eq_add {divider : Nat} (later : Nat) (h : divider < maximum) :
    above maximum allowEmpty divider later =
      above maximum allowEmpty (divider + 1) later +
        ways allowEmpty (maximum - (divider + 1)) later := by
  obtain ⟨room, rfl⟩ : ∃ room, maximum = divider + 1 + room := ⟨_, (Nat.add_sub_of_le h).symm⟩
  have hroom : divider + 1 + room - divider = room + 1 := by omega
  have hroom' : divider + 1 + room - (divider + 1) = room := by omega
  cases allowEmpty with
  | true =>
      show (divider + 1 + room - divider + later).choose (later + 1) =
        (divider + 1 + room - (divider + 1) + later).choose (later + 1) +
          (divider + 1 + room - (divider + 1) + later).choose later
      rw [hroom, hroom', Nat.add_right_comm, Nat.choose_succ_succ', Nat.add_comm]
  | false =>
      show (divider + 1 + room - divider).choose (later + 1) =
        (divider + 1 + room - (divider + 1)).choose (later + 1) +
          (divider + 1 + room - (divider + 1)).choose later
      rw [hroom, hroom', Nat.choose_succ_succ', Nat.add_comm]

/-- All valid lists but the least one come after the least one. -/
theorem rank_least {base count : Nat} (hroom : allowEmpty = false → base + count ≤ maximum) :
    rank maximum allowEmpty (least allowEmpty base count) + 1 =
      ways allowEmpty (maximum - base) count := by
  induction count generalizing base with
  | zero => simp [rank, least, ways]
  | succ count ih =>
      rw [least_succ, rank, length_least]
      cases allowEmpty with
      | true =>
          have hrest : rank maximum true (least true base count) + 1 =
              ways true (maximum - base) count := by
            apply ih
            intro hfalse
            cases hfalse
          calc
            above maximum true base count + rank maximum true (least true base count) + 1
                = above maximum true base count + ways true (maximum - base) count := by
                  rw [Nat.add_assoc, hrest]
            _ = ways true (maximum - base) (count + 1) := by
                  show (maximum - base + count).choose (count + 1) +
                    (maximum - base + count).choose count =
                      (maximum - base + (count + 1)).choose (count + 1)
                  rw [← Nat.add_assoc, Nat.choose_succ_succ', Nat.add_comm]
      | false =>
          have hle := hroom rfl
          have hrest : rank maximum false (least false (base + 1) count) + 1 =
              ways false (maximum - (base + 1)) count := ih fun _ => by omega
          calc
            above maximum false (base + 1) count +
                  rank maximum false (least false (base + 1) count) + 1
                = above maximum false (base + 1) count +
                    ways false (maximum - (base + 1)) count := by
                  rw [Nat.add_assoc, hrest]
            _ = above maximum false base count := (above_eq_add count (by omega)).symm

theorem rank_eq_zero {dividers : List Nat}
    (h : advance? maximum allowEmpty dividers = none) : rank maximum allowEmpty dividers = 0 := by
  induction dividers with
  | nil => rfl
  | cons divider rest ih =>
      simp only [advance?] at h
      split at h
      · cases h
      · rename_i hrest
        split at h
        · cases h
        · rename_i hceiling
          rw [rank, above_eq_zero (Nat.le_of_not_lt hceiling), ih hrest]

/-- An advance leaves one list less to come. -/
theorem rank_advance? {dividers next : List Nat}
    (h : advance? maximum allowEmpty dividers = some next) :
    rank maximum allowEmpty dividers = rank maximum allowEmpty next + 1 := by
  induction dividers generalizing next with
  | nil => cases h
  | cons divider rest ih =>
      simp only [advance?] at h
      split at h
      · rename_i rest' hrest
        cases h
        rw [rank, rank, length_advance? hrest, ih hrest, Nat.add_assoc]
      · rename_i hrest
        split at h
        · rename_i hbelow
          cases h
          have hmaximum : divider < maximum := Nat.lt_of_lt_of_le hbelow (ceiling_le ..)
          have hroom : allowEmpty = false → divider + 1 + rest.length ≤ maximum := by
            rintro rfl
            have hlater : divider < maximum - rest.length := hbelow
            omega
          rw [rank, rank, length_least, rank_eq_zero hrest, above_eq_add rest.length hmaximum,
            ← rank_least hroom]
          rfl
        · cases h

theorem length_onward (maximum : Nat) (allowEmpty : Bool) (dividers : List Nat) :
    (onward maximum allowEmpty dividers).length = rank maximum allowEmpty dividers + 1 := by
  fun_induction onward maximum allowEmpty dividers with
  | case1 dividers hnone => rw [rank_eq_zero hnone, List.length_singleton]
  | case2 dividers next hnext ih => rw [List.length_cons, ih, rank_advance? hnext]

end Dividers

namespace Splits

/-! ### The running product -/

/-- The products that are compared with the limit. -/
theorem choose_mul_sub_eq (n done : Nat) :
    n.choose done * (n - done) = (done + 1) * n.choose (done + 1) := by
  rw [← Nat.choose_succ_right_eq, Nat.mul_comm]

/-- Up to the middle they do not decrease. -/
theorem mul_choose_le_mul_choose {n less k : Nat} (hle : less ≤ k) (hhalf : 2 * k ≤ n) :
    less * n.choose less ≤ k * n.choose k := by
  induction k with
  | zero => rw [Nat.le_zero.mp hle]
  | succ k ih =>
      rcases Nat.lt_or_eq_of_le hle with hlt | rfl
      · calc
          less * n.choose less ≤ k * n.choose k := ih (Nat.le_of_lt_succ hlt) (by omega)
          _ = n.choose k * k := Nat.mul_comm ..
          _ ≤ n.choose k * (n - k) := Nat.mul_le_mul_left _ (by omega)
          _ = (k + 1) * n.choose (k + 1) := choose_mul_sub_eq n k
      · exact Nat.le_refl _

/-- Up to the middle a running product gives a binomial coefficient, unless the last product
reaches the limit: no earlier one is greater. -/
theorem multiplyFactors_eq {n remaining done : Nat} (hhalf : 2 * (done + remaining) ≤ n)
    (hdone : done * n.choose done < productLimit) :
    multiplyFactors n remaining done (n.choose done) =
      if (done + remaining) * n.choose (done + remaining) < productLimit then
        some (n.choose (done + remaining))
      else
        none := by
  induction remaining generalizing done with
  | zero => exact (if_pos hdone).symm
  | succ remaining ih =>
      have hsum : done + (remaining + 1) = done + 1 + remaining := by omega
      rw [hsum] at hhalf
      rw [multiplyFactors, choose_mul_sub_eq, Nat.mul_div_cancel_left _ (Nat.succ_pos done), hsum]
      by_cases hlimit : (done + 1) * n.choose (done + 1) < productLimit
      · rw [if_pos hlimit, ih hhalf hlimit]
      · have hle : (done + 1) * n.choose (done + 1) ≤
            (done + 1 + remaining) * n.choose (done + 1 + remaining) :=
          mul_choose_le_mul_choose (Nat.le_add_right _ _) hhalf
        have hlast : ¬ (done + 1 + remaining) * n.choose (done + 1 + remaining) < productLimit :=
          fun hlt => hlimit (Nat.lt_of_le_of_lt hle hlt)
        rw [if_neg hlimit, if_neg hlast]

/-- The binomial coefficient is given unless the last of its running products, counted from the
nearer end, reaches the limit. -/
theorem binomial?_eq (n k : Nat) :
    binomial? n k =
      if n < k then
        some 0
      else if min k (n - k) * n.choose k < productLimit then
        some (n.choose k)
      else
        none := by
  unfold binomial?
  split
  · rfl
  · rename_i hle
    have hzero : 0 * n.choose 0 < productLimit := by
      rw [Nat.zero_mul]
      decide
    have hhalf : 2 * (0 + min k (n - k)) ≤ n := by omega
    have hchoose : n.choose (min k (n - k)) = n.choose k := by
      rcases Nat.le_total k (n - k) with hsmall | hlarge
      · rw [Nat.min_eq_left hsmall]
      · rw [Nat.min_eq_right hlarge, Nat.choose_symm (Nat.le_of_not_lt hle)]
    rw [← Nat.choose_zero_right n, multiplyFactors_eq hhalf hzero, Nat.zero_add, hchoose]

theorem binomial?_eq_some {n k product : Nat} (h : binomial? n k = some product) :
    product = n.choose k := by
  rw [binomial?_eq] at h
  split at h
  · rename_i hlt
    rw [← Option.some.inj h, Nat.choose_eq_zero_of_lt hlt]
  · split at h
    · exact (Option.some.inj h).symm
    · cases h

end Splits
end PhraseStructure
