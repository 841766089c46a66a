import PhraseStructure.Fault

/-!
# Divider lists

A sequence of `n` elements is cut into `k` contiguous groups by a list of `k - 1`
dividers: divider `i` is the position at which group `i` ends and group `i + 1`
begins.  Dividers never decrease and never exceed `n`; without empty groups they
increase strictly and lie between `1` and `n - 1`.

`advance?` gives the next divider list in lexicographic order.  It looks for the
pivot, the rightmost divider that has not reached its ceiling, adds one to it,
and gives every later divider its least value.  It is defined on every list, also
on one that cuts nothing; such lists only have to be finite for the advance to
come to an end.
-/

namespace PhraseStructure
namespace Dividers

/-- The greatest value of a divider that has `later` dividers behind it. -/
def ceiling (maximum : Nat) (allowEmpty : Bool) (later : Nat) : Nat :=
  if allowEmpty then maximum else maximum - later

/-- The position of the rightmost divider below its ceiling. -/
def pivot? (maximum : Nat) (allowEmpty : Bool) : List Nat → Option Nat
  | [] => none
  | divider :: rest =>
      match pivot? maximum allowEmpty rest with
      | some position => some (position + 1)
      | none => if divider < ceiling maximum allowEmpty rest.length then some 0 else none

/-- The least values of `count` dividers behind one of value `base`. -/
def least (allowEmpty : Bool) (base : Nat) : Nat → List Nat
  | 0 => []
  | count + 1 =>
      let next := if allowEmpty then base else base + 1
      next :: least allowEmpty next count

/-- The least divider list for a number of groups. -/
def first (groups : Nat) (allowEmpty : Bool) : List Nat :=
  least allowEmpty 0 (groups - 1)

/-- The next divider list in lexicographic order, if there is one. -/
def advance? (maximum : Nat) (allowEmpty : Bool) : List Nat → Option (List Nat)
  | [] => none
  | divider :: rest =>
      match advance? maximum allowEmpty rest with
      | some rest => some (divider :: rest)
      | none =>
          if divider < ceiling maximum allowEmpty rest.length then
            some ((divider + 1) :: least allowEmpty (divider + 1) rest.length)
          else
            none

/-- The next divider list in lexicographic order. -/
def advance (maximum : Nat) (allowEmpty : Bool) (dividers : List Nat) :
    Except Fault (List Nat) :=
  match advance? maximum allowEmpty dividers with
  | some next => .ok next
  | none => .error (.exhausted dividers maximum allowEmpty)

/-- Cut what is left of a sequence, from position `start` on, at the dividers
that are left.  The whole divider list and the number of all elements are for
the fault. -/
def cutFrom {α : Type _} (whole : List Nat) (count start : Nat) :
    List Nat → List α → Except Fault (List (List α))
  | [], elements => .ok [elements]
  | stop :: rest, elements =>
      if start ≤ stop ∧ stop ≤ count then do
        let groups ← cutFrom whole count stop rest (elements.drop (stop - start))
        return elements.take (stop - start) :: groups
      else
        .error (.dividers whole count)

/-- The groups into which a divider list cuts a sequence. -/
def cut {α : Type _} (elements : List α) (dividers : List Nat) :
    Except Fault (List (List α)) :=
  cutFrom dividers elements.length 0 dividers elements

/-! ### The advance comes to an end -/

@[simp] theorem length_least (allowEmpty : Bool) (base count : Nat) :
    (least allowEmpty base count).length = count := by
  induction count generalizing base with
  | zero => rfl
  | succ count ih => simp [least, ih]

theorem ceiling_le (maximum : Nat) (allowEmpty : Bool) (later : Nat) :
    ceiling maximum allowEmpty later ≤ maximum := by
  unfold ceiling
  split
  · exact Nat.le_refl _
  · exact Nat.sub_le _ _

theorem length_advance? {maximum : Nat} {allowEmpty : Bool} {dividers next : List Nat}
    (h : advance? maximum allowEmpty dividers = some next) :
    next.length = dividers.length := by
  induction dividers generalizing next with
  | nil => simp [advance?] at h
  | cons divider rest ih =>
      simp only [advance?] at h
      split at h
      · rename_i rest' hrest
        cases h
        simp [ih hrest]
      · split at h
        · cases h
          simp
        · simp at h

/-- How far a divider list is from the end of the advance: the distances of its
entries from the maximum, read as digits. -/
def distance (maximum : Nat) : List Nat → Nat
  | [] => 0
  | divider :: rest =>
      (maximum - divider) * Nat.pow (maximum + 1) rest.length + distance maximum rest

theorem distance_lt (maximum : Nat) (dividers : List Nat) :
    distance maximum dividers < Nat.pow (maximum + 1) dividers.length := by
  induction dividers with
  | nil => exact Nat.zero_lt_one
  | cons divider rest ih =>
      have hdigit : (maximum - divider) * Nat.pow (maximum + 1) rest.length ≤
          maximum * Nat.pow (maximum + 1) rest.length :=
        Nat.mul_le_mul_right _ (Nat.sub_le _ _)
      have hpow : Nat.pow (maximum + 1) (rest.length + 1) =
          maximum * Nat.pow (maximum + 1) rest.length + Nat.pow (maximum + 1) rest.length := by
        show Nat.pow (maximum + 1) rest.length * (maximum + 1) = _
        rw [Nat.mul_comm, Nat.succ_mul]
      simp only [distance, List.length_cons]
      omega

theorem distance_advance? {maximum : Nat} {allowEmpty : Bool} {dividers next : List Nat}
    (h : advance? maximum allowEmpty dividers = some next) :
    distance maximum next < distance maximum dividers := by
  induction dividers generalizing next with
  | nil => simp [advance?] at h
  | cons divider rest ih =>
      simp only [advance?] at h
      split at h
      · rename_i rest' hrest
        cases h
        simp only [distance, length_advance? hrest]
        exact Nat.add_lt_add_left (ih hrest) _
      · split at h
        · rename_i hbelow
          cases h
          have hmax : divider < maximum := Nat.lt_of_lt_of_le hbelow (ceiling_le ..)
          have htail := distance_lt maximum (least allowEmpty (divider + 1) rest.length)
          have hdigit : maximum - divider = (maximum - (divider + 1)) + 1 := by omega
          simp only [distance, length_least] at htail ⊢
          rw [hdigit, Nat.succ_mul]
          omega
        · simp at h

end Dividers
end PhraseStructure
