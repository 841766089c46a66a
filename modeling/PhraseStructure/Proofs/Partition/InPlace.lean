import Mathlib.Data.List.Lex
import PhraseStructure.Proofs.Partition.Cutting
import PhraseStructure.Proofs.Words

/-!
# Advancing a divider list in place

The advance can overwrite the list that it advances: it looks for the pivot, adds one to it, and
then writes the dividers behind it, one after another, each from the raised pivot.  The sums are
formed in machine words.  `Editing` keeps the list beside the outcome, so that it is known what a
fault leaves behind.

A list without a pivot is a fault and stays as it is.  From any other list the result is
`Dividers.advance`, whether or not the list cuts anything, and no sum overflows.  The list need
not be valid for the result to be greater, nor for all valid lists in between to be missing.  It
has to be valid for the result to be a valid list.
-/

namespace PhraseStructure
namespace Dividers

/-- A computation that changes a divider list; a fault leaves the list as it is then. -/
abbrev Editing := ExceptT Fault (StateM (List Nat))

namespace Editing

variable {α : Type}

theorem run_get_bind (next : List Nat → Editing α) (dividers : List Nat) :
    (get >>= next).run.run dividers = (next dividers).run.run dividers := rfl

theorem run_set_bind (written : List Nat) (next : Unit → Editing α)
    (dividers : List Nat) :
    (set written >>= next).run.run dividers = (next ()).run.run written := rfl

theorem run_modify_bind (change : List Nat → List Nat) (next : Unit → Editing α)
    (dividers : List Nat) :
    (modify change >>= next).run.run dividers = (next ()).run.run (change dividers) := rfl

/-- What follows an edit starts with the list that the edit leaves. -/
theorem run_bind_of_run {edit : Editing Unit} {dividers written : List Nat}
    (h : edit.run.run dividers = (.ok (), written)) (next : Unit → Editing α) :
    (edit >>= next).run.run dividers = (next ()).run.run written := by
  rw [ExceptT.run_bind, StateT.run_bind, h]
  rfl

end Editing

/-- A number computed in words; it is a fault if there is none. -/
def inWords (number : Option Nat) : Editing Nat :=
  match number with
  | some number => pure number
  | none => throw .addition

theorem inWords_some (number : Nat) : inWords (some number) = pure number := rfl

/-- The least value of a divider behind one of value `base`, with `offset` others between them,
computed in words. -/
def resetInWords? (allowEmpty : Bool) (base offset : Nat) : Option Nat :=
  if allowEmpty then some base else do
    let before ← Word.sum? base offset
    Word.sum? before 1

/-- Write `count` dividers behind the pivot, whose value is `base`, with `offset` others between
it and the first of them. -/
def writeLeast (allowEmpty : Bool) (pivot base : Nat) : Nat → Nat → Editing Unit
  | _, 0 => pure ()
  | offset, count + 1 => do
      let divider ← inWords (resetInWords? allowEmpty base offset)
      modify fun dividers => dividers.set (pivot + 1 + offset) divider
      writeLeast allowEmpty pivot base (offset + 1) count

/-- Advance a divider list in place, in words. -/
def advanceInPlace (maximum : Nat) (allowEmpty : Bool) : Editing Unit := do
  let dividers ← get
  match pivot? maximum allowEmpty dividers with
  | none => throw (.exhausted dividers maximum allowEmpty)
  | some pivot =>
      match dividers[pivot]? with
      | none => throw (.index dividers.length pivot)
      | some divider => do
          let base ← inWords (Word.sum? divider 1)
          set (dividers.set pivot base)
          writeLeast allowEmpty pivot base 0 (dividers.length - (pivot + 1))

/-- Advance a divider list in place a number of times. -/
def advanceTimes (maximum : Nat) (allowEmpty : Bool) : Nat → Editing Unit
  | 0 => pure ()
  | times + 1 => do
      advanceInPlace maximum allowEmpty
      advanceTimes maximum allowEmpty times

variable {maximum : Nat} {allowEmpty : Bool}

/-! ### What one advance does -/

/-- A divider list with a pivot: the divider there is below its ceiling, it is raised by one, and
the dividers behind it become the least ones. -/
theorem exists_of_pivot? {dividers : List Nat} {pivot : Nat}
    (h : pivot? maximum allowEmpty dividers = some pivot) :
    ∃ before divider rest, dividers = before ++ divider :: rest ∧ before.length = pivot ∧
      divider < ceiling maximum allowEmpty rest.length ∧
      advance? maximum allowEmpty dividers =
        some (before ++ (divider + 1) :: least allowEmpty (divider + 1) rest.length) := by
  induction dividers generalizing pivot with
  | nil => cases h
  | cons first others ih =>
      rw [advance?]
      cases hpivot : pivot? maximum allowEmpty others with
      | some position =>
          simp only [pivot?, hpivot, Option.some.injEq] at h
          subst h
          obtain ⟨before, divider, rest, rfl, rfl, hbelow, hadvance⟩ := ih hpivot
          rw [hadvance]
          exact ⟨first :: before, divider, rest, rfl, rfl, hbelow, rfl⟩
      | none =>
          simp only [pivot?, hpivot] at h
          rw [pivot?_eq_none_iff.mp hpivot]
          split at h
          · rename_i hbelow
            cases h
            exact ⟨[], first, others, rfl, rfl, hbelow, if_pos hbelow⟩
          · cases h

theorem leastInWords?_succ (allowEmpty : Bool) (base offset count : Nat) :
    leastInWords? allowEmpty base offset (count + 1) =
      (resetInWords? allowEmpty base offset).bind fun divider =>
        (leastInWords? allowEmpty base (offset + 1) count).bind fun rest =>
          some (divider :: rest) := by
  cases allowEmpty with
  | true => rfl
  | false => cases hbefore : Word.sum? base offset <;> simp [leastInWords?, resetInWords?, hbefore]

theorem run_writeLeast {pivot base offset : Nat} {front rest later : List Nat}
    (hfront : front.length = pivot + 1 + offset)
    (h : leastInWords? allowEmpty base offset rest.length = some later) :
    (writeLeast allowEmpty pivot base offset rest.length).run.run (front ++ rest) =
      (.ok (), front ++ later) := by
  induction rest generalizing front offset later with
  | nil =>
      cases h
      rfl
  | cons old rest ih =>
      rw [List.length_cons, leastInWords?_succ] at h
      obtain ⟨divider, hdivider, hmore⟩ := Option.bind_eq_some_iff.mp h
      obtain ⟨others, hothers, hlater⟩ := Option.bind_eq_some_iff.mp hmore
      obtain rfl := Option.some.inj hlater
      have hwritten : (front ++ old :: rest).set (pivot + 1 + offset) divider =
          (front ++ [divider]) ++ rest := by
        rw [← hfront]
        simp
      have hfront' : (front ++ [divider]).length = pivot + 1 + (offset + 1) := by
        rw [List.length_append, hfront]
        rfl
      have hrest := ih hfront' hothers
      rw [← hwritten] at hrest
      rw [List.length_cons, writeLeast, hdivider, inWords_some, pure_bind,
        Editing.run_modify_bind, hrest, List.append_assoc]
      rfl

/-- With a pivot, the list that is advanced in place is its advance. -/
theorem run_advanceInPlace (hmaximum : maximum < Splits.wordLimit) {dividers next : List Nat}
    (h : advance? maximum allowEmpty dividers = some next) :
    (advanceInPlace maximum allowEmpty).run.run dividers = (.ok (), next) := by
  cases hpivot : pivot? maximum allowEmpty dividers with
  | none =>
      rw [pivot?_eq_none_iff.mp hpivot] at h
      cases h
  | some pivot =>
      obtain ⟨before, divider, rest, rfl, rfl, hbelow, hadvance⟩ := exists_of_pivot? hpivot
      rw [h] at hadvance
      cases hadvance
      obtain ⟨hsum, hleast⟩ := leastInWords?_of_lt_ceiling hmaximum hbelow
      have hfront : (before ++ [divider + 1]).length = before.length + 1 + 0 := by simp
      have hlater := run_writeLeast hfront hleast
      have hdivider : (before ++ divider :: rest)[before.length]? = some divider := by simp
      have hraised : (before ++ divider :: rest).set before.length (divider + 1) =
          before ++ [divider + 1] ++ rest := by simp
      have hcount : (before ++ divider :: rest).length - (before.length + 1) = rest.length := by
        rw [List.length_append, List.length_cons]
        omega
      rw [advanceInPlace, Editing.run_get_bind]
      simp only [hpivot, hdivider, hsum, inWords_some, pure_bind]
      rw [Editing.run_set_bind, hraised, hcount, hlater, List.append_assoc]
      rfl

/-- Without a pivot the list stays as it is. -/
theorem run_advanceInPlace_of_exhausted {dividers : List Nat}
    (h : pivot? maximum allowEmpty dividers = none) :
    (advanceInPlace maximum allowEmpty).run.run dividers =
      (.error (.exhausted dividers maximum allowEmpty), dividers) := by
  rw [advanceInPlace, Editing.run_get_bind, h]
  rfl

/-- The list before the pivot is kept, and from the pivot on no divider passes the maximum. -/
theorem take_and_drop_of_advance? {dividers next : List Nat} {pivot : Nat}
    (hpivot : pivot? maximum allowEmpty dividers = some pivot)
    (h : advance? maximum allowEmpty dividers = some next) :
    next.take pivot = dividers.take pivot ∧ ∀ divider ∈ next.drop pivot, divider ≤ maximum := by
  obtain ⟨before, divider, rest, rfl, rfl, hbelow, hadvance⟩ := exists_of_pivot? hpivot
  rw [h] at hadvance
  obtain rfl := Option.some.inj hadvance
  obtain ⟨hmaximum, hvalid⟩ := valid_least_of_lt_ceiling hbelow
  refine ⟨by simp, ?_⟩
  rw [List.drop_left, List.forall_mem_cons]
  exact ⟨hmaximum, fun later hlater => ((valid_iff.mp hvalid).2 later hlater).2⟩

/-! ### The successor -/

/-- No valid list of the same length lies strictly between a list and its advance. -/
theorem not_between_advance? {dividers next other : List Nat}
    (h : advance? maximum allowEmpty dividers = some next)
    (hvalid : Valid maximum allowEmpty 0 other) (hlength : other.length = dividers.length) :
    ¬ (List.Lex (· < ·) dividers other ∧ List.Lex (· < ·) other next) := by
  rintro ⟨hbefore, hafter⟩
  obtain ⟨next', hnext', horder⟩ := advance?_of_lex hvalid hlength hbefore
  rw [h] at hnext'
  obtain rfl := Option.some.inj hnext'
  rcases horder with rfl | hlex
  · exact List.lex_irrefl Nat.lt_irrefl _ hafter
  · exact List.lex_asymm Nat.lt_asymm hafter hlex

/-- Of the valid lists of one length only the greatest one has no pivot. -/
theorem pivot?_eq_none_iff_greatest {dividers : List Nat}
    (hvalid : Valid maximum allowEmpty 0 dividers) :
    pivot? maximum allowEmpty dividers = none ↔
      ∀ other, Valid maximum allowEmpty 0 other → other.length = dividers.length →
        other = dividers ∨ List.Lex (· < ·) other dividers := by
  rw [pivot?_eq_none_iff]
  constructor
  · intro hnone other hother hlength
    rcases trichotomous_of (List.Lex (· < ·)) other dividers with hlt | heq | hgt
    · exact .inr hlt
    · exact .inl heq
    · obtain ⟨next, hnext, _⟩ := advance?_of_lex hother hlength hgt
      rw [hnone] at hnext
      cases hnext
  · intro hgreatest
    cases hnext : advance? maximum allowEmpty dividers with
    | none => rfl
    | some next =>
        have hlex := lex_advance? hnext
        rcases hgreatest next (valid_advance? hvalid hnext) (length_advance? hnext) with rfl | hlex'
        · exact absurd hlex (List.lex_irrefl Nat.lt_irrefl _)
        · exact absurd hlex' (List.lex_asymm Nat.lt_asymm hlex)

/-- Repeated advances come to an end, from any list. -/
theorem exists_advanceTimes (hmaximum : maximum < Splits.wordLimit) (dividers : List Nat) :
    ∃ times last, (advanceTimes maximum allowEmpty times).run.run dividers = (.ok (), last) ∧
      pivot? maximum allowEmpty last = none := by
  fun_induction onward maximum allowEmpty dividers with
  | case1 dividers hnone => exact ⟨0, dividers, rfl, pivot?_eq_none_iff.mpr hnone⟩
  | case2 dividers next hnext ih =>
      obtain ⟨times, last, hrun, hlast⟩ := ih
      refine ⟨times + 1, last, ?_, hlast⟩
      rw [advanceTimes, Editing.run_bind_of_run (run_advanceInPlace hmaximum hnext)]
      exact hrun

/-- Without a pivot the advance is a fault that leaves the list as it is.  With a pivot it is
none, in words and in place: the list before the pivot is kept, from the pivot on no divider
passes the maximum, the list becomes greater, and no valid list lies between.  From any list
repeated advances lead to one without a pivot.  The advance of a valid list is valid, and a valid
list has no pivot exactly if it is the greatest of its length. -/
theorem advance_in_place_is_successor (hmaximum : maximum < Splits.wordLimit) (allowEmpty : Bool)
    (dividers : List Nat) :
    (pivot? maximum allowEmpty dividers = none →
        advance maximum allowEmpty dividers = .error (.exhausted dividers maximum allowEmpty) ∧
          (advanceInPlace maximum allowEmpty).run.run dividers =
            (.error (.exhausted dividers maximum allowEmpty), dividers)) ∧
      (∀ pivot, pivot? maximum allowEmpty dividers = some pivot →
        ∃ next, advance maximum allowEmpty dividers = .ok next ∧
          (advanceInPlace maximum allowEmpty).run.run dividers = (.ok (), next) ∧
          next.length = dividers.length ∧
          next.take pivot = dividers.take pivot ∧
          (∀ divider ∈ next.drop pivot, divider ≤ maximum) ∧
          List.Lex (· < ·) dividers next ∧
          (∀ other, Valid maximum allowEmpty 0 other → other.length = dividers.length →
            ¬ (List.Lex (· < ·) dividers other ∧ List.Lex (· < ·) other next)) ∧
          (Valid maximum allowEmpty 0 dividers → Valid maximum allowEmpty 0 next)) ∧
      (∃ times last, (advanceTimes maximum allowEmpty times).run.run dividers = (.ok (), last) ∧
        pivot? maximum allowEmpty last = none) ∧
      (Valid maximum allowEmpty 0 dividers →
        (pivot? maximum allowEmpty dividers = none ↔
          ∀ other, Valid maximum allowEmpty 0 other → other.length = dividers.length →
            other = dividers ∨ List.Lex (· < ·) other dividers)) := by
  refine ⟨fun hnone => ⟨?_, run_advanceInPlace_of_exhausted hnone⟩, fun pivot hpivot => ?_,
    exists_advanceTimes hmaximum dividers, pivot?_eq_none_iff_greatest⟩
  · rw [advance, pivot?_eq_none_iff.mp hnone]
  · obtain ⟨next, hnext⟩ := exists_advance?_of_pivot? hpivot
    obtain ⟨htake, hdrop⟩ := take_and_drop_of_advance? hpivot hnext
    refine ⟨next, ?_, run_advanceInPlace hmaximum hnext, length_advance? hnext, htake, hdrop,
      lex_advance? hnext, fun other => not_between_advance? hnext,
      fun hvalid => valid_advance? hvalid hnext⟩
    rw [advance, hnext]

/-- A list that cuts nothing is advanced all the same, and the greatest valid list is not. -/
theorem advance_in_place_is_successor_falling :
    (∃ next, advance 3 true [5, 0] = .ok next ∧
        (advanceInPlace 3 true).run.run [5, 0] = (.ok (), next) ∧ next.take 1 = [5] ∧
        ∀ divider ∈ next.drop 1, divider ≤ 3) ∧
      (advanceInPlace 3 false).run.run [2, 3] = (.error (.exhausted [2, 3] 3 false), [2, 3]) ∧
      ∀ other, Valid 3 false 0 other → other.length = 2 →
        other = [2, 3] ∨ List.Lex (· < ·) other [2, 3] := by
  have hwords : 3 < Splits.wordLimit := by decide
  obtain ⟨_, hadvances, _⟩ := advance_in_place_is_successor hwords true [5, 0]
  obtain ⟨next, hnext, hrun, _, htake, hdrop, _⟩ := hadvances 1 rfl
  obtain ⟨hexhausted, _, _, hgreatest⟩ := advance_in_place_is_successor hwords false [2, 3]
  have hvalid : Valid 3 false 0 [2, 3] := by simp [Valid, lowest]
  exact ⟨⟨next, hnext, hrun, htake, hdrop⟩, (hexhausted rfl).2, (hgreatest hvalid).mp rfl⟩

end Dividers
end PhraseStructure
