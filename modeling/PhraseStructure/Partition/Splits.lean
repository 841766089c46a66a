import PhraseStructure.Partition.Count
import PhraseStructure.Partition.Dividers

/-!
# All splits of a sequence

A split writes a sequence as a concatenation of a given number of contiguous
groups, with or without empty groups.  `Splits` runs through them in
lexicographic order of their divider lists; after the last one it has nothing
more to give.

There is no split into no groups, and without empty groups there is none into
more groups than elements.  Such a request is refused; a caller that has ruled it
out uses `Splits.trusted`, for which it is a fault.  It is also a fault if a list
of all splits has not the length that the closed form gives.
-/

namespace PhraseStructure

/-- Why a sequence cannot be split; a fault inside the splitting is passed on. -/
inductive SplitError where
  | noGroups
  | emptySequence (groups : Nat)
  | tooFewElements (count groups : Nat)
  | fault (fault : Fault)
deriving DecidableEq

namespace SplitError

/-- The wording of a refusal. -/
def message : SplitError → String
  | noGroups => "number of groups must be positive, got: 0"
  | emptySequence groups =>
      "cannot split an empty sequence into " ++ toString groups ++ " non-empty groups"
  | tooFewElements count groups =>
      "cannot split " ++ toString count ++ " elements into " ++ toString groups ++
        " non-empty groups"
  | fault cause => cause.message

end SplitError

/-- What is left of the splits of a sequence. -/
structure Splits (α : Type _) where
  elements : List α
  dividers : Option (List Nat)
  maximum : Nat
  allowEmpty : Bool

namespace Splits

variable {α : Type _}

/-- Why `count` elements have no split into `groups` groups. -/
def refusal? (count groups : Nat) (allowEmpty : Bool) : Option SplitError :=
  if groups = 0 then
    some .noGroups
  else if !allowEmpty && count = 0 then
    some (.emptySequence groups)
  else if !allowEmpty && count < groups then
    some (.tooFewElements count groups)
  else
    none

/-- All splits of a sequence that has some. -/
def all (elements : List α) (groups : Nat) (allowEmpty : Bool) : Splits α where
  elements := elements
  dividers := some (Dividers.first groups allowEmpty)
  maximum := if allowEmpty then elements.length else elements.length - 1
  allowEmpty := allowEmpty

/-- All splits of a sequence, unless there are none. -/
def make (elements : List α) (groups : Nat) (allowEmpty : Bool) :
    Except SplitError (Splits α) :=
  match refusal? elements.length groups allowEmpty with
  | some error => .error error
  | none => .ok (all elements groups allowEmpty)

/-- All splits of a sequence that is known to have some. -/
def trusted (elements : List α) (groups : Nat) (allowEmpty : Bool) :
    Except Fault (Splits α) :=
  match refusal? elements.length groups allowEmpty with
  | some _ => .error (.groups elements.length groups)
  | none => .ok (all elements groups allowEmpty)

/-- The next split and what is left after it. -/
def next? (splits : Splits α) : Except Fault (Option (List (List α) × Splits α)) :=
  match splits.dividers with
  | none => .ok none
  | some dividers => do
      let groups ← Dividers.cut splits.elements dividers
      let later := Dividers.advance? splits.maximum splits.allowEmpty dividers
      return some (groups, ⟨splits.elements, later, splits.maximum, splits.allowEmpty⟩)

/-- A bound on the number of splits that are left. -/
def remaining (splits : Splits α) : Nat :=
  match splits.dividers with
  | none => 0
  | some dividers => Dividers.distance splits.maximum dividers + 1

theorem remaining_next? {splits rest : Splits α} {groups : List (List α)}
    (h : splits.next? = .ok (some (groups, rest))) : rest.remaining < splits.remaining := by
  unfold next? at h
  split at h
  · simp at h
  · rename_i dividers hdividers
    cases hcut : Dividers.cut splits.elements dividers with
    | error fault => simp [hcut, bind, Except.bind] at h
    | ok cut =>
        simp only [hcut, bind, Except.bind, pure, Except.pure, Except.ok.injEq,
          Option.some.injEq, Prod.mk.injEq] at h
        obtain ⟨-, rfl⟩ := h
        simp only [remaining, hdividers]
        split
        · omega
        · rename_i hnext
          exact Nat.succ_lt_succ (Dividers.distance_advance? hnext)

/-- The splits that are left, in order. -/
def toList (splits : Splits α) : Except Fault (List (List (List α))) :=
  match _ : splits.next? with
  | .error fault => .error fault
  | .ok none => .ok []
  | .ok (some (groups, rest)) => do
      let more ← rest.toList
      return groups :: more
termination_by splits.remaining
decreasing_by
  rename_i h
  exact remaining_next? h

/-- Some split that is left passes a test; splits after the first such one are
not tested. -/
def anyM {m : Type → Type _} [Monad m] [MonadExceptOf Fault m]
    (test : List (List α) → m Bool) (splits : Splits α) : m Bool :=
  match _ : splits.next? with
  | .error fault => throw fault
  | .ok none => pure false
  | .ok (some (groups, rest)) => do
      if ← test groups then
        pure true
      else
        anyM test rest
termination_by splits.remaining
decreasing_by
  rename_i h
  exact remaining_next? h

/-- The outcomes of asking for the next split a number of times. -/
def outcomes : Nat → Splits α → Except Fault (List (Option (List (List α))))
  | 0, _ => .ok []
  | count + 1, splits => do
      match ← splits.next? with
      | none => return none :: (← outcomes count splits)
      | some (groups, rest) => return some groups :: (← outcomes count rest)

/-- A list of splits that is as long as the closed form says, where it says
anything. -/
def counted (elements : List α) (groups : Nat) (allowEmpty : Bool)
    (list : List (List (List α))) : Except Fault (List (List (List α))) := do
  match ← count? elements.length groups allowEmpty with
  | none => return list
  | some expected =>
      if list.length = expected then
        return list
      else
        throw (.splits list.length expected elements.length groups allowEmpty)

/-- Every split of a sequence into a number of groups, in order. -/
def list (elements : List α) (groups : Nat) (allowEmpty : Bool) :
    Except SplitError (List (List (List α))) := do
  let splits ← make elements groups allowEmpty
  if groups = 1 then
    return [[elements]]
  else
    (splits.toList >>= counted elements groups allowEmpty).mapError .fault

end Splits
end PhraseStructure
