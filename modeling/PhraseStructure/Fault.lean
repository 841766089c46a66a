import PhraseStructure.Phrase

/-!
# Faults

A fault is a broken bound or a broken promise inside a computation, as opposed
to an input that the library refuses.  Operations that carry such a bound return
`Except Fault`, so that a caller can state that the bound is kept.

The last five faults belong to promises that the library makes to itself: there
are as many splits as the closed form says, the groups asked of a split exist, a
non-terminal number names an entry of a chart cell, a cell takes no more passes to
be filled than its limit, and goals nest no deeper than their bound.
-/

namespace PhraseStructure

/-- A broken bound or promise. -/
inductive Fault where
  | slice (start stop : Nat) (phrase : Phrase)
  | index (length position : Nat)
  | dividers (dividers : List Nat) (count : Nat)
  | exhausted (dividers : List Nat) (maximum : Nat) (allowEmpty : Bool)
  | addition
  | cell (length start size : Nat)
  | splits (found expected count wanted : Nat) (allowEmpty : Bool)
  | groups (count wanted : Nat)
  | number (given count : Nat)
  | passes
  | depth
deriving DecidableEq

namespace Fault

/-- A list of numbers between brackets. -/
def listed (numbers : List Nat) : String :=
  "[" ++ ", ".intercalate (numbers.map fun n => toString n) ++ "]"

/-- The wording of a fault. -/
def message : Fault → String
  | slice start stop phrase =>
      "slice " ++ toString start ++ ".." ++ toString stop ++
        " out of bounds for token string of length " ++ toString phrase.length ++
        ": '" ++ String.ofList phrase.render ++ "'"
  | index length position =>
      "index out of bounds: the len is " ++ toString length ++
        " but the index is " ++ toString position
  | dividers list count =>
      "invalid divider list " ++ listed list ++ " for " ++ toString count ++ " elements"
  | exhausted list maximum allowEmpty =>
      "cannot advance exhausted divider list " ++ listed list ++
        ", max divider: " ++ toString maximum ++ ", allow empty: " ++ toString allowEmpty
  | addition => "attempt to add with overflow"
  | cell length start size =>
      "cell (" ++ toString length ++ ", " ++ toString start ++
        ") out of bounds for input of length " ++ toString size
  | splits found expected count wanted allowEmpty =>
      "assertion `left == right` failed: partitions of " ++ toString count ++
        " elements into " ++ toString wanted ++ " groups, allow empty: " ++
        toString allowEmpty ++ "\n  left: " ++ toString found ++
        "\n right: " ++ toString expected
  | groups count wanted =>
      "no split of " ++ toString count ++ " elements into " ++ toString wanted ++ " groups"
  | number given count =>
      "non-terminal number " ++ toString given ++ " out of " ++ toString count
  | passes => "a chart cell takes too many passes"
  | depth => "goals nest too deeply"

end Fault

/-- The outcome is no fault, and it is positive exactly if a statement holds. -/
def Decides (outcome : Except Fault Bool) (statement : Prop) : Prop :=
  ∃ verdict, outcome = .ok verdict ∧ (verdict = true ↔ statement)

namespace Decides

variable {outcome other : Except Fault Bool} {statement statement' : Prop}

theorem congr (h : Decides outcome statement) (hiff : statement ↔ statement') :
    Decides outcome statement' := by
  obtain ⟨verdict, houtcome, hverdict⟩ := h
  exact ⟨verdict, houtcome, hverdict.trans hiff⟩

/-- Outcomes that decide the same statement are the same verdict. -/
theorem exists_common (h : Decides outcome statement) (hother : Decides other statement) :
    ∃ verdict, outcome = .ok verdict ∧ other = .ok verdict := by
  obtain ⟨verdict, houtcome, hverdict⟩ := h
  obtain ⟨verdict', hother, hverdict'⟩ := hother
  have hsame : verdict = verdict' := Bool.eq_iff_iff.mpr (hverdict.trans hverdict'.symm)
  exact ⟨verdict, houtcome, hsame ▸ hother⟩

/-- The verdict of an outcome that decides a statement says whether it holds. -/
theorem iff_of_eq_ok {verdict : Bool} (h : Decides outcome statement)
    (houtcome : outcome = .ok verdict) : verdict = true ↔ statement := by
  obtain ⟨verdict', rfl, hverdict⟩ := h
  cases houtcome
  exact hverdict

theorem eq_ok_true (h : Decides outcome statement) (hstatement : statement) :
    outcome = .ok true := by
  obtain ⟨verdict, rfl, hverdict⟩ := h
  rw [hverdict.mpr hstatement]

theorem eq_ok_false (h : Decides outcome statement) (hstatement : ¬ statement) :
    outcome = .ok false := by
  obtain ⟨verdict, rfl, hverdict⟩ := h
  rw [Bool.eq_false_iff.mpr fun htrue => hstatement (hverdict.mp htrue)]

theorem eq_ok_decide [Decidable statement] (h : Decides outcome statement) :
    outcome = .ok (decide statement) := by
  obtain ⟨verdict, rfl, hverdict⟩ := h
  rw [Bool.eq_iff_iff.mpr (hverdict.trans decide_eq_true_iff.symm)]

/-- A search through a list decides whether some item passes the test. -/
theorem anyM {α : Type} {test : α → Except Fault Bool} {list : List α} {statement : α → Prop}
    (h : ∀ item ∈ list, Decides (test item) (statement item)) :
    Decides (list.anyM test) (∃ item ∈ list, statement item) := by
  induction list with
  | nil => exact ⟨false, rfl, by simp⟩
  | cons item list ih =>
      obtain ⟨verdict, hitem, hverdict⟩ := h item List.mem_cons_self
      have hlist := ih fun other hother => h other (List.mem_cons_of_mem _ hother)
      rw [List.anyM, hitem]
      cases verdict with
      | true =>
          have hstatement := hverdict.mp rfl
          exact ⟨true, rfl, by simp [hstatement]⟩
      | false =>
          have hnot : ¬ statement item := fun hstatement => nomatch hverdict.mpr hstatement
          exact hlist.congr (by simp [hnot])

theorem anyM_map {α β : Type} {transform : β → α} {test : α → Except Fault Bool} {list : List β}
    {statement : β → Prop} (h : ∀ item ∈ list, Decides (test (transform item)) (statement item)) :
    Decides ((list.map transform).anyM test) (∃ item ∈ list, statement item) := by
  have hmap : (list.map transform).anyM test = list.anyM fun item => test (transform item) := by
    clear h
    induction list with
    | nil => rfl
    | cons item list ih => rw [List.map_cons, List.anyM, List.anyM, ih]
  rw [hmap]
  exact anyM h

end Decides

namespace Phrase

/-- The tokens from `start` up to `stop`, within bounds. -/
def slice (phrase : Phrase) (start stop : Nat) : Except Fault Phrase :=
  if start ≤ stop ∧ stop ≤ phrase.length then
    .ok (phrase.span start stop)
  else
    .error (.slice start stop phrase)

/-- The token at a position, within bounds. -/
def tokenAt (phrase : Phrase) (position : Nat) : Except Fault Token :=
  match phrase[position]? with
  | some token => .ok token
  | none => .error (.index phrase.length position)

theorem slice_eq_ok {phrase : Phrase} {start stop : Nat}
    (h : start ≤ stop ∧ stop ≤ phrase.length) :
    phrase.slice start stop = .ok (phrase.span start stop) := by
  simp [slice, h]

theorem slice_eq_error {phrase : Phrase} {start stop : Nat}
    (h : ¬ (start ≤ stop ∧ stop ≤ phrase.length)) :
    phrase.slice start stop = .error (.slice start stop phrase) :=
  if_neg h

end Phrase
end PhraseStructure
