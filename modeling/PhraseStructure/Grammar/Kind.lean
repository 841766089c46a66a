import PhraseStructure.Grammar.Basic

/-!
# Kinds of grammars

The four classes of the Chomsky hierarchy, numbered from the least restrictive
to the most restrictive.  A grammar's kind is the most restrictive class to
which all its rules belong.  For the regular class all rules have to lean to
the same side.

A grammar without rules is regular.
-/

namespace PhraseStructure

/-- A class of the Chomsky hierarchy. -/
inductive Kind where
  | unrestricted
  | contextSensitive
  | contextFree
  | regular
deriving DecidableEq

namespace Kind

/-- The type number of a class, 0 through 3. -/
def rank : Kind → Nat
  | unrestricted => 0
  | contextSensitive => 1
  | contextFree => 2
  | regular => 3

/-- The written name of a class. -/
def name : Kind → String
  | unrestricted => "unrestricted"
  | contextSensitive => "context-sensitive"
  | contextFree => "context-free"
  | regular => "regular"

/-- The type number and the name of a class. -/
def render (kind : Kind) : String :=
  "type " ++ toString kind.rank ++ " (" ++ kind.name ++ ")"

/-- The order from the least restrictive class to the most restrictive. -/
def order (left right : Kind) : Ordering :=
  if left.rank < right.rank then .lt else if left = right then .eq else .gt

end Kind

namespace Grammar

/-- Every rule is context-free. -/
def isContextFree (grammar : Grammar) : Bool :=
  grammar.rules.all fun rule => rule.isContextFree grammar.sorts

/-- Every rule is context-sensitive. -/
def isContextSensitive (grammar : Grammar) : Bool :=
  grammar.rules.all fun rule => rule.isContextSensitive grammar.sorts

/-- Every rule is left regular. -/
def isLeftRegular (grammar : Grammar) : Bool :=
  grammar.rules.all fun rule => rule.isLeftRegular grammar.sorts

/-- Every rule is right regular. -/
def isRightRegular (grammar : Grammar) : Bool :=
  grammar.rules.all fun rule => rule.isRightRegular grammar.sorts

/-- Every rule is monotonic. -/
def isMonotonic (grammar : Grammar) : Bool :=
  grammar.rules.all Rule.isMonotonic

/-- Some rule has an empty alternative. -/
def hasEpsilon (grammar : Grammar) : Bool :=
  grammar.rules.any Rule.hasEpsilon

/-- The most restrictive class that holds every rule. -/
def kind (grammar : Grammar) : Kind :=
  if grammar.isLeftRegular || grammar.isRightRegular then
    .regular
  else if grammar.isContextFree then
    .contextFree
  else if grammar.isContextSensitive then
    .contextSensitive
  else
    .unrestricted

theorem isContextFree_of_isLeftRegular {grammar : Grammar} (h : grammar.isLeftRegular = true) :
    grammar.isContextFree = true := by
  simp only [isLeftRegular, List.all_eq_true, Rule.isLeftRegular, Bool.and_eq_true] at h
  rw [isContextFree, List.all_eq_true]
  exact fun rule hrule => (h rule hrule).1

theorem isContextFree_of_isRightRegular {grammar : Grammar} (h : grammar.isRightRegular = true) :
    grammar.isContextFree = true := by
  simp only [isRightRegular, List.all_eq_true, Rule.isRightRegular, Bool.and_eq_true] at h
  rw [isContextFree, List.all_eq_true]
  exact fun rule hrule => (h rule hrule).1

/-- The kind is at least context-free exactly if every rule is context-free. -/
theorem rank_contextFree_le_iff {grammar : Grammar} :
    Kind.contextFree.rank ≤ grammar.kind.rank ↔ grammar.isContextFree = true := by
  unfold kind
  split
  · rename_i hregular
    refine iff_of_true (by decide) ?_
    rcases Bool.or_eq_true_iff.mp hregular with hleft | hright
    · exact isContextFree_of_isLeftRegular hleft
    · exact isContextFree_of_isRightRegular hright
  · split
    · rename_i hcontextFree
      exact iff_of_true (by decide) hcontextFree
    · rename_i hcontextFree
      refine iff_of_false ?_ hcontextFree
      split <;> decide

end Grammar
end PhraseStructure
