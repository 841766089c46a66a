import PhraseStructure.SortTable

/-!
# Production rules

A rule replaces its left-hand phrase by any one of its alternatives.  The
left-hand phrase is never empty, there is at least one alternative, and no
alternative is listed twice.  An empty alternative is an ε production.

Alternatives keep the order in which they were first given, but two rules are
the same when they have the same left-hand phrase and the same set of
alternatives.

The predicates on the shape of a rule that mention sorts come in two forms.  The
plain one reads an unclassified token as neither terminal nor non-terminal; the
one through `Rule.checked` refuses a rule with unclassified tokens.
-/

namespace PhraseStructure

theorem nodup_eraseDups {α : Type _} [BEq α] [LawfulBEq α] (items : List α) :
    items.eraseDups.Nodup := by
  match items with
  | [] => exact List.nodup_nil
  | item :: rest =>
      rw [List.eraseDups_cons]
      refine List.nodup_cons.mpr ⟨?_, nodup_eraseDups _⟩
      simp
termination_by items.length
decreasing_by
  simp only [List.length_cons]
  exact Nat.lt_succ_of_le (List.length_filter_le _ _)

/-- A left-hand phrase and its distinct alternatives. -/
structure Rule where
  lhs : Phrase
  alternatives : List Phrase
  lhs_ne_nil : lhs ≠ []
  alternatives_ne_nil : alternatives ≠ []
  nodup : alternatives.Nodup
deriving DecidableEq

namespace Rule

/-- A rule from its parts; of repeated alternatives the first is kept. -/
def make (lhs : Phrase) (alternatives : List Phrase) : Except Error Rule :=
  if hlhs : lhs = [] then
    .error .emptyLhs
  else if halts : alternatives = [] then
    .error (.noAlternatives lhs)
  else
    .ok {
      lhs := lhs
      alternatives := alternatives.eraseDups
      lhs_ne_nil := hlhs
      alternatives_ne_nil := by
        obtain ⟨first, rest, rfl⟩ := List.exists_cons_of_ne_nil halts
        simp [List.eraseDups_cons]
      nodup := nodup_eraseDups alternatives }

/-- A rule from the texts of its parts. -/
def ofTexts (lhs : Text) (alternatives : List Text) : Except Error Rule := do
  let lhs ← Phrase.read lhs
  let alternatives ← alternatives.mapM Phrase.read
  make lhs alternatives

/-- Every token occurrence, the left-hand phrase first. -/
def tokens (rule : Rule) : List Token :=
  rule.lhs ++ rule.alternatives.flatten

/-- The rule with further alternatives at the end. -/
def extend (rule : Rule) (more : List Phrase) : Rule where
  lhs := rule.lhs
  alternatives := (rule.alternatives ++ more).eraseDups
  lhs_ne_nil := rule.lhs_ne_nil
  alternatives_ne_nil := by
    obtain ⟨first, rest, h⟩ := List.exists_cons_of_ne_nil rule.alternatives_ne_nil
    simp [h, List.eraseDups_cons]
  nodup := nodup_eraseDups _

/-- Two rules with one left-hand phrase as one rule. -/
def merge (left right : Rule) : Except Error Rule :=
  if left.lhs = right.lhs then
    .ok (left.extend right.alternatives)
  else
    .error (.mismatchedMerge left.lhs right.lhs)

/-- Same left-hand phrase, as many alternatives, and each of the first rule's
alternatives among the second's. -/
def sameAs (left right : Rule) : Bool :=
  left.lhs = right.lhs && left.alternatives.length = right.alternatives.length &&
    left.alternatives.all fun alternative => right.alternatives.contains alternative

/-- The left-hand phrase, an arrow and the alternatives between bars. -/
def render (rule : Rule) : Text :=
  rule.lhs.render ++ [' ', '-', '>', ' '] ++
    Text.joined [' ', '|', ' '] (rule.alternatives.map Phrase.render)

/-! ### Shapes -/

/-- No alternative is shorter than the left-hand phrase. -/
def isMonotonic (rule : Rule) : Bool :=
  rule.alternatives.all fun alternative => rule.lhs.length ≤ alternative.length

/-- Some alternative is empty. -/
def hasEpsilon (rule : Rule) : Bool :=
  rule.alternatives.any List.isEmpty

/-- The left-hand phrase is a single non-terminal. -/
def isContextFree (rule : Rule) (sorts : SortTable) : Bool :=
  match rule.lhs with
  | [token] => sorts.isNonTerminal token
  | _ => false

/-- Context-free, and in every alternative all tokens after the first are
terminals. -/
def isLeftRegular (rule : Rule) (sorts : SortTable) : Bool :=
  rule.isContextFree sorts &&
    rule.alternatives.all fun alternative => (alternative.drop 1).all sorts.isTerminal

/-- Context-free, and in every alternative all tokens before the last are
terminals. -/
def isRightRegular (rule : Rule) (sorts : SortTable) : Bool :=
  rule.isContextFree sorts &&
    rule.alternatives.all fun alternative => alternative.dropLast.all sorts.isTerminal

/-- The token at `position` of `lhs` is a non-terminal, and `alternative` keeps
what stands before it and what stands after it. -/
def replacesAt (sorts : SortTable) (lhs alternative : Phrase) (position : Nat) : Bool :=
  lhs[position]?.any sorts.isNonTerminal &&
    alternative.startsWith (lhs.take position) &&
    alternative.endsWith (lhs.drop (position + 1))

/-- Monotonic, and every alternative comes from the left-hand phrase by
replacing one of its non-terminals. -/
def isContextSensitive (rule : Rule) (sorts : SortTable) : Bool :=
  rule.isMonotonic &&
    rule.alternatives.all fun alternative =>
      (List.range rule.lhs.length).any (replacesAt sorts rule.lhs alternative)

/-- The value of a predicate on a rule whose tokens are all classified. -/
def checked (rule : Rule) (sorts : SortTable) (predicate : Rule → SortTable → Bool) :
    Except Error Bool :=
  match sorts.missing rule.tokens with
  | [] => .ok (predicate rule sorts)
  | missing => .error (.unclassified missing)

@[simp] theorem lhs_extend (rule : Rule) (more : List Phrase) :
    (rule.extend more).lhs = rule.lhs := rfl

@[simp] theorem mem_alternatives_extend {rule : Rule} {more : List Phrase}
    {alternative : Phrase} :
    alternative ∈ (rule.extend more).alternatives ↔
      alternative ∈ rule.alternatives ∨ alternative ∈ more := by
  simp [extend, List.mem_eraseDups]

theorem mem_tokens {rule : Rule} {token : Token} :
    token ∈ rule.tokens ↔
      token ∈ rule.lhs ∨ ∃ alternative ∈ rule.alternatives, token ∈ alternative := by
  simp [tokens]

end Rule
end PhraseStructure
