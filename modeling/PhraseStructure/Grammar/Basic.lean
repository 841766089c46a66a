import PhraseStructure.Rule

/-!
# Grammars

A grammar is a sort table, a list of rules and a start symbol.  Every token of
a rule and the start symbol are classified, and no two rules share a left-hand
phrase: rules with one left-hand phrase become one rule at the place of the
first of them.

The sort table may classify tokens that no rule mentions, the start symbol may
be a terminal, and it need not have a rule.
-/

namespace PhraseStructure

namespace Rule

/-- Add a rule to rules with distinct left-hand phrases. -/
def absorb (rule : Rule) : List Rule → List Rule
  | [] => [rule]
  | first :: rest =>
      if first.lhs = rule.lhs then
        first.extend rule.alternatives :: rest
      else
        first :: absorb rule rest

/-- One rule per left-hand phrase, in order of first occurrence. -/
def mergeAll (rules : List Rule) : List Rule :=
  rules.foldl (fun merged rule => absorb rule merged) []

theorem map_lhs_absorb (rule : Rule) (rules : List Rule) :
    (absorb rule rules).map lhs =
      if rule.lhs ∈ rules.map lhs then rules.map lhs else rules.map lhs ++ [rule.lhs] := by
  induction rules with
  | nil => simp [absorb]
  | cons first rest ih =>
      by_cases h : first.lhs = rule.lhs
      · simp [absorb, h]
      · have h' : ¬ rule.lhs = first.lhs := fun heq => h heq.symm
        simp only [absorb, h, if_false, List.map_cons, ih, List.mem_cons, h', false_or]
        split <;> simp

theorem nodup_absorb (rule : Rule) {rules : List Rule} (h : (rules.map lhs).Nodup) :
    ((absorb rule rules).map lhs).Nodup := by
  rw [map_lhs_absorb]
  split
  · exact h
  · rename_i hnot
    refine List.nodup_append.mpr ⟨h, by simp, ?_⟩
    intro a ha b hb heq
    simp only [List.mem_singleton] at hb
    exact hnot (hb ▸ heq ▸ ha)

theorem mem_tokens_absorb {rule : Rule} {rules : List Rule} {token : Token}
    (h : ∃ r ∈ absorb rule rules, token ∈ r.tokens) :
    token ∈ rule.tokens ∨ ∃ r ∈ rules, token ∈ r.tokens := by
  induction rules with
  | nil => simpa [absorb] using h
  | cons first rest ih =>
      obtain ⟨r, hr, htoken⟩ := h
      simp only [absorb] at hr
      split at hr
      · rename_i heq
        rcases List.mem_cons.mp hr with rfl | hr
        · rcases mem_tokens.mp htoken with hlhs | ⟨alternative, halt, htoken⟩
          · exact .inr ⟨first, by simp, mem_tokens.mpr (.inl hlhs)⟩
          · rcases mem_alternatives_extend.mp halt with halt | halt
            · exact .inr ⟨first, by simp, mem_tokens.mpr (.inr ⟨alternative, halt, htoken⟩)⟩
            · exact .inl (mem_tokens.mpr (.inr ⟨alternative, halt, htoken⟩))
        · exact .inr ⟨r, by simp [hr], htoken⟩
      · rcases List.mem_cons.mp hr with rfl | hr
        · exact .inr ⟨r, by simp, htoken⟩
        · rcases ih ⟨r, hr, htoken⟩ with h | ⟨r', hr', htoken'⟩
          · exact .inl h
          · exact .inr ⟨r', by simp [hr'], htoken'⟩

theorem nodup_foldl_absorb (rules merged : List Rule) (h : (merged.map lhs).Nodup) :
    ((rules.foldl (fun merged rule => absorb rule merged) merged).map lhs).Nodup := by
  induction rules generalizing merged with
  | nil => exact h
  | cons rule rest ih => exact ih _ (nodup_absorb rule h)

theorem mem_tokens_foldl_absorb {rules merged : List Rule} {token : Token}
    (h : ∃ r ∈ rules.foldl (fun merged rule => absorb rule merged) merged,
      token ∈ r.tokens) :
    (∃ r ∈ rules, token ∈ r.tokens) ∨ ∃ r ∈ merged, token ∈ r.tokens := by
  induction rules generalizing merged with
  | nil => exact .inr h
  | cons rule rest ih =>
      rcases ih h with ⟨r, hr, htoken⟩ | h
      · exact .inl ⟨r, by simp [hr], htoken⟩
      · rcases mem_tokens_absorb h with htoken | h
        · exact .inl ⟨rule, by simp, htoken⟩
        · exact .inr h

theorem nodup_mergeAll (rules : List Rule) : ((mergeAll rules).map lhs).Nodup :=
  nodup_foldl_absorb rules [] List.nodup_nil

theorem mem_tokens_mergeAll {rules : List Rule} {r : Rule} {token : Token}
    (hr : r ∈ mergeAll rules) (htoken : token ∈ r.tokens) :
    ∃ r ∈ rules, token ∈ r.tokens := by
  rcases mem_tokens_foldl_absorb ⟨r, hr, htoken⟩ with h | h
  · exact h
  · simp at h

end Rule

/-- A validated grammar. -/
structure Grammar where
  sorts : SortTable
  rules : List Rule
  start : Token
  classified : ∀ rule ∈ rules, ∀ token ∈ rule.tokens, sorts.contains token = true
  start_classified : sorts.contains start = true
  nodup : (rules.map Rule.lhs).Nodup
deriving DecidableEq

namespace Grammar

/-- A grammar from its parts.  Unclassified rule tokens are reported before an
unclassified start symbol. -/
def make (sorts : SortTable) (rules : List Rule) (start : Token) : Except Error Grammar :=
  if hrules : sorts.missing (rules.flatMap Rule.tokens) = [] then
    if hstart : sorts.contains start = true then
      .ok {
        sorts := sorts
        rules := Rule.mergeAll rules
        start := start
        classified := by
          intro rule hrule token htoken
          obtain ⟨given, hgiven, htoken⟩ := Rule.mem_tokens_mergeAll hrule htoken
          exact SortTable.missing_eq_nil_iff.mp hrules token
            (List.mem_flatMap.mpr ⟨given, hgiven, htoken⟩)
        start_classified := hstart
        nodup := Rule.nodup_mergeAll rules }
    else
      .error (.unclassifiedStart start)
  else
    .error (.unclassified (sorts.missing (rules.flatMap Rule.tokens)))

/-- A grammar from the texts of its parts. -/
def ofTexts (nonTerminals terminals : List Text) (rules : List (Text × List Text))
    (start : Text) : Except Error Grammar := do
  let sorts ← SortTable.ofTexts nonTerminals terminals
  let rules ← rules.mapM fun (lhs, alternatives) => Rule.ofTexts lhs alternatives
  let start ← Token.read start
  make sorts rules start

/-- The rule for a left-hand phrase. -/
def ruleOf? (grammar : Grammar) (lhs : Phrase) : Option Rule :=
  grammar.rules.find? fun rule => rule.lhs = lhs

/-- The rule for a single token. -/
def ruleFor? (grammar : Grammar) (token : Token) : Option Rule :=
  grammar.ruleOf? [token]

/-- The token is a terminal of the grammar. -/
def isTerminal (grammar : Grammar) (token : Token) : Bool :=
  grammar.sorts.isTerminal token

/-- The token is a non-terminal of the grammar. -/
def isNonTerminal (grammar : Grammar) (token : Token) : Bool :=
  grammar.sorts.isNonTerminal token

/-- The rules whose left-hand phrase is a single non-terminal. -/
def contextFreeRules (grammar : Grammar) : List Rule :=
  grammar.rules.filter fun rule => rule.isContextFree grammar.sorts

/-- Every token occurrence in the rules, in order, then the start symbol. -/
def tokens (grammar : Grammar) : List Token :=
  grammar.rules.flatMap Rule.tokens ++ [grammar.start]

/-- Same start symbol and sorts, as many rules, and each of the first grammar's
rules the same as one of the second's. -/
def sameAs (left right : Grammar) : Bool :=
  left.start = right.start && left.sorts = right.sorts &&
    left.rules.length = right.rules.length &&
    left.rules.all fun rule => right.rules.any fun other => rule.sameAs other

end Grammar
end PhraseStructure
