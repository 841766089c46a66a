import PhraseStructure.Grammar.Kind
import PhraseStructure.Proofs.Grammar.Yield

/-!
# The Chomsky hierarchy

The classes of the hierarchy as they are defined without a computation, and the proof that
`Grammar.kind` names the most restrictive one.

A context-sensitive production keeps a context and replaces the one non-terminal between its
two sides by a non-empty phrase.  `Rule.isContextSensitive` looks for the two sides separately.
In a short alternative they could overlap; that no alternative is shorter than the left-hand
phrase keeps them apart and leaves at least one token between them.

The context may differ from one alternative to the next.  A regular grammar has to lean to one
side with all its rules, so a grammar of regular rules need not be regular.
-/

namespace PhraseStructure

/-- A beginning and an end that together fit into a list leave a middle between them. -/
theorem exists_middle {α : Type} {first last whole : List α} (hfirst : first <+: whole)
    (hlast : last <:+ whole) (hlength : first.length + last.length ≤ whole.length) :
    ∃ middle, whole = first ++ middle ++ last := by
  obtain ⟨rest, rfl⟩ := hfirst
  rw [List.length_append] at hlength
  have hrest : last.length ≤ rest.length := by omega
  obtain ⟨middle, rfl⟩ := List.suffix_of_suffix_length_le hlast (List.suffix_append first rest) hrest
  exact ⟨middle, (List.append_assoc ..).symm⟩

/-- A non-terminal of `lhs` is replaced by a non-empty phrase, and what stands before it and
after it stays. -/
def ReplacesInContext (sorts : SortTable) (lhs alternative : Phrase) : Prop :=
  ∃ before token after replacement, lhs = before ++ token :: after ∧
    sorts.isNonTerminal token = true ∧ replacement ≠ [] ∧
    alternative = before ++ replacement ++ after

namespace ReplacesInContext

variable {sorts : SortTable} {lhs alternative : Phrase}

theorem length_le (h : ReplacesInContext sorts lhs alternative) :
    lhs.length ≤ alternative.length := by
  obtain ⟨before, token, after, replacement, rfl, _, hne, rfl⟩ := h
  have hpos := List.length_pos_iff.mpr hne
  simp only [List.length_append, List.length_cons]
  omega

theorem of_replacesAt {position : Nat} (hlength : lhs.length ≤ alternative.length)
    (h : Rule.replacesAt sorts lhs alternative position = true) :
    ReplacesInContext sorts lhs alternative := by
  simp only [Rule.replacesAt, Phrase.startsWith, Phrase.endsWith, Bool.and_eq_true,
    Option.any_eq_true, List.isPrefixOf_iff_prefix, List.isSuffixOf_iff_suffix] at h
  obtain ⟨⟨⟨token, htoken, hnonTerminal⟩, hbefore⟩, hafter⟩ := h
  obtain ⟨hposition, rfl⟩ := List.getElem?_eq_some_iff.mp htoken
  have hlhs : lhs = lhs.take position ++ lhs[position] :: lhs.drop (position + 1) := by
    rw [← List.drop_eq_getElem_cons hposition, List.take_append_drop]
  -- The two sides of the context are one token shorter than the left-hand phrase.
  have hsides : (lhs.take position).length + (lhs.drop (position + 1)).length + 1 =
      lhs.length := by
    rw [List.length_take, List.length_drop]
    omega
  obtain ⟨replacement, halternative⟩ := exists_middle hbefore hafter (by omega)
  refine ⟨lhs.take position, lhs[position], lhs.drop (position + 1), replacement, hlhs,
    hnonTerminal, ?_, halternative⟩
  rintro rfl
  rw [halternative, List.append_nil, List.length_append] at hlength
  omega

theorem exists_replacesAt (h : ReplacesInContext sorts lhs alternative) :
    ∃ position, position < lhs.length ∧
      Rule.replacesAt sorts lhs alternative position = true := by
  obtain ⟨before, token, after, replacement, rfl, hnonTerminal, _, rfl⟩ := h
  refine ⟨before.length, by simp, ?_⟩
  have hbefore : before <+: before ++ replacement ++ after :=
    ⟨replacement ++ after, (List.append_assoc ..).symm⟩
  have hafter : after <:+ before ++ replacement ++ after := List.suffix_append _ _
  have hdrop : (before ++ token :: after).drop (before.length + 1) = after := by
    rw [List.drop_length_add_append]
    rfl
  rw [Rule.replacesAt, hdrop, List.take_left, Phrase.startsWith, Phrase.endsWith,
    List.isPrefixOf_iff_prefix.mpr hbefore, List.isSuffixOf_iff_suffix.mpr hafter]
  simp [hnonTerminal]

end ReplacesInContext

namespace Rule

variable {rule : Rule} {sorts : SortTable}

/-- In every alternative all tokens after the first are terminals. -/
def LeansLeft (rule : Rule) (sorts : SortTable) : Prop :=
  ∀ first rest, first :: rest ∈ rule.alternatives →
    ∀ token ∈ rest, sorts.isTerminal token = true

/-- In every alternative all tokens before the last are terminals. -/
def LeansRight (rule : Rule) (sorts : SortTable) : Prop :=
  ∀ front last, front ++ [last] ∈ rule.alternatives →
    ∀ token ∈ front, sorts.isTerminal token = true

/-- The length test and the search for a position together find a context for every
alternative, if there is one. -/
theorem isContextSensitive_iff :
    rule.isContextSensitive sorts = true ↔
      ∀ alternative ∈ rule.alternatives, ReplacesInContext sorts rule.lhs alternative := by
  simp only [isContextSensitive, isMonotonic, Bool.and_eq_true, List.all_eq_true,
    List.any_eq_true, List.mem_range, decide_eq_true_eq]
  constructor
  · rintro ⟨hmonotonic, hpositions⟩ alternative halternative
    obtain ⟨position, _, hreplaces⟩ := hpositions alternative halternative
    exact .of_replacesAt (hmonotonic alternative halternative) hreplaces
  · intro h
    exact ⟨fun alternative halternative => (h alternative halternative).length_le,
      fun alternative halternative => (h alternative halternative).exists_replacesAt⟩

theorem isLeftRegular_iff :
    rule.isLeftRegular sorts = true ↔
      rule.isContextFree sorts = true ∧ rule.LeansLeft sorts := by
  simp only [isLeftRegular, Bool.and_eq_true, List.all_eq_true, LeansLeft]
  refine and_congr_right fun _ => ⟨?_, ?_⟩
  · intro h first rest halternative
    exact h _ halternative
  · intro h alternative halternative
    cases alternative with
    | nil => simp
    | cons first rest => exact h first rest halternative

theorem isRightRegular_iff :
    rule.isRightRegular sorts = true ↔
      rule.isContextFree sorts = true ∧ rule.LeansRight sorts := by
  simp only [isRightRegular, Bool.and_eq_true, List.all_eq_true, LeansRight]
  refine and_congr_right fun _ => ⟨?_, ?_⟩
  · intro h front last halternative
    have hfront := h _ halternative
    rwa [List.dropLast_concat] at hfront
  · intro h alternative halternative
    rcases List.eq_nil_or_concat alternative with rfl | ⟨front, last, rfl⟩
    · simp
    · rw [List.concat_eq_append] at halternative ⊢
      rw [List.dropLast_concat]
      exact h front last halternative

end Rule

namespace Grammar

variable {grammar : Grammar}

/-- Every left-hand phrase is a single non-terminal. -/
def HasSingleNonTerminals (grammar : Grammar) : Prop :=
  ∀ rule ∈ grammar.rules, ∃ token, rule.lhs = [token] ∧ grammar.isNonTerminal token = true

/-- Every left-hand phrase is a single non-terminal, and all rules lean to one side. -/
def LeansToOneSide (grammar : Grammar) : Prop :=
  grammar.HasSingleNonTerminals ∧
    ((∀ rule ∈ grammar.rules, rule.LeansLeft grammar.sorts) ∨
      ∀ rule ∈ grammar.rules, rule.LeansRight grammar.sorts)

/-- Every production replaces a non-terminal in a context that it keeps. -/
def KeepsContexts (grammar : Grammar) : Prop :=
  ∀ rule ∈ grammar.rules, ∀ alternative ∈ rule.alternatives,
    ReplacesInContext grammar.sorts rule.lhs alternative

theorem isContextFree_iff : grammar.isContextFree = true ↔ grammar.HasSingleNonTerminals := by
  simp only [isContextFree, List.all_eq_true, Rule.isContextFree_iff]
  rfl

theorem isContextSensitive_iff : grammar.isContextSensitive = true ↔ grammar.KeepsContexts := by
  simp only [isContextSensitive, List.all_eq_true, Rule.isContextSensitive_iff]
  rfl

theorem isLeftRegular_or_isRightRegular_iff :
    (grammar.isLeftRegular || grammar.isRightRegular) = true ↔ grammar.LeansToOneSide := by
  have hsides : ∀ leans : Rule → Prop,
      (∀ rule ∈ grammar.rules, rule.isContextFree grammar.sorts = true ∧ leans rule) ↔
        grammar.HasSingleNonTerminals ∧ ∀ rule ∈ grammar.rules, leans rule := by
    intro leans
    rw [← isContextFree_iff, isContextFree, List.all_eq_true, ← forall₂_and]
  simp only [Bool.or_eq_true, isLeftRegular, isRightRegular, List.all_eq_true,
    Rule.isLeftRegular_iff, Rule.isRightRegular_iff]
  rw [hsides fun rule => rule.LeansLeft grammar.sorts,
    hsides fun rule => rule.LeansRight grammar.sorts, ← and_or_left]
  rfl

/-- A grammar is regular if all its rules lean to one side, else context-free if every
left-hand phrase is a single non-terminal, else context-sensitive if every production replaces
a non-terminal in a context that it keeps, and else unrestricted.  For a single rule, over any
sorts, the test for the third class is this definition. -/
theorem kind_names_class (grammar : Grammar) :
    (grammar.kind = .regular ↔ grammar.LeansToOneSide) ∧
      (grammar.kind = .contextFree ↔
        ¬ grammar.LeansToOneSide ∧ grammar.HasSingleNonTerminals) ∧
      (grammar.kind = .contextSensitive ↔
        ¬ grammar.LeansToOneSide ∧ ¬ grammar.HasSingleNonTerminals ∧ grammar.KeepsContexts) ∧
      (grammar.kind = .unrestricted ↔
        ¬ grammar.LeansToOneSide ∧ ¬ grammar.HasSingleNonTerminals ∧ ¬ grammar.KeepsContexts) ∧
      ∀ (rule : Rule) (sorts : SortTable), rule.isContextSensitive sorts = true ↔
        ∀ alternative ∈ rule.alternatives, ReplacesInContext sorts rule.lhs alternative := by
  rw [← isLeftRegular_or_isRightRegular_iff, ← isContextFree_iff, ← isContextSensitive_iff, kind]
  -- What is left is the table of the outcomes of three tests.
  generalize (grammar.isLeftRegular || grammar.isRightRegular) = regular
  generalize grammar.isContextFree = contextFree
  generalize grammar.isContextSensitive = contextSensitive
  refine ⟨?_, ?_, ?_, ?_, fun rule sorts => Rule.isContextSensitive_iff⟩
  all_goals
    cases regular <;> cases contextFree <;> cases contextSensitive <;> simp

end Grammar
end PhraseStructure
