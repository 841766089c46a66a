import PhraseStructure.Proofs.Grammar.Nullable

/-!
# The search for nullable non-terminals

The search repeats passes over the context-free rules until one adds nothing.  `NullableRun`
says so without a limit on the number of passes.  Such a run exists for every grammar, has at
most one pass more than there are context-free rules, and ends with the non-terminals that
derive the empty phrase.

The number of passes depends on the order of the rules; what is found does not.
-/

namespace PhraseStructure
namespace Grammar

variable {grammar left right : Grammar}

/-- Passes over the rules lead from one set to another; the last pass, and no other, adds
nothing. -/
inductive NullableRun (rules : List Rule) : Nat → List Token → List Token → Prop
  | last {found : List Token} (h : nullablePass rules found = found) :
      NullableRun rules 1 found found
  | next {passes : Nat} {found result : List Token} (h : nullablePass rules found ≠ found)
      (rest : NullableRun rules passes (nullablePass rules found) result) :
      NullableRun rules (passes + 1) found result

/-- Each pass that is not the last one finds a token, and every token found has a rule of its
own. -/
theorem exists_nullableRun {limit : Nat} {found : List Token} (h : grammar.NullableSoFar found)
    (hlimit : grammar.contextFreeRules.length < limit + found.length) :
    ∃ passes, passes + found.length ≤ grammar.contextFreeRules.length + 1 ∧
      NullableRun grammar.contextFreeRules passes found
        (nullablePasses grammar.contextFreeRules limit found) := by
  have hself : ∀ rule ∈ grammar.contextFreeRules, rule ∈ grammar.contextFreeRules :=
    fun _ hrule => hrule
  induction limit generalizing found with
  | zero =>
      have hle := h.length_le
      omega
  | succ limit ih =>
      rw [nullablePasses]
      rcases nullablePass_closed_or_lt h hself with ⟨heq, _⟩ | hlt
      · have hle := h.length_le
        rw [if_pos heq]
        exact ⟨1, by omega, .last heq⟩
      · have hne : nullablePass grammar.contextFreeRules found ≠ found := by
          intro heq
          rw [heq] at hlt
          exact Nat.lt_irrefl _ hlt
        rw [if_neg hne]
        obtain ⟨passes, hpasses, hrun⟩ := ih (h.foldl hself) (by omega)
        exact ⟨passes + 1, by omega, .next hne hrun⟩

theorem nullableRun_nullable (grammar : Grammar) :
    ∃ passes, passes ≤ grammar.contextFreeRules.length + 1 ∧
      NullableRun grammar.contextFreeRules passes [] grammar.nullable :=
  exists_nullableRun ⟨.nil, by simp⟩ (Nat.lt_succ_self _)

/-! ### What is found -/

theorem isTerminal_eq_false_of_mem_nullable {token : Token} (h : token ∈ grammar.nullable) :
    grammar.isTerminal token = false := by
  obtain ⟨height, hyields⟩ := mem_nullable_iff.mp h
  cases hterminal : grammar.isTerminal token with
  | false => rfl
  | true => cases hyields.eq_of_terminal hterminal

theorem mem_nullable_iff_derives {token : Token} :
    token ∈ grammar.nullable ↔
      grammar.isNonTerminal token = true ∧ Derives grammar.ContextFreeProduction [token] [] := by
  constructor
  · intro h
    have hterminal := isTerminal_eq_false_of_mem_nullable h
    obtain ⟨height, hyields⟩ := mem_nullable_iff.mp h
    exact ⟨hyields.isNonTerminal hterminal, (mem_nullable_iff_generates.mp h).2⟩
  · rintro ⟨_, hderives⟩
    exact mem_nullable_iff_generates.mpr ⟨by simp [IsWord], hderives⟩

/-- Grammars with the same sorts and the same rules in any order have the same context-free
productions. -/
theorem contextFreeProduction_iff_of_perm (hsorts : left.sorts = right.sorts)
    (hrules : left.rules.Perm right.rules) {lhs alternative : Phrase} :
    left.ContextFreeProduction lhs alternative ↔
      right.ContextFreeProduction lhs alternative := by
  have hperm : left.contextFreeRules.Perm right.contextFreeRules := by
    rw [contextFreeRules, contextFreeRules, hsorts]
    exact hrules.filter _
  simp only [ContextFreeProduction, hperm.mem_iff]

theorem nullable_eq_of_perm (hsorts : left.sorts = right.sorts)
    (hrules : left.rules.Perm right.rules) : left.nullable = right.nullable := by
  have hproductions : left.ContextFreeProduction = right.ContextFreeProduction := by
    funext lhs alternative
    exact propext (contextFreeProduction_iff_of_perm hsorts hrules)
  refine eq_of_mem_iff_of_ascending left.pairwise_nullable right.pairwise_nullable ?_
  intro token
  rw [mem_nullable_iff_derives, mem_nullable_iff_derives, hproductions, isNonTerminal,
    isNonTerminal, hsorts]

/-- On every grammar the search ends after at most one pass more than there are context-free
rules, with exactly the non-terminals that derive the empty phrase by rules whose left-hand
phrase is a single non-terminal, in ascending order.  No terminal is among them, and the order
of the rules does not matter. -/
theorem nullable_search_exact (grammar : Grammar) :
    (∃ passes, passes ≤ grammar.contextFreeRules.length + 1 ∧
        NullableRun grammar.contextFreeRules passes [] grammar.nullable) ∧
      grammar.nullable.Pairwise (· < ·) ∧
      (∀ token, token ∈ grammar.nullable ↔
        grammar.isNonTerminal token = true ∧ Derives grammar.ContextFreeProduction [token] []) ∧
      (∀ token ∈ grammar.nullable, grammar.isTerminal token = false) ∧
      ∀ other : Grammar, other.sorts = grammar.sorts → other.rules.Perm grammar.rules →
        other.nullable = grammar.nullable := by
  refine ⟨nullableRun_nullable grammar, grammar.pairwise_nullable, ?_, ?_, ?_⟩
  · exact fun token => mem_nullable_iff_derives
  · exact fun token => isTerminal_eq_false_of_mem_nullable
  · exact fun other hsorts hrules => nullable_eq_of_perm hsorts hrules

/-- A chain of non-terminals whose rules stand in the order that needs every pass, and the same
rules the other way round, beside a rule that is not context-free. -/
theorem nullable_search_exact_chain :
    ∃ grammar other, ∃ s : Token, s.text = ['S'] ∧
      ofTexts [['S'], ['A'], ['B']] [['a']]
          [(['S'], [['A', ' ', 'B'], ['a']]), (['A'], [['B']]), (['B'], [['S', ' ', 'a'], []]),
            (['S', ' ', 'a'], [[]])] ['S'] = .ok grammar ∧
      ofTexts [['S'], ['A'], ['B']] [['a']]
          [(['S', ' ', 'a'], [[]]), (['B'], [['S', ' ', 'a'], []]), (['A'], [['B']]),
            (['S'], [['A', ' ', 'B'], ['a']])] ['S'] = .ok other ∧
      (∃ passes, passes ≤ 4 ∧ NullableRun grammar.contextFreeRules passes [] grammar.nullable) ∧
      s ∈ grammar.nullable ∧ grammar.isTerminal s = false ∧ other.nullable = grammar.nullable := by
  obtain ⟨grammar, other, hgrammar, hother, hlength, hmem, hsorts, hrules⟩ : ∃ grammar other,
      ofTexts [['S'], ['A'], ['B']] [['a']]
          [(['S'], [['A', ' ', 'B'], ['a']]), (['A'], [['B']]), (['B'], [['S', ' ', 'a'], []]),
            (['S', ' ', 'a'], [[]])] ['S'] = .ok grammar ∧
        ofTexts [['S'], ['A'], ['B']] [['a']]
          [(['S', ' ', 'a'], [[]]), (['B'], [['S', ' ', 'a'], []]), (['A'], [['B']]),
            (['S'], [['A', ' ', 'B'], ['a']])] ['S'] = .ok other ∧
        grammar.contextFreeRules.length + 1 = 4 ∧
        (⟨['S'], by decide⟩ : Token) ∈ grammar.nullable ∧
        other.sorts = grammar.sorts ∧ other.rules.Perm grammar.rules :=
    ⟨_, _, rfl, rfl, rfl, by decide, by decide, by decide⟩
  obtain ⟨hrun, _, _, hterminal, horder⟩ := nullable_search_exact grammar
  rw [hlength] at hrun
  exact ⟨grammar, other, ⟨['S'], by decide⟩, rfl, hgrammar, hother, hrun, hmem,
    hterminal _ hmem, horder other hsorts hrules⟩

end Grammar
end PhraseStructure
