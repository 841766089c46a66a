import PhraseStructure.Proofs.Script.Interpretation

/-!
# The grammar of a grammar's script

The script of a grammar describes the grammar, but for two things: the start symbol's rule is
moved to the front, and entries that nothing uses are dropped.  `Grammar.tidied` does both, and
it is what the script is made into.

Neither changes what is written, so a tidied grammar has the script of the grammar that it comes
from.  All this holds of every grammar, whether or not its text can be read.
-/

namespace PhraseStructure
namespace Grammar

variable {grammar : Grammar}

/-- The grammar without the entries that nothing uses, and with the start symbol's rule first. -/
def tidied (grammar : Grammar) : Grammar where
  sorts := grammar.sorts.restrict grammar.tokens
  rules := grammar.writtenOrder
  start := grammar.start
  classified := by
    intro rule hrule token htoken
    have hmem := mem_tokens.mpr (.inl ⟨rule, mem_writtenOrder.mp hrule, htoken⟩)
    exact SortTable.contains_restrict.mpr ⟨hmem, contains_of_mem_tokens hmem⟩
  start_classified :=
    SortTable.contains_restrict.mpr ⟨mem_tokens.mpr (.inr rfl), grammar.start_classified⟩
  nodup := (grammar.writtenOrder_perm.map Rule.lhs).nodup_iff.mpr grammar.nodup

/-- The directive and the rules mention exactly the tokens in use. -/
theorem mem_declared_or_rules {grammar : Grammar} {token : Token} :
    token ∈ grammar.declared.toList ++ grammar.writtenOrder.flatMap Rule.tokens ↔
      token ∈ grammar.tokens := by
  have hrules : token ∈ grammar.writtenOrder.flatMap Rule.tokens ↔
      ∃ rule ∈ grammar.rules, token ∈ rule.tokens := by
    simp only [List.mem_flatMap, mem_writtenOrder]
  rw [List.mem_append, hrules, mem_tokens, or_comm]
  unfold declared
  split
  · rename_i rule hrule
    -- The start symbol is in the left-hand phrase of its own rule.
    obtain ⟨hmem, hlhs⟩ := ruleFor?_eq_some_iff.mp hrule
    have hstart : token = grammar.start → ∃ rule ∈ grammar.rules, token ∈ rule.tokens := by
      rintro rfl
      exact ⟨rule, hmem, Rule.mem_tokens.mpr (.inl (by simp [hlhs]))⟩
    simp only [Option.toList_none, List.not_mem_nil, or_false]
    exact ⟨.inl, fun h => h.elim id hstart⟩
  · rw [Option.toList_some, List.mem_singleton]

/-! ### What the script says -/

theorem symbols_writtenRule (rule : Rule) :
    (grammar.writtenRule rule).symbols = rule.tokens.map grammar.symbolOf := by
  simp [WrittenRule.symbols, writtenRule, Rule.tokens, List.map_flatten]

theorem mem_symbols_script {symbol : Symbol} :
    symbol ∈ grammar.script.symbols ↔
      ∃ token ∈ grammar.tokens, grammar.symbolOf token = symbol := by
  have hsymbols : grammar.script.symbols = (grammar.declared.toList ++
      grammar.writtenOrder.flatMap Rule.tokens).map grammar.symbolOf := by
    rw [Script.symbols, script, List.flatMap_map, List.map_append, List.map_flatMap,
      Option.toList_map]
    simp only [symbols_writtenRule]
  rw [hsymbols, List.mem_map]
  simp only [mem_declared_or_rules]

theorem sortOf_tidied_eq_some_iff {token : Token} {sort : SymbolSort} :
    grammar.tidied.sorts.sortOf token = some sort ↔
      token ∈ grammar.tokens ∧ (grammar.symbolOf token).sort = sort := by
  rw [tidied, SortTable.sortOf_restrict]
  split
  · rename_i hmem
    rw [sortOf_eq_sort_symbolOf (contains_of_mem_tokens hmem), Option.some.injEq]
    exact (and_iff_right hmem).symm
  · rename_i hnot
    simp [hnot]

/-- The script of a grammar records the sorts of the tokens in use. -/
theorem records_script (grammar : Grammar) :
    Script.Records grammar.tidied.sorts grammar.script.symbols := by
  intro token sort
  rw [sortOf_tidied_eq_some_iff, mem_symbols_script]
  constructor
  · rintro ⟨hmem, hsort⟩
    exact ⟨token, hmem, (Symbol.ofSort_eq_iff.mpr ⟨hsort, grammar.text_symbolOf token⟩).symm⟩
  · rintro ⟨other, hmem, hother⟩
    obtain ⟨hsort, htext⟩ := Symbol.ofSort_eq_iff.mp hother.symm
    obtain rfl : other = token := Token.ext ((grammar.text_symbolOf other).symm.trans htext)
    exact ⟨hmem, hsort⟩

theorem start?_script (grammar : Grammar) :
    grammar.script.start? = some (grammar.symbolOf grammar.start) := by
  cases hrule : grammar.ruleFor? grammar.start with
  | none => simp [Script.start?, script, declared, hrule]
  | some rule =>
      obtain ⟨_, hlhs⟩ := ruleFor?_eq_some_iff.mp hrule
      simp [Script.start?, script, declared, hrule, writtenOrder, writtenRule, hlhs]

/-- A rule is the only one that is built from its written form. -/
theorem eq_of_writes {rule other : Rule} (h : Script.Writes (grammar.writtenRule rule) other) :
    other = rule := by
  obtain ⟨hlhs, phrases, hphrases, halternatives⟩ := h
  have hinjective : Function.Injective (List.map Token.text) :=
    List.map_injective_iff.mpr fun _ _ => Token.ext
  have htexts : ∀ phrase : Phrase,
      (phrase.map grammar.symbolOf).map Symbol.text = phrase.map Token.text := by
    intro phrase
    rw [List.map_map]
    exact List.map_congr_left fun token _ => grammar.text_symbolOf token
  have hsame : phrases = rule.alternatives := by
    refine List.map_injective_iff.mpr hinjective (hphrases.trans ?_)
    rw [writtenRule, List.map_map]
    exact List.map_congr_left fun phrase _ => htexts phrase
  refine Rule.eq_of_parts (hinjective (hlhs.trans (htexts rule.lhs))) ?_
  rw [halternatives, hsame, eraseDups_eq_self rule.nodup]

/-- The script of a grammar describes only the tidied grammar. -/
theorem eq_tidied_of_describes {other : Grammar} (h : grammar.script.Describes other) :
    other = grammar.tidied := by
  obtain ⟨rules, hwrites, hmerged⟩ := h.rules
  have hrules : rules = grammar.writtenOrder := by
    have heach : List.Forall₂ (· = ·) grammar.writtenOrder rules :=
      (List.forall₂_map_left_iff.mp hwrites).imp fun _ _ h => (eq_of_writes h).symm
    rw [List.forall₂_eq_eq_eq] at heach
    exact heach.symm
  have hstart : other.symbolOf other.start = grammar.symbolOf grammar.start :=
    Option.some.inj (h.start.symm.trans (start?_script grammar))
  refine eq_of_parts (h.records.unique (records_script grammar)) ?_ (Token.ext ?_)
  · rw [hmerged, hrules]
    exact Rule.mergeAll_eq_self grammar.tidied.nodup
  · rw [← other.text_symbolOf, hstart, grammar.text_symbolOf]
    rfl

/-- The script of a grammar is the script of the tidied grammar. -/
theorem toGrammar_script (grammar : Grammar) :
    grammar.script.toGrammar none = .ok grammar.tidied := by
  have htokens : ∀ symbol ∈ grammar.script.symbols, symbol.HasToken := by
    intro symbol hsymbol
    obtain ⟨token, _, rfl⟩ := mem_symbols_script.mp hsymbol
    exact ⟨token, (grammar.text_symbolOf token).symm⟩
  have hrules : ∀ written ∈ grammar.script.rules, written.lhs ≠ [] ∧ written.alternatives ≠ [] := by
    intro written hwritten
    obtain ⟨rule, _, rfl⟩ := List.mem_map.mp hwritten
    exact ⟨mt List.map_eq_nil_iff.mp rule.lhs_ne_nil,
      mt List.map_eq_nil_iff.mp rule.alternatives_ne_nil⟩
  have hreading := Script.reading_toGrammar htokens fun rule hrule => (hrules rule hrule).2
  generalize grammar.script.toGrammar none = result at hreading
  cases hreading with
  | built h => rw [eq_tidied_of_describes h]
  | conflictingSort h => exact absurd h (grammar.records_script.not_clashes _)
  | emptyLhs h =>
      obtain ⟨rule, hrule, hnil⟩ := h
      exact absurd hnil (hrules rule hrule).1
  | unreadable h =>
      rw [start?_script] at h
      cases h

/-! ### Writing a tidied grammar -/

theorem symbolOf_tidied {token : Token} (h : token ∈ grammar.tokens) :
    grammar.tidied.symbolOf token = grammar.symbolOf token := by
  have hsort : grammar.tidied.sorts.sortOf token = grammar.sorts.sortOf token :=
    (grammar.sorts.sortOf_restrict grammar.tokens token).trans (if_pos h)
  unfold symbolOf isTerminal SortTable.isTerminal
  rw [hsort]

theorem writtenRule_tidied {rule : Rule} (h : rule ∈ grammar.rules) :
    grammar.tidied.writtenRule rule = grammar.writtenRule rule := by
  have hsymbol : ∀ token ∈ rule.tokens, grammar.tidied.symbolOf token = grammar.symbolOf token :=
    fun token htoken => symbolOf_tidied (mem_tokens.mpr (.inl ⟨rule, h, htoken⟩))
  rw [writtenRule, writtenRule, WrittenRule.mk.injEq]
  constructor
  · exact List.map_congr_left fun token htoken =>
      hsymbol token (Rule.mem_tokens.mpr (.inl htoken))
  · exact List.map_congr_left fun alternative halternative =>
      List.map_congr_left fun token htoken =>
        hsymbol token (Rule.mem_tokens.mpr (.inr ⟨alternative, halternative, htoken⟩))

theorem ruleFor?_tidied (token : Token) :
    grammar.tidied.ruleFor? token = grammar.ruleFor? token := by
  apply Option.ext
  intro rule
  rw [ruleFor?_eq_some_iff, ruleFor?_eq_some_iff]
  exact and_congr_left' mem_writtenOrder

/-- The rules of a tidied grammar are in the order in which they are written. -/
theorem writtenOrder_tidied (grammar : Grammar) :
    grammar.tidied.writtenOrder = grammar.writtenOrder := by
  have hrule : ((grammar.ruleFor? grammar.start).toList.filter fun rule =>
      rule.lhs ≠ [grammar.start]) = [] := by
    rw [List.filter_eq_nil_iff]
    intro rule hrule
    simp [(ruleFor?_eq_some_iff.mp (Option.mem_toList.mp hrule)).2]
  rw [writtenOrder_eq, ruleFor?_tidied]
  show _ ++ (grammar.writtenOrder.filter fun rule => rule.lhs ≠ [grammar.start]) = _
  rw [writtenOrder_eq, List.filter_append, hrule, List.nil_append, List.filter_filter]
  simp only [Bool.and_self]
  rfl

theorem declared_tidied (grammar : Grammar) : grammar.tidied.declared = grammar.declared := by
  have hrule : grammar.tidied.ruleFor? grammar.tidied.start = grammar.ruleFor? grammar.start :=
    ruleFor?_tidied grammar.start
  rw [declared, declared, hrule]
  rfl

/-- Tidying does not change what is written. -/
theorem script_tidied (grammar : Grammar) : grammar.tidied.script = grammar.script := by
  have hdirective : grammar.declared.map grammar.tidied.symbolOf =
      grammar.declared.map grammar.symbolOf := by
    refine Option.map_congr fun token hdeclared => symbolOf_tidied (mem_tokens.mpr (.inr ?_))
    exact (start_eq_of_declared hdeclared).symm
  have hrules : grammar.writtenOrder.map grammar.tidied.writtenRule =
      grammar.writtenOrder.map grammar.writtenRule :=
    List.map_congr_left fun rule hrule => writtenRule_tidied (mem_writtenOrder.mp hrule)
  rw [script, declared_tidied, writtenOrder_tidied, hdirective, hrules]
  rfl

theorem render_tidied (grammar : Grammar) : grammar.tidied.render = grammar.render := by
  rw [render_eq_render_script, script_tidied, ← render_eq_render_script]

end Grammar
end PhraseStructure
