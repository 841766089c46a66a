import PhraseStructure.Proofs.Grammar.Yield
import PhraseStructure.Script.Meaning
import PhraseStructure.Script.Printer

/-!
# Written scripts

A script has one plain written form: one space between symbols, one line per rule,
empty quotation marks for an empty phrase.  The text of a grammar is the written form of
the grammar's script, so writing a grammar falls into two steps, and each is undone by
one step of reading.

Not every script reads back from its written form.  `Script.Readable` says what has to
be true of its symbols, and it asks for an alternative in every rule.  A left-hand phrase
may be empty: such a rule reads back, though it is no rule of a grammar.
-/

namespace PhraseStructure

namespace Symbol

/-- The symbol as it is written. -/
def render : Symbol → Text
  | quoted text => ['\x27'] ++ text ++ ['\x27']
  | bare text => text

/-- The characters can stand together in a symbol of this kind. -/
def Readable : Symbol → Prop
  | quoted text => text ≠ [] ∧ ∀ c ∈ text, Script.isQuotedChar c = true
  | bare text => Script.isBare text = true

end Symbol

namespace WrittenRule

/-- Every symbol can be written, and there is an alternative. -/
structure Readable (rule : WrittenRule) : Prop where
  lhs : ∀ symbol ∈ rule.lhs, symbol.Readable
  alternatives_ne_nil : rule.alternatives ≠ []
  alternatives : ∀ symbols ∈ rule.alternatives, ∀ symbol ∈ symbols, symbol.Readable

/-- Every symbol of a rule, in order. -/
def symbols (rule : WrittenRule) : List Symbol :=
  rule.lhs ++ rule.alternatives.flatten

theorem Readable.symbols {rule : WrittenRule} (h : rule.Readable) :
    ∀ symbol ∈ rule.symbols, symbol.Readable := by
  intro symbol hsymbol
  rcases List.mem_append.mp hsymbol with hlhs | halternative
  · exact h.lhs symbol hlhs
  · obtain ⟨symbols, hsymbols, hmem⟩ := List.mem_flatten.mp halternative
    exact h.alternatives symbols hsymbols symbol hmem

end WrittenRule

namespace Script

/-- Symbols with one space between neighbours, or empty quotation marks. -/
def renderSymbols (symbols : List Symbol) : Text :=
  if symbols.isEmpty then
    ['\x27', '\x27']
  else
    Text.joined [' '] (symbols.map Symbol.render)

/-- A rule on a line of its own. -/
def renderRule (rule : WrittenRule) : Text :=
  renderSymbols rule.lhs ++ [' ', '-', '>', ' '] ++
    Text.joined [' ', '|', ' '] (rule.alternatives.map renderSymbols) ++ [' ', ';', '\n']

/-- A directive on a line of its own. -/
def renderDirective (symbol : Symbol) : Text :=
  keyword ++ [' '] ++ symbol.render ++ [' ', ';', '\n']

/-- The written form of a script. -/
def render (script : Script) : Text :=
  match script.directive with
  | some symbol => renderDirective symbol ++ script.rules.flatMap renderRule
  | none => script.rules.flatMap renderRule

/-- Every symbol of a script can be written, and every rule has an alternative. -/
structure Readable (script : Script) : Prop where
  directive : ∀ symbol, script.directive = some symbol → symbol.Readable
  rules : ∀ rule ∈ script.rules, rule.Readable

/-- Every symbol of a script, in order. -/
def symbols (script : Script) : List Symbol :=
  script.directive.toList ++ script.rules.flatMap WrittenRule.symbols

theorem Readable.symbols {script : Script} (h : script.Readable) :
    ∀ symbol ∈ script.symbols, symbol.Readable := by
  intro symbol hsymbol
  rcases List.mem_append.mp hsymbol with hdirective | hrule
  · exact h.directive symbol (Option.mem_toList.mp hdirective)
  · obtain ⟨rule, hmem, hsymbol⟩ := List.mem_flatMap.mp hrule
    exact (h.rules rule hmem).symbols symbol hsymbol

end Script

/-! ### The script of a grammar -/

theorem Token.isQuotedChar_of_mem {token : Token} {c : Char} (h : c ∈ token.text) :
    Script.isQuotedChar c = true := by
  obtain ⟨_, hchars⟩ := Text.flaw?_eq_none_iff.mp token.flawless
  obtain ⟨hblank, hquotation⟩ := hchars c h
  simp [Script.isQuotedChar, hblank, hquotation]

namespace Grammar

variable {grammar : Grammar}

/-- A token as a symbol, quoted if it is a terminal. -/
def symbolOf (grammar : Grammar) (token : Token) : Symbol :=
  if grammar.isTerminal token then .quoted token.text else .bare token.text

theorem text_symbolOf (grammar : Grammar) (token : Token) :
    (grammar.symbolOf token).text = token.text := by
  unfold symbolOf
  split <;> rfl

theorem injective_symbolOf (grammar : Grammar) : Function.Injective grammar.symbolOf := by
  intro token other heq
  apply Token.ext
  rw [← text_symbolOf grammar token, heq, text_symbolOf]

/-- The way of writing a token tells its sort. -/
theorem sortOf_eq_sort_symbolOf {token : Token} (h : grammar.sorts.contains token = true) :
    grammar.sorts.sortOf token = some (grammar.symbolOf token).sort := by
  unfold symbolOf
  split
  · rename_i hterminal
    exact SortTable.isTerminal_iff.mp hterminal
  · rename_i hterminal
    rw [Bool.not_eq_true] at hterminal
    exact SortTable.isNonTerminal_iff.mp (SortTable.isNonTerminal_of_contains h hterminal)

/-- A rule with its tokens as symbols. -/
def writtenRule (grammar : Grammar) (rule : Rule) : WrittenRule where
  lhs := rule.lhs.map grammar.symbolOf
  alternatives := rule.alternatives.map fun alternative => alternative.map grammar.symbolOf

/-- The token of the directive: the start symbol, unless it has a rule. -/
def declared (grammar : Grammar) : Option Token :=
  match grammar.ruleFor? grammar.start with
  | some _ => none
  | none => some grammar.start

/-- The script that a grammar is written as. -/
def script (grammar : Grammar) : Script where
  directive := grammar.declared.map grammar.symbolOf
  rules := grammar.writtenOrder.map grammar.writtenRule

theorem start_eq_of_declared {token : Token} (h : grammar.declared = some token) :
    grammar.start = token := by
  unfold declared at h
  split at h
  · cases h
  · exact Option.some.inj h

theorem render_symbolOf (token : Token) :
    (grammar.symbolOf token).render = grammar.renderToken token := by
  unfold symbolOf renderToken
  split <;> rfl

theorem renderSymbols_map_symbolOf (phrase : Phrase) :
    Script.renderSymbols (phrase.map grammar.symbolOf) = grammar.renderPhrase phrase := by
  unfold Script.renderSymbols renderPhrase
  rw [List.isEmpty_map, List.map_map]
  have hrender : Symbol.render ∘ grammar.symbolOf = grammar.renderToken :=
    funext render_symbolOf
  rw [hrender]

theorem renderRule_writtenRule (rule : Rule) :
    Script.renderRule (grammar.writtenRule rule) = grammar.renderRule rule := by
  have hrender : (Script.renderSymbols ∘ fun alternative => alternative.map grammar.symbolOf) =
      grammar.renderPhrase := funext renderSymbols_map_symbolOf
  unfold Script.renderRule renderRule writtenRule
  rw [renderSymbols_map_symbolOf, List.map_map, hrender]

/-- The text of a grammar is the written form of its script. -/
theorem render_eq_render_script (grammar : Grammar) : grammar.render = grammar.script.render := by
  have hrules : grammar.script.rules.flatMap Script.renderRule =
      grammar.writtenOrder.flatMap grammar.renderRule := by
    rw [script, List.flatMap_map]
    congr 1
    funext rule
    exact renderRule_writtenRule rule
  unfold render Script.render
  rw [hrules]
  cases hrule : grammar.ruleFor? grammar.start with
  | some rule => simp [script, declared, hrule]
  | none =>
      simp [script, declared, hrule, Script.renderDirective, renderDirective, render_symbolOf]

/-! ### Readable scripts -/

/-- Every token in use is a terminal or can be written bare. -/
def Writable (grammar : Grammar) : Prop :=
  ∀ token ∈ grammar.tokens, grammar.isNonTerminal token = true → Script.isBare token.text = true

theorem unwritable?_eq_none_iff : grammar.unwritable? = none ↔ grammar.Writable := by
  simp [unwritable?, Writable]

theorem toText_eq_ok_iff {text : Text} :
    grammar.toText = .ok text ↔ grammar.Writable ∧ grammar.render = text := by
  unfold toText
  rw [← unwritable?_eq_none_iff]
  split
  · rename_i token hsome
    simp [hsome]
  · rename_i hnone
    simp [hnone]

theorem mem_tokens {token : Token} :
    token ∈ grammar.tokens ↔
      (∃ rule ∈ grammar.rules, token ∈ rule.tokens) ∨ token = grammar.start := by
  rw [tokens, List.mem_append, List.mem_flatMap, List.mem_singleton]

theorem contains_of_mem_tokens {token : Token} (h : token ∈ grammar.tokens) :
    grammar.sorts.contains token = true := by
  rcases mem_tokens.mp h with ⟨rule, hmem, htoken⟩ | rfl
  · exact grammar.classified rule hmem token htoken
  · exact grammar.start_classified

theorem Writable.readable_symbolOf (h : grammar.Writable) {token : Token}
    (htoken : token ∈ grammar.tokens) : (grammar.symbolOf token).Readable := by
  unfold symbolOf
  split
  · exact ⟨token.text_ne_nil, fun _ => Token.isQuotedChar_of_mem⟩
  · rename_i hterminal
    rw [Bool.not_eq_true] at hterminal
    exact h token htoken
      (SortTable.isNonTerminal_of_contains (contains_of_mem_tokens htoken) hterminal)

theorem mem_writtenOrder {rule : Rule} : rule ∈ grammar.writtenOrder ↔ rule ∈ grammar.rules := by
  unfold writtenOrder
  split
  · rename_i first hfirst
    obtain ⟨hmem, hlhs⟩ := ruleFor?_eq_some_iff.mp hfirst
    rw [List.mem_cons, List.mem_filter, decide_eq_true_iff]
    constructor
    · rintro (rfl | ⟨hrule, _⟩)
      · exact hmem
      · exact hrule
    · intro hrule
      -- The filter removes the first rule and, as left-hand phrases are distinct, no other.
      by_cases heq : rule.lhs = [grammar.start]
      · exact .inl (eq_of_lhs_eq hrule hmem (heq.trans hlhs.symm))
      · exact .inr ⟨hrule, heq⟩
  · rfl

/-- The start symbol's rule, if any, is written before the other rules. -/
theorem writtenOrder_eq (grammar : Grammar) :
    grammar.writtenOrder = (grammar.ruleFor? grammar.start).toList ++
      grammar.rules.filter fun rule => rule.lhs ≠ [grammar.start] := by
  unfold writtenOrder
  cases hrule : grammar.ruleFor? grammar.start with
  | some rule => rfl
  | none =>
      rw [Option.toList_none, List.nil_append, List.filter_eq_self.mpr]
      intro rule hmem
      rw [decide_eq_true_iff]
      intro hlhs
      rw [ruleFor?_eq_some_iff.mpr ⟨hmem, hlhs⟩] at hrule
      cases hrule

theorem nodup_rules (grammar : Grammar) : grammar.rules.Nodup :=
  List.Nodup.of_map _ grammar.nodup

/-- Writing reorders the rules. -/
theorem writtenOrder_perm (grammar : Grammar) : grammar.writtenOrder.Perm grammar.rules := by
  have hnodup : grammar.writtenOrder.Nodup := by
    unfold writtenOrder
    split
    · rename_i rule hrule
      refine List.nodup_cons.mpr ⟨?_, grammar.nodup_rules.filter _⟩
      intro hmem
      have hne := (List.mem_filter.mp hmem).2
      rw [decide_eq_true_iff] at hne
      exact hne (ruleFor?_eq_some_iff.mp hrule).2
    · exact grammar.nodup_rules
  exact (List.perm_ext_iff_of_nodup hnodup grammar.nodup_rules).mpr fun _ => mem_writtenOrder

theorem Writable.readable_script (h : grammar.Writable) : grammar.script.Readable := by
  have hsymbols : ∀ rule ∈ grammar.rules, ∀ token ∈ rule.tokens,
      (grammar.symbolOf token).Readable := by
    intro rule hrule token htoken
    exact h.readable_symbolOf (mem_tokens.mpr (.inl ⟨rule, hrule, htoken⟩))
  refine ⟨?_, ?_⟩
  · intro symbol hsymbol
    obtain ⟨token, htoken, rfl⟩ := Option.map_eq_some_iff.mp hsymbol
    obtain rfl := start_eq_of_declared htoken
    exact h.readable_symbolOf (mem_tokens.mpr (.inr rfl))
  · intro written hwritten
    obtain ⟨rule, hrule, rfl⟩ := List.mem_map.mp hwritten
    have hreadable := hsymbols rule (mem_writtenOrder.mp hrule)
    refine ⟨?_, ?_, ?_⟩
    · intro symbol hsymbol
      obtain ⟨token, htoken, rfl⟩ := List.mem_map.mp hsymbol
      exact hreadable token (Rule.mem_tokens.mpr (.inl htoken))
    · intro hnil
      exact rule.alternatives_ne_nil (List.map_eq_nil_iff.mp hnil)
    · intro symbols hsymbols symbol hsymbol
      obtain ⟨alternative, halternative, rfl⟩ := List.mem_map.mp hsymbols
      obtain ⟨token, htoken, rfl⟩ := List.mem_map.mp hsymbol
      exact hreadable token (Rule.mem_tokens.mpr (.inr ⟨alternative, halternative, htoken⟩))

end Grammar
end PhraseStructure
