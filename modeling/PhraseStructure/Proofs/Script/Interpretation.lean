import PhraseStructure.Proofs.Grammar.Merging
import PhraseStructure.Proofs.Script.Classification
import PhraseStructure.Proofs.Script.Reading

/-!
# What becomes of a script

A script is made into a grammar unless some characters stand in it both in quotation marks and
bare, some left-hand side is empty, or it names no start symbol.  No other check ever fails: what
can be read as a symbol is a token, every rule has an alternative, and everything that is used has
been classified.

The grammar has the script's symbols as its tokens and no others, and the script's rules, grouped
by their left-hand sides.  Which of several errors is reported is left open here.
-/

namespace PhraseStructure

/-- What can be read as a symbol is a token. -/
theorem Symbol.Readable.hasToken {symbol : Symbol} (h : symbol.Readable) : symbol.HasToken := by
  have hchars : symbol.text ≠ [] ∧ ∀ c ∈ symbol.text, Script.isQuotedChar c = true := by
    cases symbol with
    | quoted text => exact h
    | bare text =>
        refine ⟨Script.ne_nil_of_isSymbolRun (Script.isSymbolRun_of_isBare h), fun c hc => ?_⟩
        exact Script.isQuotedChar_of_isBareChar (Script.isBareChar_of_isBare h c hc)
  have hflaw : Text.flaw? symbol.text = none := by
    refine Text.flaw?_eq_none_iff.mpr ⟨hchars.1, fun c hc => ?_⟩
    simpa [Script.isQuotedChar] using hchars.2 c hc
  exact ⟨⟨symbol.text, hflaw⟩, rfl⟩

theorem bind_eq_ok_iff {ε α β : Type} {x : Except ε α} {f : α → Except ε β} {b : β} :
    (x >>= f) = .ok b ↔ ∃ a, x = .ok a ∧ f a = .ok b := by
  cases x <;> simp [bind, Except.bind]

/-- A list is determined by the values of a function, if these determine its items. -/
theorem map_eq_of_map_eq {α β γ : Type} {f : α → γ} {g : β → γ} {inverse : α → β} {items : List α}
    {wanted : List β} (h : items.map f = wanted.map g)
    (hinverse : ∀ item ∈ wanted, ∀ other, f other = g item → inverse other = item) :
    items.map inverse = wanted := by
  induction wanted generalizing items with
  | nil => rw [List.map_eq_nil_iff.mp h, List.map_nil]
  | cons item wanted ih =>
      obtain ⟨first, rest, rfl, hfirst, hrest⟩ := List.map_eq_cons_iff.mp h
      obtain ⟨hitem, hwanted⟩ := List.forall_mem_cons.mp hinverse
      rw [List.map_cons, hitem first hfirst, ih hrest hwanted]

/-- The left-hand side and the alternatives. -/
def WrittenRule.parts (written : WrittenRule) : List Symbol × List (List Symbol) :=
  (written.lhs, written.alternatives)

namespace Script

variable {sorts : SortTable} {symbols : List Symbol}

/-! ### From tokens back to symbols -/

theorem Spells.mem_iff {phrase : Phrase} (h : Spells phrase symbols) {token : Token} :
    token ∈ phrase ↔ ∃ symbol ∈ symbols, symbol.text = token.text := by
  have hinjective : Function.Injective Token.text := fun _ _ => Token.ext
  rw [← List.mem_map_of_injective hinjective, h, List.mem_map]

theorem Writes.mem_tokens_iff {written : WrittenRule} {rule : Rule} (h : Writes written rule)
    {token : Token} :
    token ∈ rule.tokens ↔ ∃ symbol ∈ written.symbols, symbol.text = token.text := by
  obtain ⟨hlhs, phrases, hphrases, hrule⟩ := h
  have hflatten : Spells phrases.flatten written.alternatives.flatten := by
    rw [Spells, List.map_flatten, hphrases, List.map_flatten]
  have halternatives : (∃ alternative ∈ rule.alternatives, token ∈ alternative) ↔
      token ∈ phrases.flatten := by
    simp only [hrule, List.mem_eraseDups, List.mem_flatten]
  rw [Rule.mem_tokens, halternatives, hlhs.mem_iff, hflatten.mem_iff]
  simp only [WrittenRule.symbols, List.mem_append, or_and_right, exists_or]

/-- No rule is built from an empty left-hand side. -/
theorem lhs_ne_nil_of_writes {written : List WrittenRule} {rules : List Rule}
    (h : List.Forall₂ Writes written rules) : ∀ rule ∈ written, rule.lhs ≠ [] := by
  induction h with
  | nil => simp
  | @cons first rule _ _ hfirst _ ih =>
      refine List.forall_mem_cons.mpr ⟨?_, ih⟩
      intro hnil
      have hlhs := hfirst.1
      rw [hnil] at hlhs
      exact rule.lhs_ne_nil (List.map_eq_nil_iff.mp hlhs)

/-- The rules use the symbols of the written rules and no others. -/
theorem exists_mem_tokens_iff {written : List WrittenRule} {rules : List Rule}
    (h : List.Forall₂ Writes written rules) {token : Token} :
    (∃ rule ∈ rules, token ∈ rule.tokens) ↔
      ∃ symbol ∈ written.flatMap WrittenRule.symbols, symbol.text = token.text := by
  induction h with
  | nil => simp
  | cons hfirst _ ih =>
      simp only [List.exists_mem_cons_iff, ih, hfirst.mem_tokens_iff, List.flatMap_cons,
        List.mem_append, or_and_right, exists_or]

section Symbols

variable {grammar : Grammar}

/-- A grammar writes a token in the way in which it has been recorded. -/
theorem Records.symbolOf_eq (h : Records grammar.sorts symbols) {symbol : Symbol} {token : Token}
    (hsymbol : symbol ∈ symbols) (htext : token.text = symbol.text) :
    grammar.symbolOf token = symbol := by
  have hsort : grammar.sorts.sortOf token = some symbol.sort := by
    refine (h token symbol.sort).mpr ?_
    rwa [Symbol.ofSort_eq_iff.mpr ⟨rfl, htext.symm⟩]
  have hwritten : grammar.sorts.sortOf token = some (grammar.symbolOf token).sort :=
    Grammar.sortOf_eq_sort_symbolOf (h.contains_iff.mpr ⟨symbol, hsymbol, htext.symm⟩)
  rw [hsort, Option.some.injEq] at hwritten
  rw [← Symbol.ofSort_eq_iff.mpr ⟨hwritten.symm, grammar.text_symbolOf token⟩,
    Symbol.ofSort_eq_iff.mpr ⟨rfl, htext.symm⟩]

theorem Records.map_symbolOf (h : Records grammar.sorts symbols) {phrase : Phrase}
    {written : List Symbol} (hwritten : written ⊆ symbols) (hspells : Spells phrase written) :
    phrase.map grammar.symbolOf = written :=
  map_eq_of_map_eq hspells fun _ hsymbol _ htext => h.symbolOf_eq (hwritten hsymbol) htext

/-- A rule is written again as what it is built from, without repeated alternatives. -/
theorem Records.parts_writtenRule (h : Records grammar.sorts symbols) {written : WrittenRule}
    {rule : Rule} (hwritten : written.symbols ⊆ symbols) (hrule : Writes written rule) :
    (grammar.writtenRule rule).parts = Prod.map id List.eraseDups written.parts := by
  obtain ⟨hlhs, phrases, hphrases, halternatives⟩ := hrule
  have hinjective : Function.Injective (List.map grammar.symbolOf) :=
    List.map_injective_iff.mpr (grammar.injective_symbolOf)
  have hlhs' : rule.lhs.map grammar.symbolOf = written.lhs :=
    h.map_symbolOf (List.Subset.trans (List.subset_append_left _ _) hwritten) hlhs
  have hphrases' : phrases.map (List.map grammar.symbolOf) = written.alternatives := by
    refine map_eq_of_map_eq hphrases fun alternative halternative phrase hspells => ?_
    refine h.map_symbolOf (fun symbol hsymbol => hwritten ?_) hspells
    exact List.mem_append_right _ (List.mem_flatten_of_mem halternative hsymbol)
  show (rule.lhs.map grammar.symbolOf, rule.alternatives.map (List.map grammar.symbolOf)) =
    (written.lhs, written.alternatives.eraseDups)
  rw [hlhs', halternatives, map_eraseDups hinjective, hphrases']

theorem Records.map_parts (h : Records grammar.sorts symbols) {written : List WrittenRule}
    {rules : List Rule} (hrules : List.Forall₂ Writes written rules)
    (hwritten : written.flatMap WrittenRule.symbols ⊆ symbols) :
    rules.map (fun rule => (grammar.writtenRule rule).parts) =
      (written.map WrittenRule.parts).map (Prod.map id List.eraseDups) := by
  induction hrules with
  | nil => rfl
  | cons hfirst _ ih =>
      rw [List.flatMap_cons, List.append_subset] at hwritten
      rw [List.map_cons, h.parts_writtenRule hwritten.1 hfirst, ih hwritten.2]
      rfl

end Symbols

/-! ### The start symbol -/

/-- The symbol that a script names as the start symbol: the directive's, else the only one on the
left-hand side of the first rule. -/
def start? (script : Script) : Option Symbol :=
  match script.directive, script.rules with
  | some symbol, _ => some symbol
  | none, ⟨[symbol], _⟩ :: _ => some symbol
  | none, _ => none

theorem mem_symbols_of_start? {script : Script} {symbol : Symbol}
    (h : script.start? = some symbol) : symbol ∈ script.symbols := by
  obtain ⟨directive, rules⟩ := script
  simp only [start?] at h
  split at h
  · cases h
    exact List.mem_append_left _ List.mem_cons_self
  · cases h
    exact List.mem_cons_self
  · cases h

/-- The start symbol of the rules is the one that the written rules name. -/
theorem firstToken_of_writes {written : List WrittenRule} {rules : List Rule}
    (h : List.Forall₂ Writes written rules) :
    (∃ symbol token, start? ⟨none, written⟩ = some symbol ∧ token.text = symbol.text ∧
        firstToken rules = .ok token) ∨
      (start? ⟨none, written⟩ = none ∧
        ∃ reason, firstToken rules = .error (.unreadable reason)) := by
  cases h with
  | nil => exact .inr ⟨rfl, _, rfl⟩
  | @cons first rule _ rules hfirst _ =>
      obtain ⟨lhs, alternatives⟩ := first
      have hspells : rule.lhs.map Token.text = lhs.map Symbol.text := hfirst.1
      -- The two left-hand sides are equally long, so three of the nine cases remain.
      rcases hlhs : rule.lhs with _ | ⟨token, _ | ⟨second, tokens⟩⟩ <;>
        rcases lhs with _ | ⟨symbol, _ | ⟨other, symbols⟩⟩ <;>
        simp_all [firstToken, start?]

/-! ### The grammar of a script -/

/-- What a grammar has from its script. -/
structure Describes (script : Script) (grammar : Grammar) : Prop where
  start : script.start? = some (grammar.symbolOf grammar.start)
  records : Records grammar.sorts script.symbols
  rules : ∃ rules, List.Forall₂ Writes script.rules rules ∧ grammar.rules = Rule.mergeAll rules

/-- What reading a script comes to. -/
inductive Reading (script : Script) : Except Error Grammar → Prop
  | built {grammar : Grammar} (h : script.Describes grammar) : Reading script (.ok grammar)
  | conflictingSort {token : Token} (h : Clashes script.symbols token) :
      Reading script (.error (.conflictingSort token))
  | emptyLhs (h : ∃ rule ∈ script.rules, rule.lhs = []) : Reading script (.error .emptyLhs)
  | unreadable {reason : String} (h : script.start? = none) :
      Reading script (.error (.unreadable reason))

theorem reading_make {script : Script} {rules : List Rule} {start : Token} {symbol : Symbol}
    (hrecords : Records sorts script.symbols) (hrules : List.Forall₂ Writes script.rules rules)
    (hstart : script.start? = some symbol) (htext : start.text = symbol.text) :
    Reading script (Grammar.make sorts rules start) := by
  have hmem := mem_symbols_of_start? hstart
  have hclassified : ∀ rule ∈ rules, ∀ token ∈ rule.tokens, sorts.contains token = true := by
    intro rule hrule token htoken
    obtain ⟨symbol, hsymbol, htext⟩ := (exists_mem_tokens_iff hrules).mp ⟨rule, hrule, htoken⟩
    exact hrecords.contains_iff.mpr ⟨symbol, List.mem_append_right _ hsymbol, htext⟩
  have hcontains : sorts.contains start = true := hrecords.contains_iff.mpr ⟨_, hmem, htext.symm⟩
  obtain ⟨grammar, hmake, rfl, hmerged, rfl⟩ :=
    Grammar.exists_make_of_classified hclassified hcontains
  rw [hmake]
  exact .built ⟨by rw [hrecords.symbolOf_eq hmem htext, hstart], hrecords, rules, hrules, hmerged⟩

theorem reading_toGrammar {script : Script} (htokens : ∀ symbol ∈ script.symbols, symbol.HasToken)
    (halternatives : ∀ rule ∈ script.rules, rule.alternatives ≠ []) :
    Reading script (script.toGrammar none) := by
  obtain ⟨directive, written⟩ := script
  rw [symbols, List.forall_mem_append] at htokens
  have hblank : ∀ rule ∈ written, rule.lhs = [] → ∃ rule ∈ written, rule.lhs = [] :=
    fun rule hrule hnil => ⟨rule, hrule, hnil⟩
  have hdirective : Outcome directive.toList (∃ rule ∈ written, rule.lhs = []) _ _ :=
    outcome_classifyDirective htokens.1
  simp only [toGrammar]
  generalize classifyDirective directive = result at hdirective
  cases hdirective with
  | conflictingSort hclashes =>
      exact .conflictingSort fun sort => List.mem_append_left _ (hclashes sort)
  | emptyLhs hblank => exact .emptyLhs hblank
  | @classified declared sorts hdeclared hrecords =>
      have hrules := outcome_classifyRules hrecords htokens.2 halternatives hblank
      show Reading _ (classifyRules sorts written >>= _)
      generalize classifyRules sorts written = result at hrules
      cases hrules with
      | conflictingSort hclashes => exact .conflictingSort hclashes
      | emptyLhs hblank => exact .emptyLhs hblank
      | @classified rules sorts hrules hrecords =>
          cases directive with
          | some symbol =>
              obtain ⟨start, rfl, htext⟩ := Option.map_eq_some_iff.mp hdeclared
              exact reading_make hrecords hrules rfl htext
          | none =>
              obtain rfl := Option.map_eq_none_iff.mp hdeclared
              show Reading _ (firstToken rules >>= fun start => Grammar.make sorts rules start)
              rcases firstToken_of_writes hrules with
                ⟨symbol, start, hstart, htext, hfirst⟩ | ⟨hstart, reason, hfirst⟩
              · rw [hfirst]
                exact reading_make hrecords hrules hstart htext
              · rw [hfirst]
                exact .unreadable hstart

variable {script : Script} {grammar : Grammar}

/-- Nothing is classified without being used. -/
theorem Describes.mem_tokens (h : script.Describes grammar) {token : Token}
    (hcontains : grammar.sorts.contains token = true) : token ∈ grammar.tokens := by
  obtain ⟨rules, hrules, hmerged⟩ := h.rules
  obtain ⟨symbol, hsymbol, htext⟩ := h.records.contains_iff.mp hcontains
  rw [Grammar.mem_tokens, hmerged, Rule.exists_mem_tokens_mergeAll_iff]
  rcases List.mem_append.mp hsymbol with hdirective | hsymbol
  · -- The directive's symbol is the one that is named as the start symbol.
    have hnamed : script.start? = some symbol := by
      rw [start?, Option.mem_toList.mp hdirective]
    have hstart : grammar.symbolOf grammar.start = symbol :=
      Option.some.inj (h.start.symm.trans hnamed)
    refine .inr (Token.ext ?_)
    rw [← htext, ← hstart, grammar.text_symbolOf]
  · exact .inl ((exists_mem_tokens_iff hrules).mpr ⟨symbol, hsymbol, htext⟩)

/-- The grammar is written again with the rules of the script, grouped by their left-hand
sides. -/
theorem Describes.map_parts (h : script.Describes grammar) :
    grammar.rules.map (fun rule => (grammar.writtenRule rule).parts) =
      grouped (script.rules.map WrittenRule.parts) := by
  obtain ⟨rules, hrules, hmerged⟩ := h.rules
  have hinjective := List.map_injective_iff.mpr (grammar.injective_symbolOf)
  have hparts : (fun rule => (grammar.writtenRule rule).parts) =
      Prod.map (List.map grammar.symbolOf) (List.map (List.map grammar.symbolOf)) ∘
        Rule.parts := rfl
  have heach := h.records.map_parts hrules (List.subset_append_right _ _)
  rw [hparts, ← List.map_map] at heach ⊢
  rw [hmerged, Rule.map_parts_mergeAll, ← grouped_map hinjective hinjective, heach,
    grouped_map_eraseDups]

/-- No characters are written in both ways. -/
theorem Describes.bare_not_mem (h : script.Describes grammar)
    (htokens : ∀ symbol ∈ script.symbols, symbol.HasToken) {chars : Text}
    (hquoted : Symbol.quoted chars ∈ script.symbols) : Symbol.bare chars ∉ script.symbols := by
  intro hbare
  obtain ⟨token, rfl⟩ := htokens _ hquoted
  refine h.records.not_clashes token fun sort => ?_
  cases sort with
  | terminal => exact hquoted
  | nonTerminal => exact hbare

/-! ### Reading a text -/

theorem reading_of_read {text : Text} (h : Script.read text = .ok script) :
    (∀ symbol ∈ script.symbols, symbol.HasToken) ∧ script.Reading (Grammar.read text) := by
  have hreadable := readable_of_read h
  have htokens : ∀ symbol ∈ script.symbols, symbol.HasToken :=
    fun symbol hsymbol => (hreadable.symbols symbol hsymbol).hasToken
  refine ⟨htokens, ?_⟩
  rw [Grammar.read, h]
  exact reading_toGrammar htokens fun rule hrule => (hreadable.rules rule hrule).alternatives_ne_nil

/-- A grammar that is read is the grammar of a script. -/
theorem exists_describes_of_read {text : Text} (h : Grammar.read text = .ok grammar) :
    ∃ script : Script, script.Readable ∧ script.Describes grammar := by
  obtain ⟨script, hscript, _⟩ := bind_eq_ok_iff.mp h
  obtain ⟨_, hreading⟩ := reading_of_read hscript
  rw [h] at hreading
  cases hreading with
  | built hdescribes => exact ⟨script, readable_of_read hscript, hdescribes⟩

end Script

namespace Grammar

/-- The text of a script is read as a grammar exactly if no characters stand in it in both ways, no
left-hand side is empty and a start symbol is named; a refusal gives one of these reasons.  The
grammar has the start symbol that is named, the sorts that are written, and the rules grouped by
their left-hand sides, which also come from the script's rules by merging with every check. -/
theorem read_interprets_script {text : Text} {script : Script} (h : Script.read text = .ok script) :
    ((∃ grammar, Grammar.read text = .ok grammar) ↔
        (∀ chars, Symbol.quoted chars ∈ script.symbols → Symbol.bare chars ∉ script.symbols) ∧
          (∀ rule ∈ script.rules, rule.lhs ≠ []) ∧ script.start? ≠ none) ∧
      (∀ error, Grammar.read text = .error error →
        (∃ token, error = .conflictingSort token ∧ Symbol.quoted token.text ∈ script.symbols ∧
            Symbol.bare token.text ∈ script.symbols) ∨
          (error = .emptyLhs ∧ ∃ rule ∈ script.rules, rule.lhs = []) ∨
          ∃ reason, error = .unreadable reason ∧ script.start? = none) ∧
      ∀ grammar, Grammar.read text = .ok grammar →
        script.start? = some (grammar.symbolOf grammar.start) ∧
          (∀ token, grammar.sorts.sortOf token = some .terminal ↔
            Symbol.quoted token.text ∈ script.symbols) ∧
          (∀ token, grammar.sorts.sortOf token = some .nonTerminal ↔
            Symbol.bare token.text ∈ script.symbols) ∧
          (∀ symbol ∈ script.symbols, ∃ token, grammar.symbolOf token = symbol) ∧
          grammar.rules.map (fun rule => (grammar.writtenRule rule).parts) =
            grouped (script.rules.map WrittenRule.parts) ∧
          ∃ rules, List.Forall₂ Script.Writes script.rules rules ∧
            Rule.mergeEach rules = .ok grammar.rules := by
  obtain ⟨htokens, hreading⟩ := Script.reading_of_read h
  generalize Grammar.read text = result at hreading
  refine ⟨⟨?_, ?_⟩, ?_, ?_⟩
  · rintro ⟨grammar, rfl⟩
    cases hreading with
    | built h =>
        obtain ⟨rules, hrules, _⟩ := h.rules
        refine ⟨fun _ => h.bare_not_mem htokens, Script.lhs_ne_nil_of_writes hrules, ?_⟩
        rw [h.start]
        exact Option.some_ne_none _
  · rintro ⟨hconsistent, hfilled, hnamed⟩
    cases hreading with
    | built => exact ⟨_, rfl⟩
    | conflictingSort hclashes =>
        exact absurd (hclashes .nonTerminal) (hconsistent _ (hclashes .terminal))
    | emptyLhs hempty =>
        obtain ⟨rule, hrule, hnil⟩ := hempty
        exact absurd hnil (hfilled rule hrule)
    | unreadable hnone => exact absurd hnone hnamed
  · rintro error rfl
    cases hreading with
    | conflictingSort hclashes =>
        exact .inl ⟨_, rfl, hclashes .terminal, hclashes .nonTerminal⟩
    | emptyLhs hempty => exact .inr (.inl ⟨rfl, hempty⟩)
    | unreadable hnone => exact .inr (.inr ⟨_, rfl, hnone⟩)
  · rintro grammar rfl
    cases hreading with
    | built h =>
        refine ⟨h.start, fun token => h.records token .terminal,
          fun token => h.records token .nonTerminal, ?_, h.map_parts, ?_⟩
        · intro symbol hsymbol
          obtain ⟨token, htext⟩ := htokens symbol hsymbol
          exact ⟨token, h.records.symbolOf_eq hsymbol htext⟩
        · obtain ⟨rules, hrules, hmerged⟩ := h.rules
          exact ⟨rules, hrules, by rw [Rule.mergeEach_eq, hmerged]⟩

/-- A directive, a rule in two parts, an alternative in two spellings, and an empty one. -/
theorem read_interprets_script_split :
    ∃ grammar, Grammar.read "%start B ; A -> 'x' A | \"x\" A ; B -> A | '' ; A -> 'y' ;".toList =
        .ok grammar ∧
      grammar.start.text = ['B'] ∧
      grammar.rules.map (fun rule => (grammar.writtenRule rule).parts) =
        [([.bare ['A']], [[.quoted ['x'], .bare ['A']], [.quoted ['y']]]),
          ([.bare ['B']], [[.bare ['A']], []])] := by
  have hscript : Script.read "%start B ; A -> 'x' A | \"x\" A ; B -> A | '' ; A -> 'y' ;".toList =
      .ok ⟨some (.bare ['B']),
        [⟨[.bare ['A']], [[.quoted ['x'], .bare ['A']], [.quoted ['x'], .bare ['A']]]⟩,
          ⟨[.bare ['B']], [[.bare ['A']], []]⟩, ⟨[.bare ['A']], [[.quoted ['y']]]⟩]⟩ := by
    decide +kernel
  obtain ⟨hbuilt, _, hgrammar⟩ := read_interprets_script hscript
  obtain ⟨grammar, hread⟩ := hbuilt.mpr ⟨by simp [Script.symbols, WrittenRule.symbols],
    by decide, by decide⟩
  obtain ⟨hstart, _, _, _, hrules, _⟩ := hgrammar grammar hread
  refine ⟨grammar, hread, ?_, ?_⟩
  · rw [← grammar.text_symbolOf, ← Option.some.inj hstart]
    rfl
  · rw [hrules]
    decide

end Grammar
end PhraseStructure
