import PhraseStructure.Proofs.Grammar.Construction
import PhraseStructure.Proofs.Script.Written
import PhraseStructure.Proofs.SortTable

/-!
# Classifying the symbols of a script

Classification goes through the symbols from left to right, and its invariant is that the table
has recorded exactly the symbols so far.  `Outcome` says what any stretch of it comes to: either
the invariant holds at its end, or a token has been found that stands in both ways so far, or an
empty left-hand side.

Nothing is assumed of the symbols but that their characters are those of tokens.  Whether a token
could be read back in the way in which it is written plays no part.
-/

namespace PhraseStructure

/-- There are two sorts. -/
theorem SymbolSort.eq_or_eq {known other : SymbolSort} (h : known ≠ other) (sort : SymbolSort) :
    sort = known ∨ sort = other := by
  cases known <;> cases other <;> cases sort <;> simp_all

namespace Symbol

/-- The symbol with these characters that is written in the way of this sort. -/
def ofSort : SymbolSort → Text → Symbol
  | .terminal => quoted
  | .nonTerminal => bare

theorem ofSort_eq_iff {sort : SymbolSort} {text : Text} {symbol : Symbol} :
    ofSort sort text = symbol ↔ symbol.sort = sort ∧ symbol.text = text := by
  cases sort <;> cases symbol <;> simp [ofSort, Symbol.sort, Symbol.text, eq_comm]

/-- There is a token with the characters of the symbol. -/
def HasToken (symbol : Symbol) : Prop :=
  ∃ token : Token, token.text = symbol.text

end Symbol

namespace Script

/-! ### One symbol after another -/

/-- The table has exactly the symbols as its entries. -/
def Records (sorts : SortTable) (symbols : List Symbol) : Prop :=
  ∀ token sort, sorts.sortOf token = some sort ↔ Symbol.ofSort sort token.text ∈ symbols

/-- The token is written in both ways. -/
def Clashes (symbols : List Symbol) (token : Token) : Prop :=
  ∀ sort, Symbol.ofSort sort token.text ∈ symbols

/-- The phrase has the characters of the symbols. -/
def Spells (phrase : Phrase) (symbols : List Symbol) : Prop :=
  phrase.map Token.text = symbols.map Symbol.text

/-- The rule is built from phrases with the characters of the symbols. -/
def Writes (written : WrittenRule) (rule : Rule) : Prop :=
  Spells rule.lhs written.lhs ∧ ∃ phrases : List Phrase,
    phrases.map (List.map Token.text) = written.alternatives.map (List.map Symbol.text) ∧
      rule.alternatives = phrases.eraseDups

/-- What classifying comes to when it has come to the end of `symbols`, or to a symbol that is
refused.  An empty left-hand phrase is a reason only if `blank`. -/
inductive Outcome {α : Type} (symbols : List Symbol) (blank : Prop) (value : α → Prop) :
    Except Error (α × SortTable) → Prop
  | classified {result : α} {sorts : SortTable} (hresult : value result)
      (hrecords : Records sorts symbols) : Outcome symbols blank value (.ok (result, sorts))
  | conflictingSort {token : Token} (hclashes : Clashes symbols token) :
      Outcome symbols blank value (.error (.conflictingSort token))
  | emptyLhs (hblank : blank) : Outcome symbols blank value (.error .emptyLhs)

variable {α β : Type} {sorts : SortTable} {seen symbols : List Symbol} {blank : Prop}

theorem Outcome.bind {more : List Symbol} {value : α → Prop} {value' : β → Prop}
    {first : Except Error (α × SortTable)} {next : α × SortTable → Except Error (β × SortTable)}
    (h : Outcome symbols blank value first) (hsubset : symbols ⊆ more)
    (hnext : ∀ result sorts, value result → Records sorts symbols →
      Outcome more blank value' (next (result, sorts))) :
    Outcome more blank value' (first >>= next) := by
  cases h with
  | classified hresult hrecords => exact hnext _ _ hresult hrecords
  | conflictingSort hclashes => exact .conflictingSort fun sort => hsubset (hclashes sort)
  | emptyLhs hblank => exact .emptyLhs hblank

theorem Records.unique {other : SortTable} (h : Records sorts symbols)
    (hother : Records other symbols) : sorts = other := by
  apply SortTable.ext_sortOf
  intro token
  apply Option.ext
  intro sort
  rw [h, hother]

theorem Records.contains_iff (h : Records sorts symbols) {token : Token} :
    sorts.contains token = true ↔ ∃ symbol ∈ symbols, symbol.text = token.text := by
  rw [SortTable.contains, Option.isSome_iff_exists]
  constructor
  · rintro ⟨sort, hsort⟩
    exact ⟨_, (h token sort).mp hsort, (Symbol.ofSort_eq_iff.mp rfl).2⟩
  · rintro ⟨symbol, hsymbol, htext⟩
    refine ⟨symbol.sort, (h token symbol.sort).mpr ?_⟩
    rwa [Symbol.ofSort_eq_iff.mpr ⟨rfl, htext⟩]

/-- Nothing that clashes can be recorded. -/
theorem Records.not_clashes (h : Records sorts symbols) (token : Token) :
    ¬ Clashes symbols token := by
  intro hclashes
  have hterminal := (h token .terminal).mpr (hclashes .terminal)
  have hnonTerminal := (h token .nonTerminal).mpr (hclashes .nonTerminal)
  rw [hterminal] at hnonTerminal
  cases hnonTerminal

theorem records_empty : Records .empty [] := by
  intro token sort
  simp [SortTable.sortOf_empty]

/-- A symbol is recorded, unless its characters are recorded in the other way. -/
theorem Records.outcome_classify (h : Records sorts seen) {symbol : Symbol} {token : Token}
    (htext : symbol.text = token.text) :
    (∃ sorts', sorts.classify token symbol.sort = .ok sorts' ∧ Records sorts' (seen ++ [symbol])) ∨
      (sorts.classify token symbol.sort = .error (.conflictingSort token) ∧
        Clashes (seen ++ [symbol]) token) := by
  have hself : Symbol.ofSort symbol.sort token.text ∈ seen ++ [symbol] := by
    rw [Symbol.ofSort_eq_iff.mpr ⟨rfl, htext⟩]
    exact List.mem_append_right _ List.mem_cons_self
  unfold SortTable.classify
  split
  · rename_i hnone
    refine .inl ⟨_, rfl, ?_⟩
    intro other sort
    rw [SortTable.sortOf_insert hnone, List.mem_append, List.mem_singleton, Symbol.ofSort_eq_iff,
      ← h]
    split
    · rename_i heq
      simp [heq, hnone, htext]
    · rename_i hne
      have htext' : symbol.text ≠ other.text := fun heq => hne (Token.ext (heq.symm.trans htext))
      simp [htext']
  · rename_i known hknown
    have hseen := (h token known).mp hknown
    split
    · rename_i hsame
      have hmem : symbol ∈ seen := by
        rwa [Symbol.ofSort_eq_iff.mpr ⟨hsame.symm, htext⟩] at hseen
      refine .inl ⟨_, rfl, ?_⟩
      intro other sort
      rw [h, List.mem_append, List.mem_singleton]
      exact ⟨.inl, fun hother => hother.elim id fun heq => heq ▸ hmem⟩
    · rename_i hne
      refine .inr ⟨rfl, ?_⟩
      intro sort
      rcases SymbolSort.eq_or_eq hne sort with rfl | rfl
      · exact List.mem_append_left _ hseen
      · exact hself

theorem outcome_classifySymbol (h : Records sorts seen) {symbol : Symbol}
    (htoken : symbol.HasToken) :
    Outcome (seen ++ [symbol]) blank (fun token => token.text = symbol.text)
      (classifySymbol sorts symbol) := by
  obtain ⟨token, htext⟩ := htoken
  rw [classifySymbol, Token.read_eq_ok_iff.mpr htext]
  show Outcome _ _ _ (sorts.classify token symbol.sort >>= fun sorts => .ok (token, sorts))
  rcases h.outcome_classify htext.symm with ⟨sorts', hclassify, hrecords⟩ | ⟨hclassify, hclashes⟩
  · rw [hclassify]
    exact .classified htext hrecords
  · rw [hclassify]
    exact .conflictingSort hclashes

theorem outcome_classifySymbols (h : Records sorts seen)
    (htokens : ∀ symbol ∈ symbols, symbol.HasToken) :
    Outcome (seen ++ symbols) blank (fun phrase => Spells phrase symbols)
      (classifySymbols sorts symbols) := by
  induction symbols generalizing sorts seen with
  | nil =>
      rw [List.append_nil]
      exact .classified rfl h
  | cons symbol symbols ih =>
      obtain ⟨hsymbol, hsymbols⟩ := List.forall_mem_cons.mp htokens
      have hafter : seen ++ symbol :: symbols = (seen ++ [symbol]) ++ symbols := by simp
      rw [hafter]
      refine (outcome_classifySymbol h hsymbol).bind (List.subset_append_left _ _) ?_
      intro token sorts htext h
      refine (ih h hsymbols).bind (List.Subset.refl _) ?_
      intro phrase sorts hphrase h
      refine .classified ?_ h
      show token.text :: phrase.map Token.text = symbol.text :: symbols.map Symbol.text
      rw [htext, hphrase]

theorem outcome_classifyAlternatives {alternatives : List (List Symbol)} (h : Records sorts seen)
    (htokens : ∀ symbol ∈ alternatives.flatten, symbol.HasToken) :
    Outcome (seen ++ alternatives.flatten) blank
      (fun phrases => phrases.map (List.map Token.text) = alternatives.map (List.map Symbol.text))
      (classifyAlternatives sorts alternatives) := by
  induction alternatives generalizing sorts seen with
  | nil =>
      rw [List.flatten_nil, List.append_nil]
      exact .classified rfl h
  | cons symbols alternatives ih =>
      rw [List.flatten_cons, List.forall_mem_append] at htokens
      obtain ⟨hsymbols, halternatives⟩ := htokens
      rw [List.flatten_cons, ← List.append_assoc]
      refine (outcome_classifySymbols h hsymbols).bind (List.subset_append_left _ _) ?_
      intro phrase sorts hphrase h
      refine (ih h halternatives).bind (List.Subset.refl _) ?_
      intro phrases sorts hphrases h
      refine .classified ?_ h
      show phrase.map Token.text :: phrases.map (List.map Token.text) =
        symbols.map Symbol.text :: alternatives.map (List.map Symbol.text)
      rw [hphrase, hphrases]

theorem outcome_classifyRules {written : List WrittenRule} (h : Records sorts seen)
    (htokens : ∀ symbol ∈ written.flatMap WrittenRule.symbols, symbol.HasToken)
    (halternatives : ∀ rule ∈ written, rule.alternatives ≠ [])
    (hblank : ∀ rule ∈ written, rule.lhs = [] → blank) :
    Outcome (seen ++ written.flatMap WrittenRule.symbols) blank
      (fun rules => List.Forall₂ Writes written rules) (classifyRules sorts written) := by
  induction written generalizing sorts seen with
  | nil =>
      rw [List.flatMap_nil, List.append_nil]
      exact .classified .nil h
  | cons first written ih =>
      rw [List.flatMap_cons, List.forall_mem_append, WrittenRule.symbols,
        List.forall_mem_append] at htokens
      obtain ⟨⟨hlhsTokens, hfirstTokens⟩, hrestTokens⟩ := htokens
      obtain ⟨hfirstNe, hrestNe⟩ := List.forall_mem_cons.mp halternatives
      obtain ⟨hblankFirst, hblankRest⟩ := List.forall_mem_cons.mp hblank
      have hafter : seen ++ (first :: written).flatMap WrittenRule.symbols =
          ((seen ++ first.lhs) ++ first.alternatives.flatten) ++
            written.flatMap WrittenRule.symbols := by
        simp [WrittenRule.symbols]
      have hsubset : seen ++ first.lhs ⊆ ((seen ++ first.lhs) ++ first.alternatives.flatten) ++
          written.flatMap WrittenRule.symbols := by
        rw [List.append_assoc]
        exact List.subset_append_left _ _
      rw [hafter]
      refine (outcome_classifySymbols h hlhsTokens).bind hsubset ?_
      intro lhs sorts hlhs h
      refine (outcome_classifyAlternatives h hfirstTokens).bind
        (List.subset_append_left _ _) ?_
      intro alternatives sorts hphrases h
      by_cases hnil : lhs = []
      · have hwrittenNil : first.lhs = [] := by
          rw [hnil] at hlhs
          exact List.map_eq_nil_iff.mp hlhs.symm
        rw [hnil]
        exact .emptyLhs (hblankFirst hwrittenNil)
      · have hne : alternatives ≠ [] := by
          rintro rfl
          exact hfirstNe (List.map_eq_nil_iff.mp hphrases.symm)
        obtain ⟨rule, hmake, rfl, hrule⟩ := Rule.exists_make_of_ne_nil hnil hne
        show Outcome _ _ _ (Rule.make rule.lhs alternatives >>= _)
        rw [hmake]
        refine (ih h hrestTokens hrestNe hblankRest).bind (List.Subset.refl _) ?_
        intro rules sorts hrules h
        exact .classified (.cons ⟨hlhs, alternatives, hphrases, hrule⟩ hrules) h

/-- A directive's symbol is the first one that is recorded. -/
theorem outcome_classifyDirective {directive : Option Symbol}
    (htokens : ∀ symbol ∈ directive.toList, symbol.HasToken) :
    Outcome directive.toList blank
      (fun declared => declared.map Token.text = directive.map Symbol.text)
      (classifyDirective directive) := by
  cases directive with
  | none => exact .classified rfl records_empty
  | some symbol =>
      refine (outcome_classifySymbol records_empty (htokens symbol List.mem_cons_self)).bind
        (List.Subset.refl _) ?_
      intro token sorts htext h
      exact .classified (congrArg some htext) h

end Script
end PhraseStructure
