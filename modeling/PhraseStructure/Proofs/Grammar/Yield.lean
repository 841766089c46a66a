import Mathlib.Data.List.Forall2
import Mathlib.Data.List.Nodup
import PhraseStructure.Grammar.Derivation
import PhraseStructure.Proofs.SortTable

/-!
# Yields of sentential forms

A derivation by context-free rules replaces each token of a form independently of
its neighbours.  `Yields` says this directly: the word falls into one part per
token, a terminal stands for itself, and any other token for a part that one of its
alternatives yields.  The index bounds how deep the replacements nest.  It is what
an induction over derivations runs on, and what makes a shortest derivation
available: a yield of least height never passes through the same token and part
twice.

The flag excludes empty alternatives when it is `false`.  With it, one relation
covers derivations by all context-free rules and derivations without ε productions.

The order in which a derivation replaces tokens is lost.
-/

namespace PhraseStructure

namespace Rule

theorem isContextFree_iff {rule : Rule} {sorts : SortTable} :
    rule.isContextFree sorts = true ↔
      ∃ token, rule.lhs = [token] ∧ sorts.isNonTerminal token = true := by
  unfold isContextFree
  split
  · rename_i token hlhs
    simp [hlhs]
  · rename_i hlhs
    simp only [Bool.false_eq_true, false_iff, not_exists, not_and]
    intro token heq
    exact absurd heq (hlhs token)

end Rule

namespace Grammar

variable {grammar : Grammar}

theorem mem_contextFreeRules {rule : Rule} :
    rule ∈ grammar.contextFreeRules ↔
      rule ∈ grammar.rules ∧
        ∃ token, rule.lhs = [token] ∧ grammar.isNonTerminal token = true := by
  rw [contextFreeRules, List.mem_filter, Rule.isContextFree_iff]
  rfl

/-- Rules with one left-hand phrase are one rule. -/
theorem eq_of_lhs_eq {left right : Rule} (hleft : left ∈ grammar.rules)
    (hright : right ∈ grammar.rules) (h : left.lhs = right.lhs) : left = right :=
  List.inj_on_of_nodup_map grammar.nodup hleft hright h

theorem ruleFor?_eq_some_iff {token : Token} {rule : Rule} :
    grammar.ruleFor? token = some rule ↔ rule ∈ grammar.rules ∧ rule.lhs = [token] :=
  find?_key_eq_some_iff grammar.nodup

theorem ContextFreeProduction.exists_token {lhs alternative : Phrase}
    (h : grammar.ContextFreeProduction lhs alternative) :
    ∃ token, lhs = [token] ∧ grammar.isNonTerminal token = true := by
  obtain ⟨rule, hrule, rfl, _⟩ := h
  exact (mem_contextFreeRules.mp hrule).2

theorem ContextFreeProduction.isTerminal_eq_false {token : Token} {alternative : Phrase}
    (h : grammar.ContextFreeProduction [token] alternative) :
    grammar.isTerminal token = false := by
  obtain ⟨other, heq, hnonTerminal⟩ := h.exists_token
  obtain rfl : token = other := List.singleton_inj.mp heq
  exact SortTable.isTerminal_eq_false_of_isNonTerminal hnonTerminal

/-- The alternatives of a token are those of its rule, unless it is a terminal. -/
theorem contextFreeProduction_iff {token : Token} {alternative : Phrase} :
    grammar.ContextFreeProduction [token] alternative ↔
      grammar.isTerminal token = false ∧
        ∃ rule, grammar.ruleFor? token = some rule ∧ alternative ∈ rule.alternatives := by
  constructor
  · intro h
    refine ⟨h.isTerminal_eq_false, ?_⟩
    obtain ⟨rule, hrule, hlhs, halternative⟩ := h
    have hmem := (mem_contextFreeRules.mp hrule).1
    exact ⟨rule, ruleFor?_eq_some_iff.mpr ⟨hmem, hlhs⟩, halternative⟩
  · rintro ⟨hterminal, rule, hrule, halternative⟩
    obtain ⟨hmem, hlhs⟩ := ruleFor?_eq_some_iff.mp hrule
    have hcontains := grammar.classified rule hmem token
      (Rule.mem_tokens.mpr (.inl (by simp [hlhs])))
    have hnonTerminal := SortTable.isNonTerminal_of_contains hcontains hterminal
    exact ⟨rule, mem_contextFreeRules.mpr ⟨hmem, token, hlhs, hnonTerminal⟩, hlhs,
      halternative⟩

/-- A production whose left-hand phrase is a single non-terminal, and whose
alternative is not empty unless `allowEmpty`. -/
def UsableProduction (grammar : Grammar) (allowEmpty : Bool) (lhs alternative : Phrase) : Prop :=
  grammar.ContextFreeProduction lhs alternative ∧ (allowEmpty = false → alternative ≠ [])

theorem ContextFreeProduction.usable {lhs alternative : Phrase}
    (h : grammar.ContextFreeProduction lhs alternative) :
    grammar.UsableProduction true lhs alternative :=
  ⟨h, fun hfalse => nomatch hfalse⟩

end Grammar

/-- Every token of a form stands for a part of a word, in order: a terminal for
itself, and any other token for a part that one of its alternatives yields.  The
replacements nest at most `height` deep, and empty alternatives are used only if
`allowEmpty`. -/
inductive Yields (grammar : Grammar) (allowEmpty : Bool) : Nat → Phrase → Phrase → Prop
  | nil (height : Nat) : Yields grammar allowEmpty height [] []
  | keep {height : Nat} {token : Token} {form word : Phrase}
      (h : grammar.isTerminal token = true)
      (rest : Yields grammar allowEmpty height form word) :
      Yields grammar allowEmpty height (token :: form) (token :: word)
  | expand {height : Nat} {token : Token} {alternative form part word : Phrase}
      (h : grammar.UsableProduction allowEmpty [token] alternative)
      (inner : Yields grammar allowEmpty height alternative part)
      (rest : Yields grammar allowEmpty (height + 1) form word) :
      Yields grammar allowEmpty (height + 1) (token :: form) (part ++ word)

namespace Yields

variable {grammar : Grammar} {allowEmpty : Bool}

theorem mono {height greater : Nat} {form word : Phrase} (hle : height ≤ greater)
    (h : Yields grammar allowEmpty height form word) :
    Yields grammar allowEmpty greater form word := by
  induction h generalizing greater with
  | nil => exact .nil greater
  | keep hterminal _ ih => exact .keep hterminal (ih hle)
  | expand hproduction _ _ ihInner ihRest =>
      obtain ⟨less, rfl⟩ : ∃ less, greater = less + 1 := ⟨greater - 1, by omega⟩
      exact .expand hproduction (ihInner (by omega)) (ihRest hle)

theorem append {height : Nat} {left right first second : Phrase}
    (hleft : Yields grammar allowEmpty height left first)
    (hright : Yields grammar allowEmpty height right second) :
    Yields grammar allowEmpty height (left ++ right) (first ++ second) := by
  induction hleft with
  | nil => exact hright
  | keep hterminal _ ih => exact .keep hterminal (ih hright)
  | expand hproduction hinner _ _ ih =>
      rw [List.append_assoc]
      exact .expand hproduction hinner (ih hright)

/-- The yield of a concatenation falls into the yields of its parts. -/
theorem exists_of_append {height : Nat} {left right word : Phrase}
    (h : Yields grammar allowEmpty height (left ++ right) word) :
    ∃ first second, word = first ++ second ∧
      Yields grammar allowEmpty height left first ∧
      Yields grammar allowEmpty height right second := by
  induction left generalizing word with
  | nil => exact ⟨[], word, rfl, .nil height, h⟩
  | cons token left ih =>
      cases h with
      | keep hterminal hrest =>
          obtain ⟨first, second, rfl, hfirst, hsecond⟩ := ih hrest
          exact ⟨token :: first, second, rfl, .keep hterminal hfirst, hsecond⟩
      | @expand _ _ _ _ part _ hproduction hinner hrest =>
          obtain ⟨first, second, rfl, hfirst, hsecond⟩ := ih hrest
          exact ⟨part ++ first, second, (List.append_assoc ..).symm,
            .expand hproduction hinner hfirst, hsecond⟩

theorem eq_nil {height : Nat} {word : Phrase}
    (h : Yields grammar allowEmpty height [] word) : word = [] := by
  cases h
  rfl

theorem isWord {height : Nat} {form word : Phrase}
    (h : Yields grammar allowEmpty height form word) : grammar.IsWord word := by
  induction h with
  | nil => simp [Grammar.IsWord]
  | keep hterminal _ ih =>
      intro token htoken
      rcases List.mem_cons.mp htoken with rfl | htoken
      · exact hterminal
      · exact ih token htoken
  | expand _ _ _ ihInner ihRest =>
      intro token htoken
      rcases List.mem_append.mp htoken with htoken | htoken
      · exact ihInner token htoken
      · exact ihRest token htoken

/-! ### One token -/

theorem of_terminal (height : Nat) {token : Token} (h : grammar.isTerminal token = true) :
    Yields grammar allowEmpty height [token] [token] :=
  .keep h (.nil height)

theorem of_production {height : Nat} {token : Token} {alternative part : Phrase}
    (h : grammar.UsableProduction allowEmpty [token] alternative)
    (inner : Yields grammar allowEmpty height alternative part) :
    Yields grammar allowEmpty (height + 1) [token] part := by
  have hexpand := Yields.expand h inner (.nil (height + 1))
  rwa [List.append_nil] at hexpand

theorem eq_of_terminal {height : Nat} {token : Token} {part : Phrase}
    (hterminal : grammar.isTerminal token = true)
    (h : Yields grammar allowEmpty height [token] part) : part = [token] := by
  cases h with
  | keep _ hrest =>
      cases hrest
      rfl
  | expand hproduction _ _ =>
      rw [hproduction.1.isTerminal_eq_false] at hterminal
      cases hterminal

theorem terminal_iff {token : Token} {part : Phrase} (h : grammar.isTerminal token = true) :
    (∃ height, Yields grammar allowEmpty height [token] part) ↔ part = [token] := by
  constructor
  · rintro ⟨height, hyields⟩
    exact hyields.eq_of_terminal h
  · rintro rfl
    exact ⟨0, .of_terminal 0 h⟩

theorem exists_production {height : Nat} {token : Token} {part : Phrase}
    (hterminal : grammar.isTerminal token = false)
    (h : Yields grammar allowEmpty height [token] part) :
    ∃ less alternative, height = less + 1 ∧
      grammar.UsableProduction allowEmpty [token] alternative ∧
      Yields grammar allowEmpty less alternative part := by
  cases h with
  | keep htrue _ =>
      rw [htrue] at hterminal
      cases hterminal
  | @expand less _ alternative _ part _ hproduction hinner hrest =>
      cases hrest
      rw [List.append_nil]
      exact ⟨less, alternative, rfl, hproduction, hinner⟩

/-- Apart from terminals only non-terminals yield anything. -/
theorem isNonTerminal {height : Nat} {token : Token} {part : Phrase}
    (hterminal : grammar.isTerminal token = false)
    (h : Yields grammar allowEmpty height [token] part) :
    grammar.isNonTerminal token = true := by
  obtain ⟨_, _, _, hproduction, _⟩ := h.exists_production hterminal
  obtain ⟨other, heq, hnonTerminal⟩ := hproduction.1.exists_token
  cases heq
  exact hnonTerminal

/-! ### One part per token -/

/-- The yield of a form falls into one part per token. -/
theorem exists_parts {height : Nat} {form word : Phrase}
    (h : Yields grammar allowEmpty height form word) :
    ∃ parts : List Phrase, parts.flatten = word ∧
      List.Forall₂ (fun token part => Yields grammar allowEmpty height [token] part)
        form parts := by
  induction form generalizing word with
  | nil =>
      cases h
      exact ⟨[], rfl, .nil⟩
  | cons token form ih =>
      have hcons : Yields grammar allowEmpty height ([token] ++ form) word := h
      obtain ⟨first, second, rfl, hfirst, hsecond⟩ := exists_of_append hcons
      obtain ⟨parts, rfl, hparts⟩ := ih hsecond
      exact ⟨first :: parts, rfl, .cons hfirst hparts⟩

/-- Parts that the tokens of a form yield one by one are a yield of the form. -/
theorem of_parts {form : Phrase} {parts : List Phrase}
    (h : List.Forall₂ (fun token part => ∃ height, Yields grammar allowEmpty height [token] part)
      form parts) :
    ∃ height, Yields grammar allowEmpty height form parts.flatten := by
  induction h with
  | nil => exact ⟨0, .nil 0⟩
  | cons hfirst _ ih =>
      obtain ⟨first, hfirst⟩ := hfirst
      obtain ⟨second, hsecond⟩ := ih
      -- Yields of different heights are put together at the greater height.
      exact ⟨max first second, append (hfirst.mono (Nat.le_max_left ..))
        (hsecond.mono (Nat.le_max_right ..))⟩

/-- Without empty alternatives every token yields at least one token. -/
theorem length_le {height : Nat} {form word : Phrase}
    (h : Yields grammar false height form word) : form.length ≤ word.length := by
  induction h with
  | nil => exact Nat.le_refl _
  | keep _ _ ih => exact Nat.succ_le_succ ih
  | expand hproduction _ _ ihInner ihRest =>
      have hpos := List.length_pos_iff.mpr (hproduction.2 rfl)
      rw [List.length_append, List.length_cons]
      omega

/-- Without empty alternatives no token of a form has an empty part. -/
theorem parts_ne_nil {height : Nat} {form : Phrase} {parts : List Phrase}
    (h : List.Forall₂ (fun token part => Yields grammar false height [token] part) form parts) :
    ∀ part ∈ parts, part ≠ [] := by
  induction h with
  | nil => simp
  | cons hfirst _ ih =>
      have hpos : 1 ≤ _ := hfirst.length_le
      exact List.forall_mem_cons.mpr ⟨List.length_pos_iff.mp hpos, ih⟩

/-! ### Terminals of a form -/

/-- A form of terminals yields nothing but itself. -/
theorem eq_of_isWord {height : Nat} {form word : Phrase} (hform : grammar.IsWord form)
    (h : Yields grammar allowEmpty height form word) : word = form := by
  induction h with
  | nil => rfl
  | keep _ _ ih => rw [ih fun token htoken => hform token (List.mem_cons_of_mem _ htoken)]
  | expand hproduction _ _ _ _ =>
      have hterminal := hform _ List.mem_cons_self
      rw [hproduction.1.isTerminal_eq_false] at hterminal
      cases hterminal

/-- A terminal occurs at least as often in the yield as in the form. -/
theorem count_le {height : Nat} {form word : Phrase} {terminal : Token}
    (hterminal : grammar.isTerminal terminal = true)
    (h : Yields grammar allowEmpty height form word) :
    form.count terminal ≤ word.count terminal := by
  induction h with
  | nil => exact Nat.le_refl _
  | keep _ _ ih =>
      rw [List.count_cons, List.count_cons]
      omega
  | @expand _ token _ _ _ _ hproduction _ _ _ ih =>
      have hne : token ≠ terminal := by
        rintro rfl
        rw [hproduction.1.isTerminal_eq_false] at hterminal
        cases hterminal
      rw [List.count_cons_of_ne hne, List.count_append]
      omega

/-! ### Yields and derivations -/

theorem derives {height : Nat} {form word : Phrase}
    (h : Yields grammar allowEmpty height form word) :
    Derives (grammar.UsableProduction allowEmpty) form word := by
  induction h with
  | nil => exact .refl []
  | @keep _ token _ _ _ _ ih => exact Derives.append (.refl [token]) ih
  | expand hproduction _ _ ihInner ihRest =>
      exact Derives.append ((Derives.single hproduction).trans ihInner) ihRest

theorem of_isWord {word : Phrase} (h : grammar.IsWord word) :
    Yields grammar allowEmpty 0 word word := by
  induction word with
  | nil => exact .nil 0
  | cons token word ih =>
      exact .keep (h token List.mem_cons_self)
        (ih fun other hother => h other (List.mem_cons_of_mem _ hother))

/-- A derivation of a word is a yield: going backwards, each step puts one more
expansion on top of the part that its alternative yields. -/
theorem exists_of_derives {form word : Phrase} (hword : grammar.IsWord word)
    (h : Derives (grammar.UsableProduction allowEmpty) form word) :
    ∃ height, Yields grammar allowEmpty height form word := by
  induction h with
  | refl => exact ⟨0, of_isWord hword⟩
  | head hstep _ ih =>
      obtain ⟨height, hyields⟩ := ih hword
      obtain ⟨before, after, hproduction⟩ := hstep
      obtain ⟨token, rfl, _⟩ := hproduction.1.exists_token
      -- The alternative that the first step wrote yields the middle of the word.
      obtain ⟨front, back, rfl, hfront, hback⟩ := exists_of_append hyields
      obtain ⟨left, middle, rfl, hleft, hmiddle⟩ := exists_of_append hfront
      have htop := of_production hproduction hmiddle
      have hle := Nat.le_succ height
      exact ⟨height + 1, append (append (hleft.mono hle) htop) (hback.mono hle)⟩

end Yields

namespace Grammar

variable {grammar : Grammar} {form word : Phrase}

theorem generates_iff :
    grammar.Generates form word ↔ ∃ height, Yields grammar true height form word := by
  constructor
  · rintro ⟨hword, hderives⟩
    refine Yields.exists_of_derives hword (hderives.mono ?_)
    intro lhs alternative hproduction
    exact hproduction.usable
  · rintro ⟨height, h⟩
    exact ⟨h.isWord, h.derives.mono fun _ _ hproduction => hproduction.1⟩

theorem generatesWithoutEpsilon_iff :
    grammar.GeneratesWithoutEpsilon form word ↔
      ∃ height, Yields grammar false height form word := by
  constructor
  · rintro ⟨hword, hderives⟩
    refine Yields.exists_of_derives hword (hderives.mono ?_)
    intro lhs alternative hproduction
    exact ⟨hproduction.1, fun _ => hproduction.2⟩
  · rintro ⟨height, h⟩
    exact ⟨h.isWord, h.derives.mono fun _ _ hproduction =>
      ⟨hproduction.1, hproduction.2 rfl⟩⟩

theorem GeneratesWithoutEpsilon.generates (h : grammar.GeneratesWithoutEpsilon form word) :
    grammar.Generates form word :=
  ⟨h.1, h.2.mono fun _ _ hproduction => hproduction.1⟩

/-- Without ε productions a form does not vanish. -/
theorem GeneratesWithoutEpsilon.ne_nil (h : grammar.GeneratesWithoutEpsilon form word)
    (hform : form ≠ []) : word ≠ [] := by
  obtain ⟨height, hyields⟩ := generatesWithoutEpsilon_iff.mp h
  have hpos := List.length_pos_iff.mpr hform
  exact List.length_pos_iff.mp (Nat.lt_of_lt_of_le hpos hyields.length_le)

/-- Where no context-free rule has an empty alternative, no ε production is missed. -/
theorem generatesWithoutEpsilon_iff_of_not_mem
    (h : ∀ rule ∈ grammar.contextFreeRules, [] ∉ rule.alternatives) :
    grammar.GeneratesWithoutEpsilon form word ↔ grammar.Generates form word := by
  refine ⟨GeneratesWithoutEpsilon.generates, ?_⟩
  rintro ⟨hword, hderives⟩
  refine ⟨hword, hderives.mono ?_⟩
  intro lhs alternative hproduction
  refine ⟨hproduction, ?_⟩
  rintro rfl
  obtain ⟨rule, hrule, _, hempty⟩ := hproduction
  exact h rule hrule hempty

end Grammar
end PhraseStructure
