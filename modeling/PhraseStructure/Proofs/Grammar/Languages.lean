import Mathlib.Computability.Language
import Mathlib.Order.CompletePartialOrder
import PhraseStructure.Proofs.Grammar.Yield

/-!
# Languages of tokens

The words that a token generates form its language.  A form generates the concatenations of
words of its tokens, so the languages of all tokens solve the system that the productions write
down: a terminal has itself as a word, and the language of a left-hand token contains the
product of the languages along each of its alternatives.

They are the least solution.  So a language is bounded from above by any family of languages
that is closed under the productions, with one inequality to check per production and no
induction over derivations.  From below there is no such bound; words are found by following
productions.
-/

namespace PhraseStructure

/-- A family of languages that holds terminals as their own words and is closed under the
context-free productions of a grammar holds whatever is yielded. -/
theorem Yields.mem_prod {grammar : Grammar} {allowEmpty : Bool} {height : Nat}
    {form word : Phrase} {language : Token → Language Token}
    (hterminal : ∀ token, grammar.isTerminal token = true → [token] ∈ language token)
    (hproduction : ∀ token alternative, grammar.ContextFreeProduction [token] alternative →
      (alternative.map language).prod ≤ language token)
    (h : Yields grammar allowEmpty height form word) : word ∈ (form.map language).prod := by
  induction h with
  | nil => exact Language.nil_mem_one
  | @keep _ token _ _ hkept _ ih =>
      rw [List.map_cons, List.prod_cons]
      exact Language.append_mem_mul (hterminal token hkept) ih
  | @expand _ token alternative _ _ _ hexpanded _ _ ihInner ihRest =>
      rw [List.map_cons, List.prod_cons]
      exact Language.append_mem_mul (hproduction token alternative hexpanded.1 ihInner) ihRest

namespace Grammar

variable {grammar : Grammar} {token : Token}

/-- The words that a token generates. -/
def languageOf (grammar : Grammar) (token : Token) : Language Token :=
  {word | grammar.Generates [token] word}

/-- The languages of all tokens are below every family that is closed under the productions. -/
theorem languageOf_le {language : Token → Language Token}
    (hterminal : ∀ token, grammar.isTerminal token = true → [token] ∈ language token)
    (hproduction : ∀ token alternative, grammar.ContextFreeProduction [token] alternative →
      (alternative.map language).prod ≤ language token) :
    grammar.languageOf token ≤ language token := by
  intro word hword
  obtain ⟨height, hyields⟩ := generates_iff.mp hword
  have hmem := hyields.mem_prod hterminal hproduction
  rwa [List.map_singleton, List.prod_singleton] at hmem

theorem mem_languageOf_of_isTerminal (h : grammar.isTerminal token = true) :
    [token] ∈ grammar.languageOf token := by
  refine ⟨?_, .refl _⟩
  intro other hother
  rwa [List.mem_singleton.mp hother]

theorem generates_of_mem_prod {form word : Phrase}
    (h : word ∈ (form.map grammar.languageOf).prod) : grammar.Generates form word := by
  induction form generalizing word with
  | nil =>
      obtain rfl := (Language.mem_one word).mp h
      exact ⟨by simp [IsWord], .refl []⟩
  | cons token form ih =>
      rw [List.map_cons, List.prod_cons] at h
      obtain ⟨first, ⟨hfirst, hleft⟩, second, hmem, rfl⟩ := Language.mem_mul.mp h
      obtain ⟨hsecond, hright⟩ := ih hmem
      refine ⟨?_, Derives.append hleft hright⟩
      intro other hother
      exact (List.mem_append.mp hother).elim (hfirst other) (hsecond other)

theorem prod_le_languageOf {alternative : Phrase}
    (h : grammar.ContextFreeProduction [token] alternative) :
    (alternative.map grammar.languageOf).prod ≤ grammar.languageOf token := by
  intro word hword
  obtain ⟨hisWord, hderives⟩ := generates_of_mem_prod hword
  exact ⟨hisWord, (Derives.single h).trans hderives⟩

end Grammar
end PhraseStructure
