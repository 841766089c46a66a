import PhraseStructure.Proofs.Chart.Recognition
import PhraseStructure.Proofs.Grammar.Outline
import PhraseStructure.Proofs.TopDown.Recognition
import PhraseStructure.Samples

/-!
# The languages of the sample grammars

Each sample is read and built without an error, and its outline is computed from its text.
From the outlines come the languages:

* one or more `a` and as many `b`;
* digits with an optional fraction and an optional signed exponent;
* one or more `a`, though the start symbol leads back to itself;
* no words at all for the context-sensitive sample.

The last is not what that sample is written for.  Words of `a`, as many `b` and as many `c`
are derived by productions that replace two tokens, and the recognizers use none of those.
Bottom-up recognition says so by refusing the grammar; top-down recognition rejects every
input instead.

The ε-free variant is left out for decimal numbers, where it would have to do without the
empty alternative.
-/

namespace PhraseStructure
namespace Sample

open Outline
open scoped Computability

/-! ### Symbols and outlines -/

def a : Token := ⟨['a'], rfl⟩
def b : Token := ⟨['b'], rfl⟩
def c : Token := ⟨['c'], rfl⟩
def S : Token := ⟨['S'], rfl⟩
def A : Token := ⟨['A'], rfl⟩
def B : Token := ⟨['B'], rfl⟩
def C : Token := ⟨['C'], rfl⟩
def W : Token := ⟨['W'], rfl⟩
def Z : Token := ⟨['Z'], rfl⟩
def number : Token := ⟨['N', 'u', 'm', 'b', 'e', 'r'], rfl⟩
def integer : Token := ⟨['I', 'n', 't', 'e', 'g', 'e', 'r'], rfl⟩
def fraction : Token := ⟨['F', 'r', 'a', 'c', 't', 'i', 'o', 'n'], rfl⟩
def scale : Token := ⟨['S', 'c', 'a', 'l', 'e'], rfl⟩
def sign : Token := ⟨['S', 'i', 'g', 'n'], rfl⟩
def digit : Token := ⟨['D', 'i', 'g', 'i', 't'], rfl⟩
def empty : Token := ⟨['E', 'm', 'p', 't', 'y'], rfl⟩
def point : Token := ⟨['.'], rfl⟩
def exponent : Token := ⟨['e'], rfl⟩
def plus : Token := ⟨['+'], rfl⟩
def minus : Token := ⟨['-'], rfl⟩

/-- The digits, one token each. -/
def decimals : List Token :=
  [⟨['0'], rfl⟩, ⟨['1'], rfl⟩, ⟨['2'], rfl⟩, ⟨['3'], rfl⟩, ⟨['4'], rfl⟩, ⟨['5'], rfl⟩,
    ⟨['6'], rfl⟩, ⟨['7'], rfl⟩, ⟨['8'], rfl⟩, ⟨['9'], rfl⟩]

/-- What the text of a sample says. -/
def outline : Sample → Outline
  | anbn => {
      start := S
      nonTerminals := [S]
      terminals := [a, b]
      productions := [([S], [a, S, b]), ([S], [a, b])]
      kind := .contextFree }
  | numbers => {
      start := number
      nonTerminals := [digit, empty, fraction, integer, number, scale, sign]
      terminals := [plus, minus, point] ++ decimals ++ [exponent]
      productions :=
        [([number], [integer, fraction, scale]), ([integer], [digit]),
          ([integer], [integer, digit]), ([fraction], [point, integer]), ([fraction], [empty]),
          ([scale], [exponent, sign, integer]), ([scale], [empty]), ([sign], [plus]),
          ([sign], [minus])] ++
        decimals.map (fun decimal => ([digit], [decimal])) ++ [([empty], [])]
      kind := .contextFree }
  | cyclic => {
      start := S
      nonTerminals := [A, S]
      terminals := [a]
      productions := [([S], [S]), ([S], [A, a]), ([S], [a]), ([A], [S])]
      kind := .regular }
  | anbncn => {
      start := S
      nonTerminals := [B, C, S, W, Z]
      terminals := [a, b, c]
      productions :=
        [([S], [a, S, B, C]), ([S], [a, B, C]), ([C, B], [C, Z]), ([C, Z], [W, Z]),
          ([W, Z], [W, C]), ([W, C], [B, C]), ([a, B], [a, b]), ([b, B], [b, b]),
          ([b, C], [b, c]), ([c, C], [c, c])]
      kind := .contextSensitive }

/-- A sample is read and built without an error. -/
theorem map_outline_grammar (sample : Sample) :
    sample.grammar.map Grammar.outline = .ok sample.outline := by
  unfold grammar
  cases sample with
  | anbn => decide +kernel
  | cyclic => decide +kernel
  | numbers =>
      -- A long text is first turned into its characters, since the kernel would decode its
      -- bytes each time it looks at it.
      unfold text numbersText
      repeat rw [String.toList_append]
      repeat rw [String.toList_ofList]
      decide +kernel
  | anbncn =>
      unfold text anbncnText
      repeat rw [String.toList_append]
      repeat rw [String.toList_ofList]
      decide +kernel

/-! ### One or more `a` and as many `b` -/

/-- The words of one or more `a` and as many `b`. -/
def anbnWords : Language Token :=
  {word | ∃ n, 1 ≤ n ∧ word = List.replicate n a ++ List.replicate n b}

theorem languageOf_anbn {grammar : Grammar} (h : grammar.outline = anbn.outline) :
    grammar.languageOf S = anbnWords := by
  apply le_antisymm
  · refine languageOf_le_family h [(S, anbnWords)] (by decide) ?_ S
    simp only [outline, List.forall_mem_cons]
    refine ⟨?_, ?_, by simp⟩
    · show {[a]} * (anbnWords * ({[b]} * 1)) ≤ anbnWords
      -- A word of the product is `a`, then a word of the language, then `b`.
      rintro _ ⟨_, rfl, _, ⟨_, ⟨n, hn, rfl⟩, _, ⟨_, rfl, _, rfl, rfl⟩, rfl⟩, rfl⟩
      refine ⟨n + 1, by omega, ?_⟩
      simp [List.replicate_succ, ← List.replicate_succ']
    · show {[a]} * ({[b]} * 1) ≤ anbnWords
      rintro _ ⟨_, rfl, _, ⟨_, rfl, _, rfl, rfl⟩, rfl⟩
      exact ⟨1, Nat.le_refl 1, rfl⟩
  · rintro word ⟨n, hn, rfl⟩
    have ha : [a] ∈ grammar.languageOf a := singleton_le_languageOf h (by decide) rfl
    have hb : [b] ∈ grammar.languageOf b := singleton_le_languageOf h (by decide) rfl
    induction n, hn using Nat.le_induction with
    | base =>
        have hproduction : ([S], [a, b]) ∈ anbn.outline.productions := by decide
        exact prod_le_languageOf h (by decide) hproduction
          (Language.append_mem_mul ha (Language.append_mem_mul hb Language.nil_mem_one))
    | succ n _ ih =>
        have hproduction : ([S], [a, S, b]) ∈ anbn.outline.productions := by decide
        have hword : List.replicate (n + 1) a ++ List.replicate (n + 1) b =
            [a] ++ ((List.replicate n a ++ List.replicate n b) ++ ([b] ++ [])) := by
          simp [List.replicate_succ, ← List.replicate_succ']
        rw [hword]
        exact prod_le_languageOf h (by decide) hproduction (Language.append_mem_mul ha
          (Language.append_mem_mul ih (Language.append_mem_mul hb Language.nil_mem_one)))

/-! ### One or more `a` -/

/-- The words of one or more `a`. -/
def cyclicWords : Language Token :=
  {word | ∃ n, 1 ≤ n ∧ word = List.replicate n a}

theorem languageOf_cyclic {grammar : Grammar} (h : grammar.outline = cyclic.outline) :
    grammar.languageOf S = cyclicWords := by
  apply le_antisymm
  · refine languageOf_le_family h [(S, cyclicWords), (A, cyclicWords)] (by decide) ?_ S
    simp only [outline, List.forall_mem_cons]
    refine ⟨?_, ?_, ?_, ?_, by simp⟩
    · show cyclicWords * 1 ≤ cyclicWords
      rw [mul_one]
    · show cyclicWords * ({[a]} * 1) ≤ cyclicWords
      rintro _ ⟨_, ⟨n, hn, rfl⟩, _, ⟨_, rfl, _, rfl, rfl⟩, rfl⟩
      exact ⟨n + 1, by omega, List.replicate_succ'.symm⟩
    · show {[a]} * 1 ≤ cyclicWords
      rintro _ ⟨_, rfl, _, rfl, rfl⟩
      exact ⟨1, Nat.le_refl 1, rfl⟩
    · show cyclicWords * 1 ≤ cyclicWords
      rw [mul_one]
  · rintro word ⟨n, hn, rfl⟩
    have ha : [a] ∈ grammar.languageOf a := singleton_le_languageOf h (by decide) rfl
    induction n, hn using Nat.le_induction with
    | base =>
        have hproduction : ([S], [a]) ∈ cyclic.outline.productions := by decide
        exact prod_le_languageOf h (by decide) hproduction
          (Language.append_mem_mul ha Language.nil_mem_one)
    | succ n _ ih =>
        have hproduction : ([S], [A, a]) ∈ cyclic.outline.productions := by decide
        have hback : ([A], [S]) ∈ cyclic.outline.productions := by decide
        have hA : List.replicate n a ∈ grammar.languageOf A := by
          rw [← List.append_nil (List.replicate n a)]
          exact prod_le_languageOf h (by decide) hback
            (Language.append_mem_mul ih Language.nil_mem_one)
        rw [List.replicate_succ']
        exact prod_le_languageOf h (by decide) hproduction
          (Language.append_mem_mul hA (Language.append_mem_mul ha Language.nil_mem_one))

/-! ### Decimal numbers -/

/-- The words of one digit. -/
def digitWords : Language Token :=
  {word | ∃ decimal ∈ decimals, word = [decimal]}

/-- One or more digits. -/
def digits : Language Token :=
  digitWords * digitWords∗

/-- One of two signs. -/
def signs : Language Token :=
  {[plus]} + {[minus]}

/-- Nothing, or a point and digits. -/
def fractions : Language Token :=
  1 + {[point]} * digits

/-- Nothing, or a letter, a sign and digits. -/
def scales : Language Token :=
  1 + {[exponent]} * signs * digits

/-- Digits with an optional fraction and an optional scale. -/
def numberWords : Language Token :=
  digits * fractions * scales

/-- The languages of the symbols of decimal numbers. -/
def numberFamily : List (Token × Language Token) :=
  [(number, numberWords), (integer, digits), (fraction, fractions), (scale, scales),
    (sign, signs), (digit, digitWords), (empty, 1)]

theorem languageOf_numbers_le {grammar : Grammar} (h : grammar.outline = numbers.outline) :
    grammar.languageOf number ≤ numberWords := by
  refine languageOf_le_family h numberFamily (by decide) ?_ number
  simp only [outline, List.forall_mem_append, List.forall_mem_map, List.forall_mem_cons]
  refine ⟨⟨⟨?_, ?_, ?_, ?_, ?_, ?_, ?_, ?_, ?_, by simp⟩, ?_⟩, ?_, by simp⟩
  · show digits * (fractions * (scales * 1)) ≤ numberWords
    rw [mul_one, ← mul_assoc, numberWords]
  · show digitWords * 1 ≤ digitWords * digitWords∗
    exact mul_le_mul_right one_le_kstar digitWords
  · show digits * (digitWords * 1) ≤ digits
    rw [mul_one, digits, mul_assoc]
    exact mul_le_mul_right kstar_mul_le_kstar digitWords
  · show {[point]} * (digits * 1) ≤ 1 + {[point]} * digits
    rw [mul_one]
    exact le_add_self
  · show 1 * 1 ≤ 1 + {[point]} * digits
    rw [mul_one]
    exact le_self_add
  · show {[exponent]} * (signs * (digits * 1)) ≤ 1 + {[exponent]} * signs * digits
    rw [mul_one, ← mul_assoc]
    exact le_add_self
  · show 1 * 1 ≤ 1 + {[exponent]} * signs * digits
    rw [mul_one]
    exact le_self_add
  · show {[plus]} * 1 ≤ {[plus]} + {[minus]}
    rw [mul_one]
    exact le_self_add
  · show {[minus]} * 1 ≤ {[plus]} + {[minus]}
    rw [mul_one]
    exact le_add_self
  · intro decimal hdecimal
    have hnot : ∀ decimal ∈ decimals, decimal ∉ numberFamily.map Prod.fst := by decide
    show family numberFamily decimal * 1 ≤ digitWords
    rw [mul_one, family_of_not_mem (hnot decimal hdecimal)]
    rintro _ rfl
    exact ⟨decimal, hdecimal, rfl⟩
  · show (1 : Language Token) ≤ 1
    exact le_refl _

theorem digitWords_le_languageOf {grammar : Grammar} (h : grammar.outline = numbers.outline) :
    digitWords ≤ grammar.languageOf digit := by
  rintro _ ⟨decimal, hdecimal, rfl⟩
  have hterminal : decimal ∈ numbers.outline.terminals := by simp [outline, hdecimal]
  have hproduction : ([digit], [decimal]) ∈ numbers.outline.productions := by
    simp [outline, hdecimal]
  exact prod_le_languageOf h (by decide) hproduction
    (Language.append_mem_mul (singleton_le_languageOf h hterminal rfl) Language.nil_mem_one)

theorem le_languageOf_numbers {grammar : Grammar} (h : grammar.outline = numbers.outline) :
    numberWords ≤ grammar.languageOf number := by
  have hpoint : {[point]} ≤ grammar.languageOf point := singleton_le_languageOf h (by decide)
  have hexponent : {[exponent]} ≤ grammar.languageOf exponent :=
    singleton_le_languageOf h (by decide)
  have hplus : {[plus]} ≤ grammar.languageOf plus := singleton_le_languageOf h (by decide)
  have hminus : {[minus]} ≤ grammar.languageOf minus := singleton_le_languageOf h (by decide)
  have hempty : 1 ≤ grammar.languageOf empty := prod_le_languageOf h (by decide)
    (by decide : ([empty], []) ∈ numbers.outline.productions)
  have hdigit := digitWords_le_languageOf h
  have hdigits : digits ≤ grammar.languageOf integer := by
    apply mul_kstar_le
    · calc
        digitWords ≤ ([digit].map grammar.languageOf).prod := by simpa using hdigit
        _ ≤ grammar.languageOf integer := prod_le_languageOf h (by decide) (by decide)
    · calc
        grammar.languageOf integer * digitWords ≤
            ([integer, digit].map grammar.languageOf).prod := by
          simpa using mul_le_mul_right hdigit (grammar.languageOf integer)
        _ ≤ grammar.languageOf integer := prod_le_languageOf h (by decide) (by decide)
  have hsigns : signs ≤ grammar.languageOf sign := by
    apply add_le
    · calc
        {[plus]} ≤ ([plus].map grammar.languageOf).prod := by simpa using hplus
        _ ≤ grammar.languageOf sign := prod_le_languageOf h (by decide) (by decide)
    · calc
        {[minus]} ≤ ([minus].map grammar.languageOf).prod := by simpa using hminus
        _ ≤ grammar.languageOf sign := prod_le_languageOf h (by decide) (by decide)
  have hfractions : fractions ≤ grammar.languageOf fraction := by
    apply add_le
    · calc
        1 ≤ ([empty].map grammar.languageOf).prod := by simpa using hempty
        _ ≤ grammar.languageOf fraction := prod_le_languageOf h (by decide) (by decide)
    · calc
        {[point]} * digits ≤ ([point, integer].map grammar.languageOf).prod := by
          simpa using mul_le_mul' hpoint hdigits
        _ ≤ grammar.languageOf fraction := prod_le_languageOf h (by decide) (by decide)
  have hscales : scales ≤ grammar.languageOf scale := by
    apply add_le
    · calc
        1 ≤ ([empty].map grammar.languageOf).prod := by simpa using hempty
        _ ≤ grammar.languageOf scale := prod_le_languageOf h (by decide) (by decide)
    · calc
        {[exponent]} * signs * digits ≤
            ([exponent, sign, integer].map grammar.languageOf).prod := by
          simpa [mul_assoc] using mul_le_mul' (mul_le_mul' hexponent hsigns) hdigits
        _ ≤ grammar.languageOf scale := prod_le_languageOf h (by decide) (by decide)
  calc
    numberWords ≤ ([integer, fraction, scale].map grammar.languageOf).prod := by
      simpa [numberWords, mul_assoc] using mul_le_mul' (mul_le_mul' hdigits hfractions) hscales
    _ ≤ grammar.languageOf number := prod_le_languageOf h (by decide) (by decide)

theorem languageOf_numbers {grammar : Grammar} (h : grammar.outline = numbers.outline) :
    grammar.languageOf number = numberWords :=
  le_antisymm (languageOf_numbers_le h) (le_languageOf_numbers h)

/-! ### No words -/

/-- The start symbol leads to words only through productions that are not context-free. -/
theorem languageOf_anbncn_le {grammar : Grammar} (h : grammar.outline = anbncn.outline) :
    grammar.languageOf S ≤ 0 := by
  refine languageOf_le_family h [(S, 0), (B, 0), (C, 0)] (by decide) ?_ S
  simp only [outline, List.forall_mem_cons]
  refine ⟨?_, ?_, trivial, trivial, trivial, trivial, trivial, trivial, trivial, trivial, by simp⟩
  · show {[a]} * (0 * (0 * (0 * 1))) ≤ (0 : Language Token)
    rw [zero_mul, mul_zero]
  · show {[a]} * (0 * (0 * 1)) ≤ (0 : Language Token)
    rw [zero_mul, mul_zero]

/-! ### The recognizers -/

theorem exists_grammar (sample : Sample) :
    ∃ grammar, sample.grammar = .ok grammar ∧ grammar.outline = sample.outline := by
  have hmap := map_outline_grammar sample
  cases hgrammar : sample.grammar with
  | error error =>
      rw [hgrammar] at hmap
      cases hmap
  | ok grammar =>
      rw [hgrammar] at hmap
      exact ⟨grammar, rfl, Except.ok.inj hmap⟩

section Verdicts

variable {grammar : Grammar} {outline : Outline} (houtline : grammar.outline = outline)

include houtline

/-- Bottom-up recognition decides the language of a start symbol that is a non-terminal. -/
theorem exists_bottomUp (hkind : Kind.contextFree.rank ≤ outline.kind.rank)
    (hstart : outline.start ∈ outline.nonTerminals) :
    ∃ recognizer, BottomUp.make grammar = .ok recognizer ∧
      ∀ input, Decides (recognizer.recognizes input)
        (input ∈ grammar.languageOf outline.start) := by
  subst houtline
  obtain ⟨recognizer, hmake⟩ : ∃ recognizer, BottomUp.make grammar = .ok recognizer :=
    ⟨_, if_neg (Nat.not_lt.mpr hkind)⟩
  refine ⟨recognizer, hmake, ?_⟩
  obtain ⟨hmade, rfl⟩ := BottomUp.made_of_make hmake
  have hnonTerminal := Grammar.isNonTerminal_iff_mem_outline.mpr hstart
  intro input
  exact (BottomUp.recognizes_decides hmade input).congr (and_iff_right hnonTerminal)

theorem make_eq_error (hkind : outline.kind.rank < Kind.contextFree.rank) :
    BottomUp.make grammar = .error ⟨outline.kind⟩ := by
  subst houtline
  exact if_pos hkind

theorem general_decides (input : Phrase) :
    Decides ((TopDown.general grammar).recognizes input)
      (input ∈ grammar.languageOf outline.start) := by
  subst houtline
  exact TopDown.general_recognizes grammar input

/-- Without empty alternatives the ε-free variant decides the same. -/
theorem epsilonFree_decides (hproductions : ∀ production ∈ outline.productions, production.2 ≠ [])
    (input : Phrase) :
    Decides ((TopDown.epsilonFree grammar).recognizes input)
      (input ∈ grammar.languageOf outline.start) := by
  subst houtline
  apply (TopDown.epsilonFree_matchesForm grammar [grammar.start] input).congr
  apply Grammar.generatesWithoutEpsilon_iff_of_not_mem
  intro rule hrule hempty
  obtain ⟨hmem, _⟩ := Grammar.mem_contextFreeRules.mp hrule
  have hproduction : (rule.lhs, []) ∈ grammar.outline.productions :=
    Rule.mem_productions.mpr ⟨rule, hmem, rfl, hempty⟩
  exact hproductions _ hproduction rfl

end Verdicts

/-- A sample whose outline is context-free has all recognizers, and they decide the language
of its start symbol, the ε-free variant if no alternative is empty. -/
theorem exists_recognizer (sample : Sample) {words : Language Token}
    (hkind : Kind.contextFree.rank ≤ sample.outline.kind.rank)
    (hstart : sample.outline.start ∈ sample.outline.nonTerminals)
    (hwords : ∀ {grammar : Grammar}, grammar.outline = sample.outline →
      grammar.languageOf sample.outline.start = words) :
    ∃ grammar recognizer, sample.grammar = .ok grammar ∧ BottomUp.make grammar = .ok recognizer ∧
      (∀ input, Decides (recognizer.recognizes input) (input ∈ words) ∧
        Decides ((TopDown.general grammar).recognizes input) (input ∈ words)) ∧
      ((∀ production ∈ sample.outline.productions, production.2 ≠ []) →
        ∀ input, Decides ((TopDown.epsilonFree grammar).recognizes input) (input ∈ words)) := by
  obtain ⟨grammar, hgrammar, houtline⟩ := exists_grammar sample
  obtain ⟨recognizer, hmake, hbottomUp⟩ := exists_bottomUp houtline hkind hstart
  refine ⟨grammar, recognizer, hgrammar, hmake, ?_⟩
  rw [← hwords houtline]
  constructor
  · exact fun input => ⟨hbottomUp input, general_decides houtline input⟩
  · exact fun hproductions input => epsilonFree_decides houtline hproductions input

/-- The recognizers of the samples accept the languages that the samples are written for,
except that no recognizer accepts a word of the context-sensitive one. -/
theorem recognizers_decide_languages :
    (∃ grammar recognizer, anbn.grammar = .ok grammar ∧ BottomUp.make grammar = .ok recognizer ∧
        ∀ input, Decides (recognizer.recognizes input) (input ∈ anbnWords) ∧
          Decides ((TopDown.general grammar).recognizes input) (input ∈ anbnWords) ∧
          Decides ((TopDown.epsilonFree grammar).recognizes input) (input ∈ anbnWords)) ∧
      (∃ grammar recognizer, cyclic.grammar = .ok grammar ∧
        BottomUp.make grammar = .ok recognizer ∧
        ∀ input, Decides (recognizer.recognizes input) (input ∈ cyclicWords) ∧
          Decides ((TopDown.general grammar).recognizes input) (input ∈ cyclicWords) ∧
          Decides ((TopDown.epsilonFree grammar).recognizes input) (input ∈ cyclicWords)) ∧
      (∃ grammar recognizer, numbers.grammar = .ok grammar ∧
        BottomUp.make grammar = .ok recognizer ∧
        ∀ input, Decides (recognizer.recognizes input) (input ∈ numberWords) ∧
          Decides ((TopDown.general grammar).recognizes input) (input ∈ numberWords)) ∧
      ∃ grammar, anbncn.grammar = .ok grammar ∧
        BottomUp.make grammar = .error ⟨.contextSensitive⟩ ∧
        ∀ input, (TopDown.general grammar).recognizes input = .ok false ∧
          (TopDown.epsilonFree grammar).recognizes input = .ok false := by
  refine ⟨?_, ?_, ?_, ?_⟩
  · obtain ⟨grammar, recognizer, hgrammar, hmake, hverdicts, hepsilonFree⟩ :=
      exists_recognizer anbn (by decide) (by decide) languageOf_anbn
    refine ⟨grammar, recognizer, hgrammar, hmake, ?_⟩
    intro input
    exact ⟨(hverdicts input).1, (hverdicts input).2, hepsilonFree (by decide) input⟩
  · obtain ⟨grammar, recognizer, hgrammar, hmake, hverdicts, hepsilonFree⟩ :=
      exists_recognizer cyclic (by decide) (by decide) languageOf_cyclic
    refine ⟨grammar, recognizer, hgrammar, hmake, ?_⟩
    intro input
    exact ⟨(hverdicts input).1, (hverdicts input).2, hepsilonFree (by decide) input⟩
  · obtain ⟨grammar, recognizer, hgrammar, hmake, hverdicts, _⟩ :=
      exists_recognizer numbers (by decide) (by decide) languageOf_numbers
    exact ⟨grammar, recognizer, hgrammar, hmake, hverdicts⟩
  · obtain ⟨grammar, hgrammar, houtline⟩ := exists_grammar anbncn
    refine ⟨grammar, hgrammar, make_eq_error houtline (by decide), ?_⟩
    intro input
    have hnot : input ∉ grammar.languageOf S := fun hmem => languageOf_anbncn_le houtline hmem
    exact ⟨(general_decides houtline input).eq_ok_false hnot,
      (epsilonFree_decides houtline (by decide) input).eq_ok_false hnot⟩

end Sample
end PhraseStructure
