import PhraseStructure.Token

/-!
# Phrases

A phrase is a finite sequence of tokens: an input, a sentential form or one side
of a production.  It has two written forms.  `spelled` puts one space between
neighbours and gives the empty text for the empty phrase; `render` differs from
it only on the empty phrase, which it writes as the letter epsilon.
-/

namespace PhraseStructure

/-- A finite sequence of tokens. -/
abbrev Phrase := List Token

namespace Phrase

/-- The letter that stands for the empty phrase. -/
def epsilon : Char := 'ε'

/-- The tokens with one space between neighbours. -/
def spelled (phrase : Phrase) : Text :=
  Text.joined [' '] (phrase.map Token.text)

/-- The tokens with one space between neighbours, or the letter epsilon. -/
def render (phrase : Phrase) : Text :=
  if phrase.isEmpty then [epsilon] else phrase.spelled

/-- The tokens from position `start` up to and excluding position `stop`. -/
def span (phrase : Phrase) (start stop : Nat) : Phrase :=
  (phrase.take stop).drop start

/-- The lexicographic order of phrases. -/
def order : Phrase → Phrase → Ordering
  | [], [] => .eq
  | [], _ :: _ => .lt
  | _ :: _, [] => .gt
  | a :: as, b :: bs => (a.order b).then (order as bs)

/-- The phrase begins with `opening`. -/
def startsWith (phrase opening : Phrase) : Bool :=
  opening.isPrefixOf phrase

/-- The phrase ends with `closing`. -/
def endsWith (phrase closing : Phrase) : Bool :=
  closing.isSuffixOf phrase

@[simp] theorem spelled_nil : spelled [] = [] := rfl

theorem render_eq_spelled {phrase : Phrase} (h : phrase ≠ []) :
    phrase.render = phrase.spelled := by
  simp [render, h]

theorem length_span {phrase : Phrase} {start stop : Nat}
    (hstop : stop ≤ phrase.length) :
    (phrase.span start stop).length = stop - start := by
  simp [span]
  omega

theorem span_zero_length (phrase : Phrase) : phrase.span 0 phrase.length = phrase := by
  simp [span]

theorem span_self (phrase : Phrase) (start : Nat) : phrase.span start start = [] := by
  rw [span, List.drop_eq_nil_iff]
  exact List.length_take_le ..

/-- A split of a part of a phrase is a split of its positions. -/
theorem span_eq_append {phrase first rest : Phrase} {start stop : Nat}
    (hstart : start ≤ stop) (hstop : stop ≤ phrase.length)
    (h : phrase.span start stop = first ++ rest) :
    start + first.length ≤ stop ∧ phrase.span start (start + first.length) = first ∧
      phrase.span (start + first.length) stop = rest := by
  have hlength : (phrase.span start stop).length = stop - start := length_span hstop
  rw [h, List.length_append] at hlength
  have hle : start + first.length ≤ stop := by omega
  refine ⟨hle, ?_, ?_⟩
  · calc
      phrase.span start (start + first.length) = (phrase.span start stop).take first.length := by
        rw [span, span, List.take_drop, List.take_take, Nat.min_eq_left hle]
      _ = first := by rw [h, List.take_left]
  · calc
      phrase.span (start + first.length) stop = (phrase.span start stop).drop first.length := by
        rw [span, span, List.drop_drop]
      _ = rest := by rw [h, List.drop_left]

end Phrase
end PhraseStructure
