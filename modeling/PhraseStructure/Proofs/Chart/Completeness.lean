import PhraseStructure.Proofs.Chart.Fitting

/-!
# Complete cells

Marking a non-terminal that yields a part keeps a chart sound, and marks are never lost.
A cell to which no rule can add anything holds every non-terminal that yields its part,
provided all shorter cells do.  The proof is by induction on the height of the yield:
the parts of an alternative are shorter, or one of them is the whole part and is
yielded at a smaller height.

Being closed is a statement about one state of the chart and can be lost when other
cells gain marks.  Being complete is not.
-/

namespace PhraseStructure
namespace Chart

/-- A chart with the same names and at least the same marks. -/
structure Extends (chart chart' : Chart) : Prop where
  names_eq : chart'.names = chart.names
  has : ∀ length start number, chart.has length start number = true →
    chart'.has length start number = true

namespace Extends

variable {chart chart' chart'' : Chart}

theorem refl (chart : Chart) : chart.Extends chart :=
  ⟨rfl, fun _ _ _ h => h⟩

theorem trans (h : chart.Extends chart') (h' : chart'.Extends chart'') :
    chart.Extends chart'' :=
  ⟨h'.names_eq.trans h.names_eq, fun length start number hhas =>
    h'.has length start number (h.has length start number hhas)⟩

theorem knows (h : chart.Extends chart') {length start : Nat} {token : Token}
    (hknows : chart.Knows length start token) : chart'.Knows length start token := by
  obtain ⟨number, hnumber, hhas⟩ := hknows
  exact ⟨number, h.names_eq.symm ▸ hnumber, h.has length start number hhas⟩

end Extends

variable {grammar : Grammar} {input : Phrase} {chart chart' : Chart} {length start : Nat}

/-- Marking a non-terminal that yields the part keeps the chart sound. -/
theorem Sound.exists_mark (hsound : chart.Sound grammar input) {number : Nat} {token : Token}
    (h : start + length ≤ input.length) (hnumber : chart.names[number]? = some token)
    (hyields : ∃ height,
      Yields grammar true height [token] (input.span start (start + length))) :
    ∃ chart', chart.mark length start number = .ok (chart', !chart.has length start number) ∧
      chart'.Sound grammar input ∧ chart.Extends chart' ∧
      chart'.has length start number = true := by
  obtain ⟨hlt, _⟩ := List.getElem?_eq_some_iff.mp hnumber
  obtain ⟨chart', hmark, hmarking⟩ :=
    Chart.exists_mark hsound.wellFormed (hsound.size_eq.symm ▸ h) hlt
  refine ⟨chart', hmark, ?_, ⟨hmarking.names_eq, ?_⟩, ?_⟩
  · refine ⟨hmarking.wellFormed, hmarking.size_eq.trans hsound.size_eq,
      hmarking.names_eq.trans hsound.names_eq, ?_⟩
    rintro length' start' token' ⟨number', hnumber', hhas⟩
    rw [hmarking.names_eq] at hnumber'
    -- A mark of the new chart was there before or is the one that was set.
    rcases (hmarking.has_iff ..).mp hhas with hhas | ⟨rfl, rfl, rfl⟩
    · exact hsound.yields _ _ _ ⟨number', hnumber', hhas⟩
    · obtain rfl : token = token' := Option.some.inj (hnumber.symm.trans hnumber')
      exact hyields
  · intro length' start' number' hhas
    exact (hmarking.has_iff ..).mpr (.inl hhas)
  · exact (hmarking.has_iff ..).mpr (.inr ⟨rfl, rfl, rfl⟩)

/-- Every non-terminal that yields the `length` tokens at `start` is marked. -/
def CompleteAt (chart : Chart) (grammar : Grammar) (input : Phrase) (length start : Nat) : Prop :=
  ∀ height, chart.KnowsUpTo grammar input height length start

theorem CompleteAt.extend (hcomplete : chart.CompleteAt grammar input length start)
    (hextends : chart.Extends chart') : chart'.CompleteAt grammar input length start := by
  intro height token hyields hnonTerminal
  exact hextends.knows (hcomplete height token hyields hnonTerminal)

/-- No rule can add a mark to a cell. -/
def ClosedAt (chart : Chart) (grammar : Grammar) (input : Phrase) (length start : Nat) : Prop :=
  ∀ token alternative, grammar.Production [token] alternative →
    chart.Covers input length start alternative → chart.Knows length start token

/-- A closed cell is complete if all shorter cells are. -/
theorem Sound.completeAt_of_closedAt (hsound : chart.Sound grammar input) (hpos : 0 < length)
    (h : start + length ≤ input.length)
    (hclosed : chart.ClosedAt grammar input length start)
    (hshorter : ∀ shorter start', shorter < length → start' + shorter ≤ input.length →
      chart.CompleteAt grammar input shorter start') :
    chart.CompleteAt grammar input length start := by
  intro height
  induction height with
  | zero =>
      intro token hyields hnonTerminal
      have hterminal := SortTable.isTerminal_eq_false_of_isNonTerminal hnonTerminal
      obtain ⟨_, _, hheight, _⟩ := hyields.exists_production hterminal
      omega
  | succ height ih =>
      intro token hyields hnonTerminal
      have hterminal := SortTable.isTerminal_eq_false_of_isNonTerminal hnonTerminal
      obtain ⟨less, alternative, hheight, hproduction, hyields⟩ :=
        hyields.exists_production hterminal
      obtain rfl : height = less := Nat.succ.inj hheight
      -- The part is not empty, so the alternative is one that the recognizer tries.
      have halternative : alternative ≠ [] := by
        rintro rfl
        have hspan := congrArg List.length hyields.eq_nil
        rw [Phrase.length_span h, List.length_nil] at hspan
        omega
      refine hclosed token alternative hproduction.1.production ?_
      apply hsound.covers_of_yields halternative h hyields
      intro length' start' hlow hhigh
      -- Only the part itself has as many tokens, and for it the height has become smaller.
      by_cases hlength : length' < length
      · exact hshorter length' start' hlength (by omega) height
      · obtain ⟨rfl, rfl⟩ : length' = length ∧ start' = start := by omega
        exact ih

end Chart
end PhraseStructure
