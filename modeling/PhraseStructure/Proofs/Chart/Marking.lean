import PhraseStructure.Proofs.Chart.Comparison
import PhraseStructure.Proofs.Chart.Fitting
import PhraseStructure.Proofs.Words

/-!
# Marking a chart again and again

The places of a chart follow its cells by length and, for one length, by position.  Every cell
has a place, every place below the number of cells belongs to one cell, and a cell that does not
exist has none.  The test for that and the place itself can be computed in machine words.

An entry of a chart is a numbered non-terminal in a cell.  A run marks one entry after another,
in any order and with repetitions.  Afterwards exactly the entries of the run are marked, and a
mark was new exactly if its entry had not occurred in the run before.  What a cell then lists are
the non-terminals of its entries, in the ascending order in which they are numbered.

An entry outside the chart is not spoken of.  To mark one is a fault, and the run ends there.
-/

namespace PhraseStructure

namespace Chart

/-! ### Cells and their places -/

/-- The place of a cell, computed in words together with the test whether the cell exists. -/
def indexInWords? (chart : Chart) (length start : Nat) : Option (Except Fault Nat) :=
  if chart.size < length then
    some (.error (.cell length start chart.size))
  else do
    let room ← Word.difference? chart.size length
    if room < start then
      return .error (.cell length start chart.size)
    else
      let place ← placeInWords? chart.size length start
      return .ok place

variable {chart : Chart} {length start number : Nat}

theorem place_of_le (h : start + length ≤ chart.size) :
    chart.place length start = .ok (rowStart chart.size length + start) := by
  rw [place, place?_of_le h]

theorem place_of_lt (h : chart.size < start + length) :
    chart.place length start = .error (.cell length start chart.size) := by
  rw [place, place?_of_lt h]

/-- Only cells of the chart have a place. -/
theorem of_place {place : Nat} (h : chart.place length start = .ok place) :
    start + length ≤ chart.size ∧ rowStart chart.size length + start = place := by
  by_cases hinside : start + length ≤ chart.size
  · rw [place_of_le hinside] at h
    exact ⟨hinside, Except.ok.inj h⟩
  · rw [place_of_lt (Nat.lt_of_not_le hinside)] at h
    cases h

theorem indexInWords?_eq (h : (chart.size + 1) * (chart.size + 2) < Splits.wordLimit)
    (length start : Nat) :
    chart.indexInWords? length start = some (chart.place length start) := by
  unfold indexInWords?
  by_cases hlength : chart.size < length
  · rw [if_pos hlength, place_of_lt (by omega)]
  · rw [if_neg hlength, Word.difference?_eq_some (Nat.le_of_not_lt hlength)]
    show (if chart.size - length < start then _ else _) = _
    by_cases hstart : chart.size - length < start
    · rw [if_pos hstart, place_of_lt (by omega)]
      rfl
    · have hinside : start + length ≤ chart.size := by omega
      rw [if_neg hstart, placeInWords?_eq h hinside, place_of_le hinside, place?_of_le hinside]
      rfl

/-- Places follow the cells by length and then by position. -/
theorem rowStart_add_lt_iff {size length' start' : Nat} (h : start + length ≤ size)
    (h' : start' + length' ≤ size) :
    rowStart size length + start < rowStart size length' + start' ↔
      length < length' ∨ length = length' ∧ start < start' := by
  constructor
  · intro hlt
    rcases Nat.lt_trichotomy length length' with hbefore | rfl | hafter
    · exact .inl hbefore
    · exact .inr ⟨rfl, by omega⟩
    · have hgt := rowStart_add_lt_of_lt h' h hafter
      omega
  · rintro (hbefore | ⟨rfl, hstart⟩)
    · exact rowStart_add_lt_of_lt h h' hbefore
    · omega

/-! ### Runs of marks -/

/-- A numbered non-terminal in a cell. -/
structure Entry where
  length : Nat
  start : Nat
  number : Nat
deriving DecidableEq

/-- The cell exists, and a non-terminal has the number. -/
structure Entry.Inside (size : Nat) (names : List Token) (entry : Entry) : Prop where
  length_le : entry.length ≤ size
  start_le : entry.start ≤ size - entry.length
  number_lt : entry.number < names.length

/-- Mark entries one after another, and note which marks are new. -/
def markEach (chart : Chart) : List Entry → Except Fault (Chart × List Bool)
  | [] => .ok (chart, [])
  | entry :: entries => do
      let (chart, isNew) ← chart.mark entry.length entry.start entry.number
      let (chart, others) ← chart.markEach entries
      return (chart, isNew :: others)

/-- After a run of marks a chart has its old entries and those of the run, and the run has noted
which entries it met for the first time. -/
structure IsRun (chart : Chart) (entries : List Entry) (chart' : Chart) (news : List Bool) :
    Prop where
  wellFormed : chart'.WellFormed
  size_eq : chart'.size = chart.size
  names_eq : chart'.names = chart.names
  has_iff : ∀ length start number, chart'.has length start number = true ↔
    chart.has length start number = true ∨ ⟨length, start, number⟩ ∈ entries
  length_news : news.length = entries.length
  news_eq : ∀ position entry, entries[position]? = some entry → news[position]? =
    some (decide (¬ (chart.has entry.length entry.start entry.number = true ∨
      entry ∈ entries.take position)))

theorem isRun_nil (hchart : chart.WellFormed) : chart.IsRun [] chart [] :=
  ⟨hchart, rfl, rfl, by simp, rfl, by simp⟩

/-- One more mark in front of a run. -/
theorem IsMarking.isRun {chart' chart'' : Chart} {entry : Entry} {entries : List Entry}
    {news : List Bool} (h : chart.IsMarking entry.length entry.start entry.number chart')
    (hrun : chart'.IsRun entries chart'' news) :
    chart.IsRun (entry :: entries) chart''
      ((!chart.has entry.length entry.start entry.number) :: news) := by
  have hentry : ∀ other : Entry, chart'.has other.length other.start other.number = true ↔
      chart.has other.length other.start other.number = true ∨ other = entry := by
    rintro ⟨length, start, number⟩
    rw [h.has_iff]
    cases entry
    simp
  refine ⟨hrun.wellFormed, hrun.size_eq.trans h.size_eq, hrun.names_eq.trans h.names_eq, ?_, ?_, ?_⟩
  · intro length start number
    rw [hrun.has_iff, hentry ⟨length, start, number⟩, List.mem_cons, or_assoc]
  · rw [List.length_cons, List.length_cons, hrun.length_news]
  · intro position other hother
    cases position with
    | zero =>
        obtain rfl : entry = other := by simpa using hother
        simp
    | succ position =>
        rw [List.getElem?_cons_succ] at hother ⊢
        rw [hrun.news_eq position other hother]
        simp only [hentry, List.take_succ_cons, List.mem_cons, or_assoc]

/-- A run of entries inside a well-formed chart meets no fault. -/
theorem WellFormed.exists_markEach (hchart : chart.WellFormed) {entries : List Entry}
    (h : ∀ entry ∈ entries, entry.Inside chart.size chart.names) :
    ∃ chart' news, chart.markEach entries = .ok (chart', news) ∧
      chart.IsRun entries chart' news := by
  induction entries generalizing chart with
  | nil => exact ⟨chart, [], rfl, isRun_nil hchart⟩
  | cons entry entries ih =>
      obtain ⟨hentry, hentries⟩ := List.forall_mem_cons.mp h
      have hinside : entry.start + entry.length ≤ chart.size := by
        have hlength := hentry.length_le
        have hstart := hentry.start_le
        omega
      obtain ⟨marked, hmark, hmarking⟩ := exists_mark hchart hinside hentry.number_lt
      rw [← hmarking.size_eq, ← hmarking.names_eq] at hentries
      obtain ⟨chart', news, hrest, hrun⟩ := ih hmarking.wellFormed hentries
      refine ⟨chart', _, ?_, hmarking.isRun hrun⟩
      rw [markEach, hmark]
      show (marked.markEach entries >>= _) = _
      rw [hrest]
      rfl

/-! ### The names of a cell -/

/-- The names that are marked stand in the order of all names. -/
theorem marked_sublist (names : List Token) (marks : List Bool) :
    (((names.zip marks).filter Prod.snd).map Prod.fst).Sublist names := by
  induction names generalizing marks with
  | nil => simp
  | cons name names ih =>
      cases marks with
      | nil => simp
      | cons mark marks =>
          cases mark with
          | false => exact (ih marks).cons name
          | true => exact (ih marks).cons_cons name

theorem mem_marked {names : List Token} {marks : List Bool} {token : Token} :
    token ∈ ((names.zip marks).filter Prod.snd).map Prod.fst ↔
      ∃ number : Nat, names[number]? = some token ∧ marks[number]? = some true := by
  have hzip : token ∈ ((names.zip marks).filter Prod.snd).map Prod.fst ↔
      (token, true) ∈ names.zip marks := by
    simp
  simp only [hzip, List.mem_iff_getElem?, List.getElem?_zip_eq_some]

/-- Inside a well-formed chart a cell lists the non-terminals that it knows, in the order of
their numbers. -/
theorem WellFormed.exists_namesAt (hchart : chart.WellFormed) (h : start + length ≤ chart.size) :
    ∃ tokens, chart.namesAt length start = .ok tokens ∧ tokens.Sublist chart.names ∧
      ∀ token, token ∈ tokens ↔ chart.Knows length start token := by
  obtain ⟨marks, hmarks, _, hcell⟩ := hchart.cell_eq h
  refine ⟨((chart.names.zip marks.toList).filter Prod.snd).map Prod.fst, ?_,
    marked_sublist _ _, ?_⟩
  · rw [namesAt, hcell]
    rfl
  · intro token
    have hhas : ∀ number, chart.has length start number = true ↔
        marks.toList[number]? = some true := by
      intro number
      rw [has_eq_getD h, hmarks, Option.bind_some, Array.getElem?_toList]
      cases marks[number]? <;> simp
    simp only [mem_marked, Knows, hhas]

/-! ### From the blank chart -/

section Blank

variable {size : Nat} {names : List Token} {entries : List Entry} {news : List Bool}

/-- Started on a blank chart, a run leaves its own entries and no others. -/
theorem IsRun.has_iff_mem (h : (blank size names).IsRun entries chart news) :
    chart.has length start number = true ↔ ⟨length, start, number⟩ ∈ entries := by
  simp [h.has_iff, has_blank]

theorem IsRun.knows_iff (h : (blank size names).IsRun entries chart news) (token : Token) :
    chart.Knows length start token ↔
      ∃ number, names[number]? = some token ∧ ⟨length, start, number⟩ ∈ entries := by
  have hnames : chart.names = names := h.names_eq
  simp [Knows, hnames, h.has_iff_mem]

theorem IsRun.news_of_blank (h : (blank size names).IsRun entries chart news) {position : Nat}
    {entry : Entry} (hentry : entries[position]? = some entry) :
    news[position]? = some (decide (entry ∉ entries.take position)) := by
  simpa [has_blank] using h.news_eq position entry hentry

end Blank

/-- The cells of a chart and the numbers below the number of cells determine each other, in the
order of the cells, and nothing else has a place.  If twice the number of cells is a word, places
are computed in words.

After a run of marks on the blank chart for the non-terminals of a sort table exactly the entries
of the run are marked, a mark was new where its entry occurs for the first time, and a cell lists
the non-terminals of its entries in ascending order. -/
theorem places_and_marks_exact :
    (∀ chart : Chart,
      ((chart.size + 1) * (chart.size + 2) < Splits.wordLimit →
        ∀ length start, chart.indexInWords? length start = some (chart.place length start)) ∧
      (∀ length start, ¬ (length ≤ chart.size ∧ start ≤ chart.size - length) →
        chart.place length start = .error (.cell length start chart.size)) ∧
      (∀ length start, length ≤ chart.size → start ≤ chart.size - length →
        ∃ place, chart.place length start = .ok place ∧
          place < (chart.size + 1) * (chart.size + 2) / 2) ∧
      (∀ place, place < (chart.size + 1) * (chart.size + 2) / 2 →
        ∃ length start, length ≤ chart.size ∧ start ≤ chart.size - length ∧
          chart.place length start = .ok place) ∧
      ∀ length start place length' start' place', chart.place length start = .ok place →
        chart.place length' start' = .ok place' →
          (place = place' ↔ length = length' ∧ start = start') ∧
          (place < place' ↔ length < length' ∨ length = length' ∧ start < start')) ∧
    ∀ (sorts : SortTable) (size : Nat) (entries : List Entry),
      (∀ entry ∈ entries, entry.Inside size sorts.nonTerminals) →
        ∃ chart news, (blank size sorts.nonTerminals).markEach entries = .ok (chart, news) ∧
          news.length = entries.length ∧
          (∀ position entry, entries[position]? = some entry →
            news[position]? = some (decide (entry ∉ entries.take position))) ∧
          ∀ length start, length ≤ size → start ≤ size - length →
            (∀ number, number < sorts.nonTerminals.length →
              Decides (chart.marked length start number) (⟨length, start, number⟩ ∈ entries)) ∧
            (∀ token, Decides (chart.contains length start token)
              (∃ number, sorts.nonTerminals[number]? = some token ∧
                ⟨length, start, number⟩ ∈ entries)) ∧
            ∃ tokens, chart.namesAt length start = .ok tokens ∧ tokens.Pairwise (· < ·) ∧
              ∀ token, token ∈ tokens ↔ ∃ number, sorts.nonTerminals[number]? = some token ∧
                ⟨length, start, number⟩ ∈ entries := by
  constructor
  · intro chart
    refine ⟨indexInWords?_eq, fun length start h => place_of_lt (by omega), ?_, ?_, ?_⟩
    · intro length start hlength hstart
      have hinside : start + length ≤ chart.size := by omega
      exact ⟨_, place_of_le hinside, rowStart_add_lt_cellCount hinside⟩
    · intro place hplace
      obtain ⟨length, start, hinside, rfl⟩ := exists_place_of_lt_cellCount hplace
      exact ⟨length, start, by omega, by omega, place_of_le hinside⟩
    · intro length start place length' start' place' hplace hplace'
      obtain ⟨hinside, rfl⟩ := of_place hplace
      obtain ⟨hinside', rfl⟩ := of_place hplace'
      refine ⟨⟨rowStart_add_inj hinside hinside', ?_⟩, rowStart_add_lt_iff hinside hinside'⟩
      rintro ⟨rfl, rfl⟩
      rfl
  · intro sorts size entries hentries
    obtain ⟨chart, news, hmarks, hrun⟩ :=
      (wellFormed_blank size sorts.nonTerminals).exists_markEach hentries
    have hsize : chart.size = size := hrun.size_eq
    have hnames : chart.names = sorts.nonTerminals := hrun.names_eq
    have hnodup : chart.names.Nodup := hnames ▸ sorts.nodup_withSort .nonTerminal
    have hascending : chart.names.Pairwise (· < ·) := hnames ▸ sorts.pairwise_withSort .nonTerminal
    refine ⟨chart, news, hmarks, hrun.length_news, fun _ _ => hrun.news_of_blank, ?_⟩
    intro length start hlength hstart
    have hinside : start + length ≤ chart.size := by omega
    refine ⟨?_, ?_, ?_⟩
    · intro number hnumber
      exact ⟨_, hrun.wellFormed.marked_eq hinside (hnames ▸ hnumber), hrun.has_iff_mem⟩
    · intro token
      exact (hrun.wellFormed.contains_decides hnodup hinside token).congr (hrun.knows_iff token)
    · obtain ⟨tokens, htokens, hsublist, hmem⟩ := hrun.wellFormed.exists_namesAt hinside
      refine ⟨tokens, htokens, hascending.sublist hsublist, fun token => ?_⟩
      rw [hmem, hrun.knows_iff]

/-- A run that marks the same entry twice, with another one in between. -/
theorem places_and_marks_exact_twice :
    ∃ sorts chart news, ∃ a s : Token, a.text = ['A'] ∧ s.text = ['S'] ∧
      SortTable.ofTexts [['S'], ['A']] [['x']] = .ok sorts ∧
      (blank 2 sorts.nonTerminals).indexInWords? 1 1 =
        some ((blank 2 sorts.nonTerminals).place 1 1) ∧
      (blank 2 sorts.nonTerminals).place 2 1 = .error (.cell 2 1 2) ∧
      (blank 2 sorts.nonTerminals).markEach [⟨1, 1, 0⟩, ⟨2, 0, 1⟩, ⟨1, 1, 0⟩] = .ok (chart, news) ∧
      news[0]? = some true ∧ news[2]? = some false ∧
      ∃ tokens, chart.namesAt 1 1 = .ok tokens ∧ a ∈ tokens ∧ s ∉ tokens := by
  obtain ⟨sorts, hsorts, hnames⟩ : ∃ sorts, SortTable.ofTexts [['S'], ['A']] [['x']] = .ok sorts ∧
      sorts.nonTerminals = [⟨['A'], by decide⟩, ⟨['S'], by decide⟩] := ⟨_, rfl, rfl⟩
  obtain ⟨hplaces, hruns⟩ := places_and_marks_exact
  obtain ⟨hwords, houtside, _⟩ := hplaces (blank 2 sorts.nonTerminals)
  have hfirst : Entry.Inside 2 sorts.nonTerminals ⟨1, 1, 0⟩ :=
    ⟨by decide, by decide, by rw [hnames]; decide⟩
  have hsecond : Entry.Inside 2 sorts.nonTerminals ⟨2, 0, 1⟩ :=
    ⟨by decide, by decide, by rw [hnames]; decide⟩
  obtain ⟨chart, news, hrun, _, hnews, hcells⟩ :=
    hruns sorts 2 [⟨1, 1, 0⟩, ⟨2, 0, 1⟩, ⟨1, 1, 0⟩] (by simp [hfirst, hsecond])
  obtain ⟨_, _, tokens, htokens, _, hmem⟩ := hcells 1 1 (by decide) (by decide)
  have hbound : (2 + 1) * (2 + 2) < Splits.wordLimit := by decide
  have hnone : ¬ (2 ≤ 2 ∧ 1 ≤ 2 - 2) := by decide
  refine ⟨sorts, chart, news, ⟨['A'], by decide⟩, ⟨['S'], by decide⟩, rfl, rfl, hsorts,
    hwords hbound 1 1, houtside 2 1 hnone, hrun, hnews 0 _ rfl, hnews 2 _ rfl, tokens,
    htokens, (hmem _).mpr ⟨0, by rw [hnames]; rfl, by decide⟩, ?_⟩
  rw [hmem]
  rintro ⟨number, hnumber, hentry⟩
  obtain rfl : number = 0 := by simpa using hentry
  rw [hnames] at hnumber
  exact absurd hnumber (by decide)

end Chart
end PhraseStructure
