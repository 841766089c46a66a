import PhraseStructure.Proofs.Chart.Layout

/-!
# Comparing and showing charts

Every place in the array of cells belongs to a cell of the chart, so a well-formed chart is
determined by its size, its names and its marks: well-formed charts that agree in these are
equal, down to the arrays.  A well-formed chart can also be shown, since showing asks only
for cells that exist.

For charts that are not well-formed this fails.  Their arrays may be too long, and what
stands behind the last cell is never seen.
-/

namespace PhraseStructure

/-- A traversal succeeds if it succeeds for each item. -/
theorem exists_mapM {α β ε : Type} {transform : α → Except ε β} {items : List α}
    (h : ∀ item ∈ items, ∃ result, transform item = .ok result) :
    ∃ results, items.mapM transform = .ok results := by
  induction items with
  | nil => exact ⟨[], rfl⟩
  | cons item items ih =>
      obtain ⟨hitem, hitems⟩ := List.forall_mem_cons.mp h
      obtain ⟨result, hresult⟩ := hitem
      obtain ⟨results, hresults⟩ := ih hitems
      refine ⟨result :: results, ?_⟩
      rw [List.mapM_cons, hresult, hresults]
      rfl

namespace Chart

/-- Every place before a row is the place of a cell of an earlier row. -/
theorem exists_place_of_lt_rowStart {size rows place : Nat} (hrows : rows ≤ size + 1)
    (h : place < rowStart size rows) :
    ∃ length start, start + length ≤ size ∧ rowStart size length + start = place := by
  induction rows with
  | zero => simp [rowStart] at h
  | succ rows ih =>
      rw [rowStart_succ (by omega)] at h
      by_cases hbefore : place < rowStart size rows
      · exact ih (by omega) hbefore
      · exact ⟨rows, place - rowStart size rows, by omega, by omega⟩

/-- Every place in the array is the place of a cell. -/
theorem exists_place_of_lt_cellCount {size place : Nat} (h : place < cellCount size) :
    ∃ length start, start + length ≤ size ∧ rowStart size length + start = place := by
  rw [← rowStart_last] at h
  exact exists_place_of_lt_rowStart (Nat.le_refl _) h

namespace WellFormed

variable {chart other : Chart}

/-- Well-formed charts of the same size, for the same names, with the same marks are
equal. -/
theorem ext (hchart : chart.WellFormed) (hother : other.WellFormed)
    (hsize : chart.size = other.size) (hnames : chart.names = other.names)
    (hhas : ∀ length start number, start + length ≤ chart.size →
      chart.has length start number = other.has length start number) : chart = other := by
  have hlength : chart.names.length = other.names.length := congrArg List.length hnames
  have hcells : chart.cells = other.cells := by
    apply Array.ext_getElem?
    intro place
    by_cases hplace : place < cellCount chart.size
    · obtain ⟨length, start, hinside, rfl⟩ := exists_place_of_lt_cellCount hplace
      have hmarks := hchart.marks_eq_of_has_eq hother hlength hinside (hsize ▸ hinside)
        fun number => hhas length start number hinside
      rwa [← hsize] at hmarks
    · have hbehind : chart.cells.size ≤ place := by
        rw [hchart.size_cells]
        exact Nat.le_of_not_lt hplace
      have hbehind' : other.cells.size ≤ place := by
        rw [hother.size_cells, ← hsize]
        exact Nat.le_of_not_lt hplace
      rw [Array.getElem?_eq_none hbehind, Array.getElem?_eq_none hbehind']
  cases chart
  cases other
  cases hsize
  cases hnames
  cases hcells
  rfl

/-! ### Showing a chart -/

theorem exists_renderCell (hchart : chart.WellFormed) {length start : Nat}
    (h : start + length ≤ chart.size) : ∃ text, chart.renderCell length start = .ok text := by
  obtain ⟨marks, _, _, hcell⟩ := hchart.cell_eq h
  unfold renderCell namesAt
  rw [hcell]
  exact ⟨_, rfl⟩

theorem exists_renderRow (hchart : chart.WellFormed) {length : Nat} (h : length ≤ chart.size) :
    ∃ text, chart.renderRow length = .ok text := by
  have hcells : ∃ texts,
      (List.range (chart.size - length + 1)).mapM (chart.renderCell length) = .ok texts := by
    apply exists_mapM
    intro start hstart
    rw [List.mem_range] at hstart
    exact hchart.exists_renderCell (by omega)
  obtain ⟨texts, htexts⟩ := hcells
  unfold renderRow
  rw [htexts]
  exact ⟨_, rfl⟩

/-- A well-formed chart has a text. -/
theorem exists_render (hchart : chart.WellFormed) : ∃ text, chart.render = .ok text := by
  have hrows : ∃ texts,
      (List.range (chart.size + 1)).reverse.mapM chart.renderRow = .ok texts := by
    apply exists_mapM
    intro length hlength
    rw [List.mem_reverse, List.mem_range] at hlength
    exact hchart.exists_renderRow (by omega)
  obtain ⟨texts, htexts⟩ := hrows
  unfold render
  rw [htexts]
  exact ⟨_, rfl⟩

end WellFormed
end Chart
end PhraseStructure
