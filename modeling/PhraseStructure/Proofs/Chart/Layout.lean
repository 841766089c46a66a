import Mathlib.Algebra.Group.Nat.Even
import Mathlib.Tactic.Ring
import PhraseStructure.Chart.Basic

/-!
# The layout of a chart

The rows of a chart stand one after another in its array of cells, and each row
begins where the one before it ends.  So different cells have different places, all
places lie inside the array, and marking a non-terminal in one cell changes nothing
else.

`Chart.has` reads a chart as a set of triples.  It is `false` outside the chart,
where the chart itself reports a fault; inside a well-formed chart the two agree.
-/

namespace PhraseStructure
namespace Chart

/-! ### Places -/

/-- The place of the first cell of a row. -/
def rowStart (size length : Nat) : Nat :=
  length * (size + 1) - length * (length - 1) / 2

theorem place?_of_le {size length start : Nat} (h : start + length ≤ size) :
    place? size length start = some (rowStart size length + start) := by
  have hinside : length ≤ size ∧ start ≤ size - length := by omega
  simp only [place?, hinside, and_self, if_true, rowStart]

theorem place?_of_lt {size length start : Nat} (h : size < start + length) :
    place? size length start = none := by
  have houtside : ¬ (length ≤ size ∧ start ≤ size - length) := by omega
  simp only [place?, houtside, if_false]

theorem half_mul_succ (length : Nat) :
    (length + 1) * length / 2 = length * (length - 1) / 2 + length := by
  have hsum : (length + 1) * length = length * (length - 1) + length * 2 := by
    cases length with
    | zero => rfl
    | succ less =>
        rw [Nat.add_sub_cancel]
        ring
  rw [hsum, Nat.add_mul_div_right _ _ Nat.two_pos]

theorem half_le_mul {size length : Nat} (h : length ≤ size + 1) :
    length * (length - 1) / 2 ≤ length * (size + 1) := by
  have hle : length * (length - 1) ≤ length * (size + 1) :=
    Nat.mul_le_mul_left _ (by omega)
  exact Nat.le_trans (Nat.div_le_self _ _) hle

/-- A row begins where the row before it ends. -/
theorem rowStart_succ {size length : Nat} (h : length ≤ size) :
    rowStart size (length + 1) = rowStart size length + (size - length + 1) := by
  have hhalf := half_mul_succ length
  have hle : length * (length - 1) / 2 ≤ length * (size + 1) := half_le_mul (by omega)
  have hmul : (length + 1) * (size + 1) = length * (size + 1) + (size + 1) := by ring
  unfold rowStart
  rw [Nat.add_sub_cancel, hhalf, hmul]
  omega

theorem rowStart_le {size length later : Nat} (hle : length ≤ later) (hlater : later ≤ size + 1) :
    rowStart size length ≤ rowStart size later := by
  induction later with
  | zero =>
      obtain rfl : length = 0 := Nat.le_zero.mp hle
      exact Nat.le_refl _
  | succ later ih =>
      rcases Nat.lt_or_eq_of_le hle with hlt | rfl
      · have hstep : rowStart size (later + 1) = _ := rowStart_succ (by omega)
        have hprevious := ih (by omega) (by omega)
        omega
      · exact Nat.le_refl _

theorem rowStart_last (size : Nat) : rowStart size (size + 1) = cellCount size := by
  unfold rowStart cellCount
  obtain ⟨half, hhalf⟩ := Nat.even_mul_succ_self size
  have hproduct : (size + 1) * (size + 1 - 1) = half * 2 := by
    rw [Nat.add_sub_cancel, Nat.mul_comm, hhalf]
    ring
  have hcount : (size + 1) * (size + 2) = half * 2 + (size + 1) * 2 := by
    rw [Nat.mul_two half, ← hhalf]
    ring
  have hsquare : (size + 1) * (size + 1) = half * 2 + (size + 1) := by
    rw [Nat.mul_two half, ← hhalf]
    ring
  rw [hproduct, hcount, hsquare, Nat.add_mul_div_right _ _ Nat.two_pos,
    Nat.mul_div_cancel _ Nat.two_pos]
  omega

theorem rowStart_add_lt {size length start : Nat} (h : start + length ≤ size) :
    rowStart size length + start < rowStart size (length + 1) := by
  rw [rowStart_succ (by omega)]
  omega

theorem rowStart_add_lt_cellCount {size length start : Nat} (h : start + length ≤ size) :
    rowStart size length + start < cellCount size := by
  have hrow := rowStart_add_lt h
  have hlast : rowStart size (length + 1) ≤ rowStart size (size + 1) :=
    rowStart_le (by omega) (Nat.le_refl _)
  rw [rowStart_last] at hlast
  omega

/-- Cells of an earlier row come before cells of a later one. -/
theorem rowStart_add_lt_of_lt {size length start length' start' : Nat}
    (h : start + length ≤ size) (h' : start' + length' ≤ size) (hlt : length < length') :
    rowStart size length + start < rowStart size length' + start' := by
  have hrow := rowStart_add_lt h
  have hlater : rowStart size (length + 1) ≤ rowStart size length' :=
    rowStart_le hlt (by omega)
  omega

/-- Different cells have different places. -/
theorem rowStart_add_inj {size length start length' start' : Nat}
    (h : start + length ≤ size) (h' : start' + length' ≤ size)
    (heq : rowStart size length + start = rowStart size length' + start') :
    length = length' ∧ start = start' := by
  rcases Nat.lt_trichotomy length length' with hlt | rfl | hgt
  · have hbefore := rowStart_add_lt_of_lt h h' hlt
    omega
  · exact ⟨rfl, by omega⟩
  · have hafter := rowStart_add_lt_of_lt h' h hgt
    omega

/-! ### Marks -/

/-- The chart has a cell for every part of its input and a mark in it for every
non-terminal. -/
structure WellFormed (chart : Chart) : Prop where
  size_cells : chart.cells.size = cellCount chart.size
  size_marks : ∀ marks ∈ chart.cells, marks.size = chart.names.length

/-- A numbered non-terminal is marked in a cell; `false` where there is no mark. -/
def has (chart : Chart) (length start number : Nat) : Bool :=
  match chart.marked length start number with
  | .ok mark => mark
  | .error _ => false

variable {chart : Chart} {length start number : Nat}

theorem has_eq_getD (h : start + length ≤ chart.size) :
    chart.has length start number =
      ((chart.cells[rowStart chart.size length + start]?).bind fun marks =>
        marks[number]?).getD false := by
  unfold has marked cell place
  rw [place?_of_le h]
  cases hcell : chart.cells[rowStart chart.size length + start]? with
  | none => simp [bind, Except.bind, hcell, throw, throwThe, MonadExceptOf.throw]
  | some marks =>
      cases hmark : marks[number]? <;>
        simp [bind, Except.bind, hcell, hmark, pure, Except.pure, throw, throwThe,
          MonadExceptOf.throw]

theorem has_of_outside (h : chart.size < start + length) :
    chart.has length start number = false := by
  unfold has marked cell place
  rw [place?_of_lt h]
  rfl

namespace WellFormed

theorem cell_eq (hchart : chart.WellFormed) (h : start + length ≤ chart.size) :
    ∃ marks, chart.cells[rowStart chart.size length + start]? = some marks ∧
      marks.size = chart.names.length ∧ chart.cell length start = .ok marks := by
  have hplace := rowStart_add_lt_cellCount h
  rw [← hchart.size_cells] at hplace
  refine ⟨chart.cells[rowStart chart.size length + start], Array.getElem?_eq_getElem hplace,
    hchart.size_marks _ (Array.getElem_mem hplace), ?_⟩
  unfold cell place
  rw [place?_of_le h]
  simp [bind, Except.bind, Array.getElem?_eq_getElem hplace, pure, Except.pure]

/-- Inside a well-formed chart there is a mark for every number. -/
theorem marked_eq (hchart : chart.WellFormed) (h : start + length ≤ chart.size)
    (hnumber : number < chart.names.length) :
    chart.marked length start number = .ok (chart.has length start number) := by
  obtain ⟨marks, hmarks, hsize, hcell⟩ := hchart.cell_eq h
  have hmark : marks[number]? = some marks[number] := Array.getElem?_eq_getElem (by omega)
  rw [has_eq_getD h, hmarks, Option.bind_some, hmark]
  unfold marked
  rw [hcell]
  simp [bind, Except.bind, hmark, pure, Except.pure]

/-- Only numbers of names are marked. -/
theorem lt_of_has (hchart : chart.WellFormed) (hhas : chart.has length start number = true) :
    number < chart.names.length := by
  by_cases h : start + length ≤ chart.size
  · obtain ⟨marks, hmarks, hsize, _⟩ := hchart.cell_eq h
    rw [has_eq_getD h, hmarks, Option.bind_some] at hhas
    rw [← hsize]
    apply Nat.lt_of_not_le
    intro hle
    rw [Array.getElem?_eq_none hle] at hhas
    cases hhas
  · rw [has_of_outside (Nat.not_le.mp h)] at hhas
    cases hhas

/-- Cells of well-formed charts, of one or of two, are the same if they have the same
marks. -/
theorem marks_eq_of_has_eq {other : Chart} (hchart : chart.WellFormed) (hother : other.WellFormed)
    (hnames : chart.names.length = other.names.length) {length' start' : Nat}
    (h : start + length ≤ chart.size) (h' : start' + length' ≤ other.size)
    (hhas : ∀ number, chart.has length start number = other.has length' start' number) :
    chart.cells[rowStart chart.size length + start]? =
      other.cells[rowStart other.size length' + start']? := by
  obtain ⟨marks, hmarks, hsize, _⟩ := hchart.cell_eq h
  obtain ⟨marks', hmarks', hsize', _⟩ := hother.cell_eq h'
  have heq : marks = marks' := by
    apply Array.ext (hsize.trans (hnames.trans hsize'.symm))
    intro number hnumber hnumber'
    have hmark := hhas number
    rw [has_eq_getD h, has_eq_getD h', hmarks, hmarks', Option.bind_some, Option.bind_some,
      Array.getElem?_eq_getElem hnumber, Array.getElem?_eq_getElem hnumber'] at hmark
    exact hmark
  rw [hmarks, hmarks', heq]

/-- Cells with the same marks list the same names. -/
theorem namesAt_congr (hchart : chart.WellFormed) {length' start' : Nat}
    (h : start + length ≤ chart.size) (h' : start' + length' ≤ chart.size)
    (hhas : ∀ number, chart.has length start number = chart.has length' start' number) :
    ∃ names, chart.namesAt length start = .ok names ∧
      chart.namesAt length' start' = .ok names := by
  obtain ⟨marks, hmarks, _, hcell⟩ := hchart.cell_eq h
  obtain ⟨marks', hmarks', _, hcell'⟩ := hchart.cell_eq h'
  have heq := hchart.marks_eq_of_has_eq hchart rfl h h' hhas
  rw [hmarks, hmarks'] at heq
  obtain rfl := Option.some.inj heq
  unfold namesAt
  rw [hcell, hcell']
  exact ⟨_, rfl, rfl⟩

end WellFormed

theorem wellFormed_blank (size : Nat) (names : List Token) : (blank size names).WellFormed := by
  refine ⟨by simp [blank], ?_⟩
  intro marks hmarks
  obtain ⟨_, rfl⟩ := Array.mem_replicate.mp hmarks
  exact Array.size_replicate

theorem has_blank (size : Nat) (names : List Token) (length start number : Nat) :
    (blank size names).has length start number = false := by
  by_cases h : start + length ≤ size
  · rw [has_eq_getD h]
    simp only [blank, Array.getElem?_replicate]
    split
    · rw [Option.bind_some, Array.getElem?_replicate]
      split <;> rfl
    · rfl
  · exact has_of_outside (Nat.not_le.mp h)

/-- A chart that differs from another by one mark at most. -/
structure IsMarking (chart : Chart) (length start number : Nat) (chart' : Chart) : Prop where
  wellFormed : chart'.WellFormed
  size_eq : chart'.size = chart.size
  names_eq : chart'.names = chart.names
  has_iff : ∀ length' start' number', chart'.has length' start' number' = true ↔
    chart.has length' start' number' = true ∨
      (length' = length ∧ start' = start ∧ number' = number)

/-- The chart with one mark set in its array of cells. -/
def withMark (chart : Chart) (length start number : Nat) : Chart where
  size := chart.size
  names := chart.names
  cells := chart.cells.modify (rowStart chart.size length + start) fun marks =>
    marks.setIfInBounds number true

theorem isMarking_withMark (hchart : chart.WellFormed) (h : start + length ≤ chart.size)
    (hnumber : number < chart.names.length) :
    chart.IsMarking length start number (chart.withMark length start number) := by
  refine ⟨⟨?_, ?_⟩, rfl, rfl, ?_⟩
  · simp only [withMark, Array.size_modify]
    exact hchart.size_cells
  · intro marks hmarks
    obtain ⟨place, hplace, rfl⟩ := Array.getElem_of_mem hmarks
    simp only [withMark, Array.size_modify] at hplace
    have hsize := hchart.size_marks _ (Array.getElem_mem hplace)
    simp only [withMark, Array.getElem_modify]
    split <;> simpa using hsize
  · intro length' start' number'
    by_cases h' : start' + length' ≤ chart.size
    · obtain ⟨marks, hmarks, hsize, _⟩ := hchart.cell_eq h'
      have hnew : (chart.withMark length start number).has length' start' number' = _ :=
        has_eq_getD h'
      rw [hnew, has_eq_getD h']
      simp only [withMark, Array.getElem?_modify, hmarks]
      -- Only the marked cell is changed, and no other cell has its place.
      by_cases hplace : rowStart chart.size length + start = rowStart chart.size length' + start'
      · obtain ⟨rfl, rfl⟩ := rowStart_add_inj h h' hplace
        simp only [if_true, Option.map_some, Option.bind_some, Array.getElem?_setIfInBounds]
        by_cases heq : number = number'
        · subst heq
          simp [hsize, hnumber]
        · have hne : ¬ number' = number := fun h => heq h.symm
          simp [heq, hne]
      · have hcell : ¬ (length' = length ∧ start' = start ∧ number' = number) := by
          rintro ⟨rfl, rfl, _⟩
          exact hplace rfl
        simp [hplace, hcell]
    · have hlt := Nat.not_le.mp h'
      have hcell : ¬ (length' = length ∧ start' = start ∧ number' = number) := by
        rintro ⟨rfl, rfl, _⟩
        exact h' h
      have hnew : (chart.withMark length start number).has length' start' number' = false :=
        has_of_outside hlt
      rw [hnew, has_of_outside hlt]
      simp [hcell]

/-- Marking inside a well-formed chart gives a chart with that mark and no other new
one. -/
theorem exists_mark (hchart : chart.WellFormed) (h : start + length ≤ chart.size)
    (hnumber : number < chart.names.length) :
    ∃ chart', chart.mark length start number =
        .ok (chart', !chart.has length start number) ∧
      chart.IsMarking length start number chart' := by
  cases hhas : chart.has length start number with
  | true =>
      refine ⟨chart, ?_, hchart, rfl, rfl, ?_⟩
      · unfold mark
        rw [hchart.marked_eq h hnumber, hhas]
        rfl
      · intro length' start' number'
        refine ⟨.inl, ?_⟩
        rintro (hhas' | ⟨rfl, rfl, rfl⟩)
        · exact hhas'
        · exact hhas
  | false =>
      refine ⟨chart.withMark length start number, ?_, isMarking_withMark hchart h hnumber⟩
      unfold mark place
      rw [hchart.marked_eq h hnumber, hhas, place?_of_le h]
      rfl

end Chart
end PhraseStructure
