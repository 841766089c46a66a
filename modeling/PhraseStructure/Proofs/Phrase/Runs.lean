import Mathlib.Data.List.Sort
import PhraseStructure.Proofs.Phrase

/-!
# The runs of a text

A run of a text is a blank-free stretch of it that cannot be made longer: in front of it and
behind it stand blanks, or the text ends there.  The words of a text are its runs, each once and
from left to right.
-/

namespace PhraseStructure
namespace Text

/-- A maximal blank-free run of the text begins at the position and has these characters. -/
def IsRunAt (text : Text) (start : Nat) (word : Text) : Prop :=
  ∃ before after, text = before ++ (word ++ after) ∧ before.length = start ∧ word ≠ [] ∧
    (∀ c ∈ word, isBlank c = false) ∧ (∀ c ∈ before.getLast?, isBlank c = true) ∧
    ∀ c ∈ after.head?, isBlank c = true

/-- The words are the maximal blank-free runs of the text in the order of their positions. -/
def HasRuns (text : Text) (found : List Text) : Prop :=
  ∃ runs : List (Nat × Text), (runs.Pairwise fun a b => a.1 < b.1) ∧
    (∀ start word, (start, word) ∈ runs ↔ text.IsRunAt start word) ∧ runs.map Prod.snd = found

variable {text rest word : Text} {found : List Text} {start : Nat} {c : Char}

/-! ### Runs behind a first character -/

theorem startsWord_eq_false_iff :
    startsWord text = false ↔ ∀ c ∈ text.head?, isBlank c = true := by
  cases text <;> simp [startsWord]

theorem not_isRunAt_nil : ¬ IsRunAt [] start word := by
  rintro ⟨before, after, htext, _, hne, _⟩
  simp at htext
  exact hne htext.2.1

theorem isRunAt_zero_iff :
    text.IsRunAt 0 word ↔ word ≠ [] ∧ (∀ c ∈ word, isBlank c = false) ∧
      ∃ after, text = word ++ after ∧ startsWord after = false := by
  constructor
  · rintro ⟨before, after, htext, hbefore, hne, hword, _, hafter⟩
    obtain rfl := List.length_eq_zero_iff.mp hbefore
    exact ⟨hne, hword, after, htext, startsWord_eq_false_iff.mpr hafter⟩
  · rintro ⟨hne, hword, after, htext, hafter⟩
    exact ⟨[], after, htext, rfl, hne, hword, by simp, startsWord_eq_false_iff.mp hafter⟩

/-- A further character in front moves the runs of a text on, unless it belongs to the first. -/
theorem isRunAt_cons_succ_iff :
    IsRunAt (c :: rest) (start + 1) word ↔
      rest.IsRunAt start word ∧ (start = 0 → isBlank c = true) := by
  constructor
  · rintro ⟨before, after, htext, hbefore, hne, hword, hlast, hafter⟩
    cases before with
    | nil => cases hbefore
    | cons first before =>
        obtain ⟨rfl, hrest⟩ := List.cons.inj htext
        have hstart : before.length = start := Nat.succ.inj hbefore
        cases before with
        | nil => exact ⟨⟨[], after, hrest, hstart, hne, hword, by simp, hafter⟩,
            fun _ => hlast c rfl⟩
        | cons second before =>
            rw [List.getLast?_cons_cons] at hlast
            refine ⟨⟨_, after, hrest, hstart, hne, hword, hlast, hafter⟩, ?_⟩
            rintro rfl
            cases hstart
  · rintro ⟨⟨before, after, rfl, rfl, hne, hword, hlast, hafter⟩, hblank⟩
    refine ⟨c :: before, after, rfl, rfl, hne, hword, ?_, hafter⟩
    cases before with
    | nil => simpa using hblank rfl
    | cons second before => rwa [List.getLast?_cons_cons]

/-- Where a text begins with a word, its first run is that word. -/
theorem isRunAt_cons_zero_iff (hc : isBlank c = false) :
    IsRunAt (c :: rest) 0 word ↔
      (startsWord rest = false ∧ word = [c]) ∨ ∃ more, word = c :: more ∧ rest.IsRunAt 0 more := by
  rw [isRunAt_zero_iff]
  constructor
  · rintro ⟨hne, hword, after, htext, hafter⟩
    cases word with
    | nil => exact absurd rfl hne
    | cons first more =>
        obtain ⟨rfl, rfl⟩ := List.cons.inj htext
        cases more with
        | nil => exact .inl ⟨hafter, rfl⟩
        | cons second more =>
            obtain ⟨_, hmore⟩ := List.forall_mem_cons.mp hword
            exact .inr ⟨_, rfl, isRunAt_zero_iff.mpr
              ⟨List.cons_ne_nil _ _, hmore, after, rfl, hafter⟩⟩
  · rintro (⟨hafter, rfl⟩ | ⟨more, rfl, hmore⟩)
    · exact ⟨List.cons_ne_nil _ _, List.forall_mem_singleton.mpr hc, rest, rfl, hafter⟩
    · obtain ⟨_, hword, after, rfl, hafter⟩ := isRunAt_zero_iff.mp hmore
      exact ⟨List.cons_ne_nil _ _, List.forall_mem_cons.mpr ⟨hc, hword⟩, after, rfl, hafter⟩

theorem not_isRunAt_zero (h : startsWord text = false) : ¬ text.IsRunAt 0 word := by
  rw [isRunAt_zero_iff]
  rintro ⟨hne, hword, after, rfl, _⟩
  cases word with
  | nil => exact hne rfl
  | cons c word =>
      have hblank := startsWord_eq_false_iff.mp h c rfl
      rw [hword c List.mem_cons_self] at hblank
      cases hblank

/-- A text that begins with a word has a run at its beginning. -/
theorem exists_isRunAt_zero (h : startsWord text = true) : ∃ word, text.IsRunAt 0 word := by
  induction text with
  | nil => cases h
  | cons c rest ih =>
      have hc : isBlank c = false := by simpa [startsWord] using h
      cases hrest : startsWord rest with
      | false => exact ⟨[c], (isRunAt_cons_zero_iff hc).mpr (.inl ⟨hrest, rfl⟩)⟩
      | true =>
          obtain ⟨word, hword⟩ := ih hrest
          exact ⟨c :: word, (isRunAt_cons_zero_iff hc).mpr (.inr ⟨word, rfl, hword⟩)⟩

/-! ### Words are runs -/

/-- The runs, each one position further on. -/
def movedRuns (runs : List (Nat × Text)) : List (Nat × Text) :=
  runs.map fun run => (run.1 + 1, run.2)

theorem mem_movedRuns_zero {runs : List (Nat × Text)} : (0, word) ∉ movedRuns runs := by
  simp [movedRuns]

theorem mem_movedRuns_succ {runs : List (Nat × Text)} :
    (start + 1, word) ∈ movedRuns runs ↔ (start, word) ∈ runs := by
  simp [movedRuns]

theorem pairwise_movedRuns {runs : List (Nat × Text)} (h : runs.Pairwise fun a b => a.1 < b.1) :
    (movedRuns runs).Pairwise fun a b => a.1 < b.1 :=
  List.pairwise_map.mpr (h.imp Nat.succ_lt_succ)

theorem map_snd_movedRuns (runs : List (Nat × Text)) :
    (movedRuns runs).map Prod.snd = runs.map Prod.snd := by
  rw [movedRuns, List.map_map]
  rfl

theorem HasRuns.cons_blank (h : HasRuns rest found) (hc : isBlank c = true) :
    HasRuns (c :: rest) found := by
  obtain ⟨runs, hascending, hruns, rfl⟩ := h
  refine ⟨movedRuns runs, pairwise_movedRuns hascending, ?_, map_snd_movedRuns runs⟩
  intro start word
  cases start with
  | zero => exact iff_of_false mem_movedRuns_zero (not_isRunAt_zero (by simp [startsWord, hc]))
  | succ start =>
      rw [mem_movedRuns_succ, hruns, isRunAt_cons_succ_iff]
      exact (and_iff_left fun _ => hc).symm

/-- A text that begins with a word has that run and the later runs of its rest. -/
theorem hasRuns_cons_of_first {runs : List (Nat × Text)} (hc : isBlank c = false)
    (hascending : runs.Pairwise fun a b => a.1 < b.1)
    (hruns : ∀ start word, (start, word) ∈ runs ↔ rest.IsRunAt start word ∧ start ≠ 0)
    (hfirst : ∀ other, IsRunAt (c :: rest) 0 other ↔ other = word) :
    HasRuns (c :: rest) (word :: runs.map Prod.snd) := by
  refine ⟨(0, word) :: movedRuns runs, ?_, ?_, by rw [List.map_cons, map_snd_movedRuns]⟩
  · refine List.pairwise_cons.mpr ⟨?_, pairwise_movedRuns hascending⟩
    exact List.forall_mem_map.mpr fun run _ => Nat.succ_pos _
  · intro start other
    rw [List.mem_cons, Prod.mk.injEq]
    cases start with
    | zero => simp [mem_movedRuns_zero, hfirst]
    | succ start => simp [mem_movedRuns_succ, hruns, isRunAt_cons_succ_iff, hc]

theorem HasRuns.cons_alone (h : HasRuns rest found) (hc : isBlank c = false)
    (hrest : startsWord rest = false) : HasRuns (c :: rest) ([c] :: found) := by
  obtain ⟨runs, hascending, hruns, rfl⟩ := h
  refine hasRuns_cons_of_first hc hascending ?_ ?_
  · intro start word
    rw [hruns, iff_self_and]
    rintro hrun rfl
    exact not_isRunAt_zero hrest hrun
  · intro other
    simp [isRunAt_cons_zero_iff hc, hrest, not_isRunAt_zero hrest]

theorem HasRuns.cons_word (h : HasRuns rest (word :: found)) (hc : isBlank c = false)
    (hrest : startsWord rest = true) : HasRuns (c :: rest) ((c :: word) :: found) := by
  obtain ⟨_ | ⟨⟨start, first⟩, runs⟩, hascending, hruns, hwords⟩ := h
  · cases hwords
  · obtain ⟨rfl, rfl⟩ := List.cons.inj hwords
    obtain ⟨hlater, hothers⟩ := List.pairwise_cons.mp hascending
    -- The run at the beginning of the rest is the first one, and no other begins there.
    obtain rfl : start = 0 := by
      obtain ⟨other, hother⟩ := exists_isRunAt_zero hrest
      rcases List.mem_cons.mp ((hruns 0 other).mpr hother) with heq | hmem
      · exact (congrArg Prod.fst heq).symm
      · exact absurd (hlater _ hmem) (Nat.not_lt_zero start)
    have hpositive : ∀ start word, (start, word) ∈ runs → start ≠ 0 :=
      fun start word hmem => Nat.ne_of_gt (hlater _ hmem)
    refine hasRuns_cons_of_first hc hothers ?_ ?_
    · intro start word
      rw [← hruns, List.mem_cons, Prod.mk.injEq]
      constructor
      · exact fun hmem => ⟨.inr hmem, hpositive start word hmem⟩
      · rintro ⟨⟨rfl, _⟩ | hmem, hne⟩
        · exact absurd rfl hne
        · exact hmem
    · intro other
      have hzero : ∀ more, rest.IsRunAt 0 more ↔ more = first := by
        intro more
        rw [← hruns, List.mem_cons, Prod.mk.injEq, eq_self, true_and]
        exact or_iff_left fun hmem => hpositive 0 more hmem rfl
      simp [isRunAt_cons_zero_iff hc, hrest, hzero]

/-- A character that is not blank is a word of its own or belongs to the first word. -/
theorem words_cons_cases (hc : isBlank c = false) (rest : Text) :
    (startsWord rest = false ∧ words (c :: rest) = [c] :: words rest) ∨
      startsWord rest = true ∧ ∃ word more, words rest = word :: more ∧
        words (c :: rest) = (c :: word) :: more := by
  rw [words, hc]
  cases hrest : startsWord rest with
  | false => exact .inl ⟨rfl, rfl⟩
  | true =>
      obtain ⟨word, more, hwords⟩ :=
        List.exists_cons_of_ne_nil (words_ne_nil_of_startsWord hrest)
      rw [hwords]
      exact .inr ⟨rfl, word, more, rfl, rfl⟩

/-- The words of a text are its maximal blank-free runs, from left to right. -/
theorem hasRuns_words (text : Text) : text.HasRuns text.words := by
  induction text with
  | nil => exact ⟨[], .nil, fun _ _ => iff_of_false List.not_mem_nil not_isRunAt_nil, rfl⟩
  | cons c rest ih =>
      cases hc : isBlank c with
      | true =>
          rw [words_blank_cons hc]
          exact ih.cons_blank hc
      | false =>
          rcases words_cons_cases hc rest with
            ⟨hrest, hwords⟩ | ⟨hrest, word, more, hmore, hwords⟩
          · rw [hwords]
            exact ih.cons_alone hc hrest
          · rw [hmore] at ih
            rw [hwords]
            exact ih.cons_word hc hrest

/-- The runs of a text and their order determine the words. -/
theorem hasRuns_iff : text.HasRuns found ↔ text.words = found := by
  constructor
  · rintro ⟨runs, hascending, hruns, rfl⟩
    obtain ⟨runs', hascending', hruns', hwords⟩ := hasRuns_words text
    have hirrefl : Std.Irrefl fun a b : Nat × Text => a.1 < b.1 := ⟨fun a => Nat.lt_irrefl a.1⟩
    have hantisymm : Std.Antisymm fun a b : Nat × Text => a.1 < b.1 :=
      ⟨fun _ _ hab hba => absurd hab (Nat.lt_asymm hba)⟩
    have hsame : runs' = runs := by
      refine hascending'.eq_of_mem_iff hascending ?_
      rintro ⟨start, word⟩
      rw [hruns, hruns']
    rw [← hwords, hsame]
  · rintro rfl
    exact hasRuns_words text

/-- Words are not empty and hold no blanks. -/
theorem of_mem_words (h : word ∈ text.words) : word ≠ [] ∧ ∀ c ∈ word, isBlank c = false := by
  obtain ⟨runs, _, hruns, hwords⟩ := hasRuns_words text
  rw [← hwords, List.mem_map] at h
  obtain ⟨⟨start, word⟩, hrun, rfl⟩ := h
  obtain ⟨_, _, _, _, hne, hword, _⟩ := (hruns start word).mp hrun
  exact ⟨hne, hword⟩

/-- Nothing but the blanks of a text is missing in its words. -/
theorem flatten_words (text : Text) : text.words.flatten = text.filter fun c => !isBlank c := by
  induction text with
  | nil => rfl
  | cons c rest ih =>
      cases hc : isBlank c with
      | true => rw [words_blank_cons hc, ih, List.filter_cons_of_neg (by simp [hc])]
      | false =>
          rw [List.filter_cons_of_pos (by simp [hc]), ← ih]
          rcases words_cons_cases hc rest with
            ⟨_, hwords⟩ | ⟨_, word, more, hmore, hwords⟩
          · rw [hwords]
            rfl
          · rw [hwords, hmore]
            rfl

/-- The words hold the characters of the text that are not blank. -/
theorem exists_mem_words_iff :
    (∃ word ∈ text.words, c ∈ word) ↔ c ∈ text ∧ isBlank c = false := by
  rw [← List.mem_flatten, flatten_words, List.mem_filter, Bool.not_eq_true']

/-- Blanks between two texts keep their words apart. -/
theorem words_append_gap {gap : Text} (hne : gap ≠ []) (hgap : ∀ c ∈ gap, isBlank c = true)
    (left right : Text) : words (left ++ (gap ++ right)) = words left ++ words right := by
  cases gap with
  | nil => exact absurd rfl hne
  | cons c gap =>
      obtain ⟨hc, hmore⟩ := List.forall_mem_cons.mp hgap
      rw [List.cons_append, words_append_blank hc]
      congr 1
      clear hne hgap
      induction gap with
      | nil => rfl
      | cons d gap ih =>
          obtain ⟨hd, hmore⟩ := List.forall_mem_cons.mp hmore
          rw [List.cons_append, words_blank_cons hd, ih hmore]

end Text
end PhraseStructure
