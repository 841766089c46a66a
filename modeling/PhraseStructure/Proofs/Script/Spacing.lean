import PhraseStructure.Proofs.Phrase
import PhraseStructure.Proofs.Script.Parsing

/-!
# Which blanks may stand between symbols

A space, a tab, a carriage return and a line feed separate symbols all alike: without comments,
a text in which some of them are replaced by others is read as the same script.

This does NOT hold of all blanks.  Every blank ends a symbol, but the reader goes on only behind
the four above, so a text with any other blank outside a comment is not read at all.

In a comment it does matter which of them stands where, because a comment ends with its line.
-/

namespace PhraseStructure
namespace Script

/-! ### Texts without other blanks -/

/-- All blanks of the text are spacing. -/
def OnlySpacing (text : Text) : Prop :=
  ∀ c ∈ text, Text.isBlank c = true → isSpacing c = true

instance (text : Text) : Decidable (OnlySpacing text) :=
  decidable_of_iff ((text.all fun c => !Text.isBlank c || isSpacing c) = true) (by
    simp only [OnlySpacing, List.all_eq_true, Bool.or_eq_true, Bool.not_eq_true',
      ← Bool.not_eq_true, ← imp_iff_not_or])

/-- In the place of each blank stands a blank, and all other characters are the same. -/
def Respaced (text text' : Text) : Prop :=
  List.Forall₂ (fun c c' => c = c' ∨ (Text.isBlank c = true ∧ Text.isBlank c' = true))
    text text'

variable {text text' rest rest' word : Text} {lexeme : Lexeme} {lexemes : List Lexeme}
  {script : Script}

theorem isBlank_of_isSpacing {c : Char} (h : isSpacing c = true) : Text.isBlank c = true := by
  simp only [isSpacing, Bool.or_eq_true, beq_iff_eq] at h
  rcases h with ((rfl | rfl) | rfl) | rfl <;> rfl

theorem isBlank_eq_false_of_isQuotedChar {c : Char} (h : isQuotedChar c = true) :
    Text.isBlank c = false := by
  simp only [isQuotedChar, Bool.and_eq_true, Bool.not_eq_true'] at h
  exact h.1

/-- Blanks stand between lexemes, not in them. -/
theorem Lexeme.EndsBefore.isBlank_eq_false (h : lexeme.EndsBefore rest)
    (hblank : lexeme.isBlank = false) : ∀ c ∈ lexeme.text, Text.isBlank c = false := by
  cases lexeme with
  | spacing chars => cases hblank
  | comment body => cases hblank
  | quoted mark body =>
      obtain ⟨hmark, hbody⟩ := h
      have hmark' := Text.isBlank_eq_false_of_isQuotation hmark
      refine List.forall_mem_cons.mpr ⟨hmark', List.forall_mem_append.mpr ⟨?_, ?_⟩⟩
      · exact fun c hc => isBlank_eq_false_of_isQuotedChar (hbody c hc)
      · exact List.forall_mem_singleton.mpr hmark'
  | bar => exact List.forall_mem_singleton.mpr rfl
  | semicolon => exact List.forall_mem_singleton.mpr rfl
  | run chars =>
      intro c hc
      exact isBlank_eq_false_of_isQuotedChar (isQuotedChar_of_isBareChar (h.inside c hc))

/-- Where there are no comments, nothing but spacing is skipped. -/
theorem exists_gap_skip (h : '#' ∉ text) : ∃ gap, IsGap gap ∧ text = gap ++ skip text := by
  induction text with
  | nil => exact ⟨[], isGap_nil, by rw [skip]; rfl⟩
  | cons c text ih =>
      rw [List.mem_cons, not_or] at h
      cases hspacing : isSpacing c with
      | true =>
          obtain ⟨gap, hgap, htext⟩ := ih h.2
          refine ⟨c :: gap, List.forall_mem_cons.mpr ⟨hspacing, hgap⟩, ?_⟩
          rw [skip_cons_of_isSpacing hspacing, List.cons_append, ← htext]
      | false =>
          refine ⟨[], isGap_nil, ?_⟩
          rw [skip_cons_of_not hspacing (Ne.symm h.1), List.nil_append]

/-- A text that is read without comments has no other blanks than spacing. -/
theorem Scans.onlySpacing (h : Scans text lexemes rest) (hend : skip rest = [])
    (hcomment : '#' ∉ text) : OnlySpacing text := by
  induction h with
  | @nil text =>
      obtain ⟨gap, hgap, htext⟩ := exists_gap_skip hcomment
      rw [hend, List.append_nil] at htext
      intro c hc _
      rw [htext] at hc
      exact hgap c hc
  | @cons text mid rest lexeme lexemes hnext hmore ih =>
      obtain ⟨gap, hgap, htext⟩ := exists_gap_skip hcomment
      rw [hnext.skip_eq] at htext
      rw [htext] at hcomment ⊢
      simp only [List.mem_append, not_or] at hcomment
      intro c hc hblank
      rcases List.mem_append.mp hc with hgapc | hc
      · exact hgap c hgapc
      rcases List.mem_append.mp hc with hlexeme | hmid
      · have hnot := hnext.endsBefore.isBlank_eq_false hnext.isBlank_eq c hlexeme
        rw [hnot] at hblank
        cases hblank
      · exact ih hend hcomment.2.2 c hmid hblank

theorem onlySpacing_of_read (h : Script.read text = .ok script) (hcomment : '#' ∉ text) :
    OnlySpacing text := by
  obtain ⟨lexemes, rest, hscans, hend, _⟩ :=
    readOpening_eq_iff.mp (read_eq_ok_iff_readOpening.mp h)
  exact hscans.onlySpacing hend hcomment

/-! ### Texts that differ in spacing -/

/-- Both characters are spacing, or they are the same and neither a blank nor a number sign. -/
def Alike (c c' : Char) : Prop :=
  (isSpacing c = true ∧ isSpacing c' = true) ∨
    (c = c' ∧ Text.isBlank c = false ∧ c ≠ '#')

theorem isSpacing_eq_false_of_isBlank {c : Char} (h : Text.isBlank c = false) :
    isSpacing c = false := by
  cases hspacing : isSpacing c with
  | false => rfl
  | true =>
      rw [isBlank_of_isSpacing hspacing] at h
      cases h

theorem isBareChar_eq_false {c : Char} (h : isSpacing c = true) : isBareChar c = false := by
  cases hbare : isBareChar c with
  | false => rfl
  | true =>
      rw [isSpacing_eq_false (isQuotedChar_of_isBareChar hbare)] at h
      cases h

/-- Spacing aside, the same is skipped of alike texts. -/
theorem forall₂_skip (h : List.Forall₂ Alike text text') :
    List.Forall₂ Alike (skip text) (skip text') := by
  induction h with
  | nil =>
      rw [skip]
      exact .nil
  | @cons c c' text text' hc htext ih =>
      rcases hc with ⟨hspacing, hspacing'⟩ | ⟨rfl, hblank, hcomment⟩
      · rwa [skip_cons_of_isSpacing hspacing, skip_cons_of_isSpacing hspacing']
      · have hspacing := isSpacing_eq_false_of_isBlank hblank
        rw [skip_cons_of_not hspacing hcomment, skip_cons_of_not hspacing hcomment]
        exact .cons (.inr ⟨rfl, hblank, hcomment⟩) htext

/-- What has no blanks in it is the same in an alike text. -/
theorem exists_of_forall₂_append (hword : ∀ c ∈ word, Text.isBlank c = false)
    (h : List.Forall₂ Alike (word ++ rest) text') :
    ∃ rest', text' = word ++ rest' ∧ List.Forall₂ Alike rest rest' := by
  induction word generalizing text' with
  | nil => exact ⟨text', rfl, h⟩
  | cons c word ih =>
      obtain ⟨hc, hword⟩ := List.forall_mem_cons.mp hword
      cases h with
      | cons halike hmore =>
          obtain ⟨rest', rfl, hrest⟩ := ih hword hmore
          rcases halike with ⟨hspacing, _⟩ | ⟨rfl, _⟩
          · rw [isSpacing_eq_false_of_isBlank hc] at hspacing
            cases hspacing
          · exact ⟨rest', rfl, hrest⟩

/-- A lexeme ends where spacing of another kind begins. -/
theorem Lexeme.EndsBefore.of_forall₂ (h : lexeme.EndsBefore rest)
    (hblank : lexeme.isBlank = false) (hrest : List.Forall₂ Alike rest rest') :
    lexeme.EndsBefore rest' := by
  cases lexeme with
  | spacing chars => cases hblank
  | comment body => cases hblank
  | quoted mark body => exact h
  | bar => trivial
  | semicolon => trivial
  | run chars =>
      refine ⟨h.ne_nil, h.inside, ?_⟩
      cases hrest with
      | nil => exact nofun
      | @cons c c' _ _ hc _ =>
          intro d hd
          obtain rfl := Option.some.inj hd
          rcases hc with ⟨_, hspacing⟩ | ⟨rfl, _⟩
          · exact isBareChar_eq_false hspacing
          · exact h.outside _ rfl

theorem Next.exists_of_forall₂ (h : Next text lexeme rest)
    (htext : List.Forall₂ Alike text text') :
    ∃ rest', Next text' lexeme rest' ∧ List.Forall₂ Alike rest rest' := by
  obtain ⟨hskip, hends, hblank⟩ := h
  have halike := forall₂_skip htext
  rw [hskip] at halike
  obtain ⟨rest', hskip', hrest⟩ :=
    exists_of_forall₂_append (hends.isBlank_eq_false hblank) halike
  exact ⟨rest', ⟨hskip', hends.of_forall₂ hblank hrest, hblank⟩, hrest⟩

/-- Alike texts show the same lexemes. -/
theorem Scans.exists_of_forall₂ (h : Scans text lexemes rest)
    (htext : List.Forall₂ Alike text text') :
    ∃ rest', Scans text' lexemes rest' ∧ List.Forall₂ Alike rest rest' := by
  induction h generalizing text' with
  | nil => exact ⟨text', .nil, htext⟩
  | cons hnext _ ih =>
      obtain ⟨mid', hnext', hmid⟩ := hnext.exists_of_forall₂ htext
      obtain ⟨rest', hmore', hrest⟩ := ih hmid
      exact ⟨rest', .cons hnext' hmore', hrest⟩

theorem read_of_forall₂ (h : Script.read text = .ok script)
    (htext : List.Forall₂ Alike text text') : Script.read text' = .ok script := by
  obtain ⟨lexemes, rest, hscans, hend, hscript⟩ :=
    readOpening_eq_iff.mp (read_eq_ok_iff_readOpening.mp h)
  obtain ⟨rest', hscans', hrest⟩ := hscans.exists_of_forall₂ htext
  have halike := forall₂_skip hrest
  rw [hend, List.forall₂_nil_left_iff] at halike
  exact read_eq_ok_iff_readOpening.mpr
    (readOpening_eq_iff.mpr ⟨lexemes, rest', hscans', halike, hscript⟩)

/-! ### Other spacing, other blanks -/

theorem Respaced.symm (h : Respaced text text') : Respaced text' text := by
  induction h with
  | nil => exact .nil
  | cons hc _ ih => exact .cons (hc.imp Eq.symm And.symm) ih

theorem Respaced.not_mem_comment (h : Respaced text text') (hcomment : '#' ∉ text) :
    '#' ∉ text' := by
  induction h with
  | nil => exact hcomment
  | cons hc _ ih =>
      rw [List.mem_cons, not_or] at hcomment ⊢
      refine ⟨?_, ih hcomment.2⟩
      rintro rfl
      rcases hc with heq | ⟨_, hblank⟩
      · exact hcomment.1 heq.symm
      · exact absurd hblank (by decide)

theorem Respaced.forall₂_alike (h : Respaced text text') (hcomment : '#' ∉ text)
    (hspacing : OnlySpacing text) (hspacing' : OnlySpacing text') :
    List.Forall₂ Alike text text' := by
  induction h with
  | nil => exact .nil
  | @cons c c' text text' hc _ ih =>
      rw [List.mem_cons, not_or] at hcomment
      obtain ⟨hfirst, hmore⟩ := List.forall_mem_cons.mp hspacing
      obtain ⟨hfirst', hmore'⟩ := List.forall_mem_cons.mp hspacing'
      refine .cons ?_ (ih hcomment.2 hmore hmore')
      rcases hc with rfl | ⟨hblank, hblank'⟩
      · cases hblank : Text.isBlank c with
        | false => exact .inr ⟨rfl, hblank, Ne.symm hcomment.1⟩
        | true => exact .inl ⟨hfirst hblank, hfirst hblank⟩
      · exact .inl ⟨hfirst hblank, hfirst' hblank'⟩

/-- Without comments, a text in which blanks are replaced by others is read as the same script
if all of them are spacing, and with other blanks no text is read. -/
theorem read_respaced (h : Respaced text text') (hcomment : '#' ∉ text) :
    (OnlySpacing text → OnlySpacing text' →
        ∀ script, Script.read text = .ok script ↔ Script.read text' = .ok script) ∧
      ∀ script, Script.read text' = .ok script → OnlySpacing text' := by
  have hcomment' := h.not_mem_comment hcomment
  refine ⟨?_, fun script hread => onlySpacing_of_read hread hcomment'⟩
  intro hspacing hspacing' script
  constructor
  · intro hread
    exact read_of_forall₂ hread (h.forall₂_alike hcomment hspacing hspacing')
  · intro hread
    exact read_of_forall₂ hread (h.symm.forall₂_alike hcomment' hspacing' hspacing)

/-- A tab and a line feed take the place of spaces. -/
theorem read_respaced_tab :
    Respaced ['A', ' ', '-', '>', ' ', ';'] ['A', '\t', '-', '>', '\n', ';'] ∧
      '#' ∉ ['A', ' ', '-', '>', ' ', ';'] ∧
      OnlySpacing ['A', ' ', '-', '>', ' ', ';'] ∧
      OnlySpacing ['A', '\t', '-', '>', '\n', ';'] ∧
      ∀ script, Script.read ['A', ' ', '-', '>', ' ', ';'] = .ok script ↔
        Script.read ['A', '\t', '-', '>', '\n', ';'] = .ok script := by
  have hrespaced : Respaced ['A', ' ', '-', '>', ' ', ';'] ['A', '\t', '-', '>', '\n', ';'] := by
    unfold Respaced
    decide
  have hspacing : OnlySpacing ['A', ' ', '-', '>', ' ', ';'] := by decide
  have hspacing' : OnlySpacing ['A', '\t', '-', '>', '\n', ';'] := by decide
  exact ⟨hrespaced, by decide, hspacing, hspacing',
    (read_respaced hrespaced (by decide)).1 hspacing hspacing'⟩

/-- A no-break space does not take the place of a space, though it is a blank. -/
theorem not_read_respaced :
    Respaced ['A', ' ', '-', '>', ';'] ['A', '\u00a0', '-', '>', ';'] ∧
      '#' ∉ ['A', ' ', '-', '>', ';'] ∧
      Script.read ['A', ' ', '-', '>', ';'] = .ok ⟨none, [⟨[.bare ['A']], [[]]⟩]⟩ ∧
      Script.read ['A', '\u00a0', '-', '>', ';'] =
        .error (.unreadable "unexpected input: A\u00a0->;") := by
  refine ⟨?_, by decide, by decide +kernel, by decide +kernel⟩
  unfold Respaced
  decide

end Script
end PhraseStructure
