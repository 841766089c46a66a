import PhraseStructure.Proofs.Script.Parsing

/-!
# Texts that begin with a run

The keyword of the directive is a word of its own, and a longer run that begins with it is a
symbol.  In a text that begins with a run which is neither the keyword nor the arrow, the run is
therefore meant as the first symbol of the first rule, and it is read so unless a semicolon
follows.

If a semicolon follows, the text is NOT refused in every case.  The reader looks for the
characters of the keyword only, so a run that begins with them is taken apart, and what remains
of it is read as the start symbol of a directive.
-/

namespace PhraseStructure
namespace Script

variable {text rest run : Text} {script : Script}

/-- A text that begins with a lexeme is read through lexemes of which this is the first. -/
theorem exists_scans_cons {lexeme : Lexeme} (hnext : Next text lexeme rest)
    (h : Script.read text = .ok script) :
    ∃ lexemes after, Scans rest lexemes after ∧ SpellsScript (lexeme :: lexemes) script := by
  obtain ⟨lexemes, after, hscans, hend, hscript⟩ :=
    readOpening_eq_iff.mp (read_eq_ok_iff_readOpening.mp h)
  cases hscans with
  | nil => exact absurd hend hnext.skip_ne_nil
  | cons hfirst hmore =>
      obtain ⟨rfl, rfl⟩ := hnext.unique hfirst
      exact ⟨_, after, hmore, hscript⟩

theorem MaximalRun.next (h : MaximalRun isBareChar run rest) :
    Next (run ++ rest) (.run run) rest :=
  ⟨h.skip_eq, h, rfl⟩

/-- Rules that begin with a run begin with it as a symbol, and no semicolon comes next. -/
theorem SpellsRules.exists_of_run {lexemes : List Lexeme} {rules : List WrittenRule}
    (h : SpellsRules (.run run :: lexemes) rules) (harrow : run ≠ arrow) :
    (∃ symbols alternatives others,
        rules = ⟨.bare run :: symbols, alternatives⟩ :: others) ∧
      ∃ next more, lexemes = next :: more ∧ next ≠ .semicolon := by
  generalize hwhole : Lexeme.run run :: lexemes = whole at h
  cases h with
  | nil => cases hwhole
  | cons hrule _ =>
      cases hrule with
      | rule hlhs _ =>
          cases hlhs with
          | nil => exact absurd (Lexeme.run.inj (List.cons.inj hwhole).1) harrow
          | cons hsymbol hsymbols =>
              obtain ⟨rfl, rfl⟩ := List.cons.inj hwhole
              cases hsymbol with
              | bare _ _ =>
                  refine ⟨⟨_, _, _, rfl⟩, ?_⟩
                  -- The arrow comes next, or another symbol.
                  cases hsymbols with
                  | nil => exact ⟨_, _, rfl, nofun⟩
                  | cons hnext _ =>
                      refine ⟨_, _, rfl, ?_⟩
                      rintro rfl
                      exact not_spellsSymbol_semicolon _ hnext

/-- A run that is neither the keyword nor the arrow is read as the first symbol of the first
rule if no semicolon follows it.  Otherwise it is read as the keyword glued to a start symbol. -/
theorem leading_run_is_symbol_or_glued (hnext : Next text (.run run) rest)
    (hkeyword : run ≠ keyword) (harrow : run ≠ arrow) (h : Script.read text = .ok script) :
    ((∀ after, ¬ Next rest .semicolon after) ∧ script.directive = none ∧
        ∃ symbols alternatives others,
          script.rules = ⟨.bare run :: symbols, alternatives⟩ :: others) ∨
      ∃ chars after, Next rest .semicolon after ∧ run = keyword ++ chars ∧
        isSymbolRun chars = true ∧ script.directive = some (.bare chars) := by
  obtain ⟨lexemes, last, hscans, hscript⟩ := exists_scans_cons hnext h
  generalize hwhole : Lexeme.run run :: lexemes = whole at hscript
  cases hscript with
  | undirected hrules =>
      rw [← hwhole] at hrules
      obtain ⟨hfirst, next, more, rfl, hne⟩ := hrules.exists_of_run harrow
      refine .inl ⟨?_, rfl, hfirst⟩
      intro after hsemicolon
      obtain ⟨_, hfollowing, _⟩ := hscans.exists_of_cons
      exact hne (hfollowing.unique hsemicolon).1
  | directed hdirective _ =>
      cases hdirective with
      | apart _ => exact absurd (Lexeme.run.inj (List.cons.inj hwhole).1) hkeyword
      | glued hne harrow' hkeyword' =>
          obtain ⟨hrun, rfl⟩ := List.cons.inj hwhole
          obtain ⟨after, hsemicolon, _⟩ := hscans.exists_of_cons
          exact .inr ⟨_, after, hsemicolon, Lexeme.run.inj hrun,
            isSymbolRun_iff.mpr ⟨hne, harrow', hkeyword'⟩, rfl⟩

/-- The keyword with another letter is a symbol in front of the arrow. -/
theorem leading_run_is_symbol_or_glued_arrow :
    Next (keyword ++ ['A', ' ', '-', '>', ';']) (.run (keyword ++ ['A'])) [' ', '-', '>', ';'] ∧
      keyword ++ ['A'] ≠ keyword ∧ keyword ++ ['A'] ≠ arrow ∧
      Script.read (keyword ++ ['A', ' ', '-', '>', ';']) =
        .ok ⟨none, [⟨[.bare (keyword ++ ['A'])], [[]]⟩]⟩ ∧
      ∀ after, ¬ Next [' ', '-', '>', ';'] .semicolon after := by
  have hrun : MaximalRun isBareChar (keyword ++ ['A']) [' ', '-', '>', ';'] := by
    refine ⟨by decide, List.all_eq_true.mp rfl, ?_⟩
    intro c hc
    obtain rfl := Option.some.inj hc
    rfl
  have hread : Script.read (keyword ++ ['A', ' ', '-', '>', ';']) =
      .ok ⟨none, [⟨[.bare (keyword ++ ['A'])], [[]]⟩]⟩ := by decide +kernel
  refine ⟨hrun.next, by decide, by decide, hread, ?_⟩
  rcases leading_run_is_symbol_or_glued hrun.next (by decide) (by decide) hread with
    ⟨hno, _⟩ | ⟨_, _, _, _, _, hdirective⟩
  · exact hno
  · cases hdirective

/-- The keyword with another letter is taken apart in front of a semicolon. -/
theorem directive_of_glued_keyword :
    Next (keyword ++ ['A', ';', 'A', ' ', '-', '>', ';']) (.run (keyword ++ ['A']))
        [';', 'A', ' ', '-', '>', ';'] ∧
      keyword ++ ['A'] ≠ keyword ∧ keyword ++ ['A'] ≠ arrow ∧
      Script.read (keyword ++ ['A', ';', 'A', ' ', '-', '>', ';']) =
        .ok ⟨some (.bare ['A']), [⟨[.bare ['A']], [[]]⟩]⟩ := by
  have hrun : MaximalRun isBareChar (keyword ++ ['A']) [';', 'A', ' ', '-', '>', ';'] := by
    refine ⟨by decide, List.all_eq_true.mp rfl, ?_⟩
    intro c hc
    obtain rfl := Option.some.inj hc
    rfl
  exact ⟨hrun.next, by decide, by decide, by decide +kernel⟩

end Script
end PhraseStructure
