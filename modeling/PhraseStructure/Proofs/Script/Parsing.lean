import PhraseStructure.Proofs.Script.Lexeme

/-!
# The scripts that are read

Which lists of lexemes spell a script is written down without regard to how they are
found; a text is read as a script exactly if it is cut into lexemes that, blanks aside,
spell it.

Each reader is described the same way: it reads something and stops before the rest exactly
if the text shows lexemes that spell it up to there.  A reader of many things also stops
only where no further one begins.  The arrow and the keyword are looked for as characters,
not as runs.  The arrow is found nowhere else, because a longer run would have been read as
a symbol before; the keyword is also found at the beginning of a longer run, whose remainder
is then the symbol.

Nothing is said about the complaint when a text is not read.
-/

namespace PhraseStructure
namespace Script

/-! ### The grammar of lexemes -/

/-- The lexeme is a symbol or, in the case of empty quotation marks, the place of none. -/
inductive SpellsSymbol : Lexeme → Option Symbol → Prop
  | empty (mark : Char) : SpellsSymbol (.quoted mark []) none
  | quoted (mark : Char) {body : Text} (hne : body ≠ []) :
      SpellsSymbol (.quoted mark body) (some (.quoted body))
  | bare {chars : Text} (harrow : chars ≠ arrow) (hkeyword : chars ≠ keyword) :
      SpellsSymbol (.run chars) (some (.bare chars))

/-- The lexemes are symbols, one after another. -/
inductive SpellsSymbols : List Lexeme → List Symbol → Prop
  | nil : SpellsSymbols [] []
  | cons {lexeme : Lexeme} {lexemes : List Lexeme} {symbol : Option Symbol}
      {symbols : List Symbol} (hsymbol : SpellsSymbol lexeme symbol)
      (hsymbols : SpellsSymbols lexemes symbols) :
      SpellsSymbols (lexeme :: lexemes) (symbol.toList ++ symbols)

/-- The lexemes are one or more alternatives with bars between them. -/
inductive SpellsAlternatives : List Lexeme → List (List Symbol) → Prop
  | last {lexemes : List Lexeme} {symbols : List Symbol}
      (hsymbols : SpellsSymbols lexemes symbols) : SpellsAlternatives lexemes [symbols]
  | cons {lexemes more : List Lexeme} {symbols : List Symbol} {alternatives : List (List Symbol)}
      (hsymbols : SpellsSymbols lexemes symbols)
      (halternatives : SpellsAlternatives more alternatives) :
      SpellsAlternatives (lexemes ++ .bar :: more) (symbols :: alternatives)

/-- The lexemes are symbols, the arrow, alternatives and a semicolon. -/
inductive SpellsRule : List Lexeme → WrittenRule → Prop
  | rule {left right : List Lexeme} {lhs : List Symbol} {alternatives : List (List Symbol)}
      (hlhs : SpellsSymbols left lhs) (halternatives : SpellsAlternatives right alternatives) :
      SpellsRule (left ++ .run arrow :: (right ++ [.semicolon])) ⟨lhs, alternatives⟩

/-- The lexemes are rules, one after another. -/
inductive SpellsRules : List Lexeme → List WrittenRule → Prop
  | nil : SpellsRules [] []
  | cons {lexemes more : List Lexeme} {rule : WrittenRule} {rules : List WrittenRule}
      (hrule : SpellsRule lexemes rule) (hrules : SpellsRules more rules) :
      SpellsRules (lexemes ++ more) (rule :: rules)

/-- The lexemes are the keyword, a symbol and a semicolon; a bare symbol may be glued to
the keyword. -/
inductive SpellsDirective : List Lexeme → Symbol → Prop
  | apart {lexeme : Lexeme} {symbol : Symbol} (hsymbol : SpellsSymbol lexeme (some symbol)) :
      SpellsDirective [.run keyword, lexeme, .semicolon] symbol
  | glued {chars : Text} (hne : chars ≠ []) (harrow : chars ≠ arrow) (hkeyword : chars ≠ keyword) :
      SpellsDirective [.run (keyword ++ chars), .semicolon] (.bare chars)

/-- The lexemes are a directive, if there is one, and rules. -/
inductive SpellsScript : List Lexeme → Script → Prop
  | directed {lexemes more : List Lexeme} {symbol : Symbol} {rules : List WrittenRule}
      (hdirective : SpellsDirective lexemes symbol) (hrules : SpellsRules more rules) :
      SpellsScript (lexemes ++ more) ⟨some symbol, rules⟩
  | undirected {lexemes : List Lexeme} {rules : List WrittenRule}
      (hrules : SpellsRules lexemes rules) : SpellsScript lexemes ⟨none, rules⟩

variable {text mid rest : Text} {lexeme : Lexeme} {lexemes : List Lexeme}

/-! ### One lexeme -/

theorem SpellsSymbol.isBlank_eq {symbol : Option Symbol} (h : SpellsSymbol lexeme symbol) :
    lexeme.isBlank = false := by
  cases h with
  | empty mark => rfl
  | quoted mark hne => rfl
  | bare harrow hkeyword => rfl

theorem isSymbolRun_iff {run : Text} :
    isSymbolRun run = true ↔ run ≠ [] ∧ run ≠ arrow ∧ run ≠ keyword := by
  simp [isSymbolRun, and_assoc]

/-- Characters between equal quotation marks, possibly none, are read whatever follows. -/
theorem readQuoted_eq_some_iff {body : Text} :
    readQuoted text = some (body, rest) ↔
      ∃ mark, text = (Lexeme.quoted mark body).text ++ rest ∧
        (Lexeme.quoted mark body).EndsBefore rest := by
  refine ⟨?_, ?_⟩
  · intro h
    have hchars := isQuotedChar_of_readQuoted h
    cases text with
    | nil => cases h
    | cons mark text =>
        rw [readQuoted] at h
        split at h
        · rename_i hmarks
          simp only [Bool.and_eq_true, decide_eq_true_eq] at hmarks
          obtain ⟨hmark, hclosing⟩ := hmarks
          obtain ⟨more, hmore⟩ := List.head?_eq_some_iff.mp hclosing
          cases h
          refine ⟨mark, ?_, hmark, hchars⟩
          have hsplit := List.takeWhile_append_dropWhile (p := isQuotedChar) (l := text)
          rw [hmore] at hsplit ⊢
          simp [Lexeme.text, hsplit]
        · cases h
  · rintro ⟨mark, rfl, hmark, hchars⟩
    have hread := readQuoted_append hmark hchars rest
    rw [← hread]
    simp [Lexeme.text]

/-- A maximal run of bare characters is read unless it is the arrow or the keyword. -/
theorem readBare_eq_some_iff {run : Text} :
    readBare text = some (run, rest) ↔
      text = run ++ rest ∧ MaximalRun isBareChar run rest ∧ run ≠ arrow ∧ run ≠ keyword := by
  refine ⟨?_, ?_⟩
  · intro h
    rw [readBare] at h
    split at h
    · rename_i hrun
      obtain ⟨hne, harrow, hkeyword⟩ := isSymbolRun_iff.mp hrun
      cases h
      exact ⟨List.takeWhile_append_dropWhile.symm, maximalRun_takeWhile hne, harrow, hkeyword⟩
    · cases h
  · rintro ⟨rfl, hmaximal, harrow, hkeyword⟩
    have hrun : isSymbolRun run = true := isSymbolRun_iff.mpr ⟨hmaximal.ne_nil, harrow, hkeyword⟩
    rw [readBare, takeWhile_append_of_head? hmaximal.inside hmaximal.outside,
      dropWhile_append_of_head? hmaximal.inside hmaximal.outside, if_pos hrun]

theorem readSymbol_eq_some_iff {symbol : Option Symbol} :
    readSymbol text = some (symbol, rest) ↔
      ∃ lexeme : Lexeme, text = lexeme.text ++ rest ∧ lexeme.EndsBefore rest ∧
        SpellsSymbol lexeme symbol := by
  refine ⟨?_, ?_⟩
  · intro h
    rw [readSymbol] at h
    split at h
    · rename_i body rest' hquoted
      obtain ⟨mark, htext, hends⟩ := readQuoted_eq_some_iff.mp hquoted
      cases body with
      | nil =>
          cases h
          exact ⟨_, htext, hends, .empty mark⟩
      | cons c body =>
          cases h
          exact ⟨_, htext, hends, .quoted mark (List.cons_ne_nil c body)⟩
    · split at h
      · rename_i run rest' hbare
        obtain ⟨htext, hmaximal, harrow, hkeyword⟩ := readBare_eq_some_iff.mp hbare
        cases h
        exact ⟨.run run, htext, hmaximal, .bare harrow hkeyword⟩
      · cases h
  · rintro ⟨lexeme, htext, hends, hsymbol⟩
    cases hsymbol with
    | empty mark =>
        have hquoted := readQuoted_eq_some_iff.mpr ⟨mark, htext, hends⟩
        rw [readSymbol, hquoted]
        rfl
    | @quoted mark body hne =>
        have hquoted := readQuoted_eq_some_iff.mpr ⟨mark, htext, hends⟩
        rw [readSymbol, hquoted]
        simp [hne]
    | @bare chars harrow hkeyword =>
        have hmaximal : MaximalRun isBareChar chars rest := hends
        have hquoted : readQuoted text = none := by
          obtain ⟨c, more, rfl⟩ := List.exists_cons_of_ne_nil hmaximal.ne_nil
          have hc := hmaximal.inside c List.mem_cons_self
          rw [htext]
          exact readQuoted_of_not_mark (isQuotation_eq_false (isQuotedChar_of_isBareChar hc)) _
        have hbare := readBare_eq_some_iff.mpr ⟨htext, hmaximal, harrow, hkeyword⟩
        rw [readSymbol, hquoted, hbare]
        rfl

/-- Behind blanks a symbol is read exactly if the next lexeme spells it. -/
theorem readSymbol_skip_eq_some_iff {symbol : Option Symbol} :
    readSymbol (skip text) = some (symbol, rest) ↔
      ∃ lexeme, Next text lexeme rest ∧ SpellsSymbol lexeme symbol := by
  rw [readSymbol_eq_some_iff]
  refine ⟨?_, ?_⟩
  · rintro ⟨lexeme, htext, hends, hsymbol⟩
    exact ⟨lexeme, ⟨htext, hends, hsymbol.isBlank_eq⟩, hsymbol⟩
  · rintro ⟨lexeme, hnext, hsymbol⟩
    exact ⟨lexeme, hnext.skip_eq, hnext.endsBefore, hsymbol⟩

theorem Next.readSymbol_eq_none (h : Next text lexeme rest)
    (hno : ∀ symbol, ¬ SpellsSymbol lexeme symbol) : readSymbol (skip text) = none := by
  rw [Option.eq_none_iff_forall_ne_some]
  rintro ⟨symbol, rest'⟩ hread
  obtain ⟨lexeme', hnext, hsymbol⟩ := readSymbol_skip_eq_some_iff.mp hread
  obtain ⟨rfl, _⟩ := h.unique hnext
  exact hno symbol hsymbol

theorem not_spellsSymbol_arrow (symbol : Option Symbol) : ¬ SpellsSymbol (.run arrow) symbol := by
  intro h
  cases h with
  | bare harrow _ => exact harrow rfl

theorem not_spellsSymbol_keyword (symbol : Option Symbol) :
    ¬ SpellsSymbol (.run keyword) symbol := by
  intro h
  cases h with
  | bare _ hkeyword => exact hkeyword rfl

theorem not_spellsSymbol_bar (symbol : Option Symbol) : ¬ SpellsSymbol .bar symbol :=
  nofun

theorem not_spellsSymbol_semicolon (symbol : Option Symbol) : ¬ SpellsSymbol .semicolon symbol :=
  nofun

/-! ### Words -/

theorem expect_eq_some_iff {word : Text} :
    expect word text = some rest ↔ skip text = word ++ rest := by
  simp only [expect]
  split
  · rename_i hprefix
    obtain ⟨more, hmore⟩ := List.isPrefixOf_iff_prefix.mp hprefix
    rw [← hmore, List.drop_left, Option.some.injEq, List.append_cancel_left_eq]
  · rename_i hprefix
    refine ⟨?_, ?_⟩
    · intro h
      cases h
    · intro h
      exact absurd (List.isPrefixOf_iff_prefix.mpr ⟨rest, h.symm⟩) hprefix

theorem expect_bar_eq_some_iff : expect bar text = some rest ↔ Next text .bar rest :=
  ⟨fun h => ⟨expect_eq_some_iff.mp h, trivial, rfl⟩, fun h => expect_eq_some_iff.mpr h.skip_eq⟩

theorem expect_semicolon_eq_some_iff :
    expect semicolon text = some rest ↔ Next text .semicolon rest :=
  ⟨fun h => ⟨expect_eq_some_iff.mp h, trivial, rfl⟩, fun h => expect_eq_some_iff.mpr h.skip_eq⟩

theorem Next.expect_bar_eq_none (h : Next text lexeme rest) (hne : lexeme ≠ .bar) :
    expect bar text = none := by
  rw [Option.eq_none_iff_forall_ne_some]
  intro rest' hbar
  exact hne (h.unique (expect_bar_eq_some_iff.mp hbar)).1

/-- A word of bare characters that is found is the next run, or the beginning of it. -/
theorem next_run_of_expect {word : Text} (hne : word ≠ [])
    (hchars : ∀ c ∈ word, isBareChar c = true) (h : expect word text = some rest) :
    Next text (.run word) rest ∨
      ∃ more rest', rest = more ++ rest' ∧ MaximalRun isBareChar more rest' ∧
        Next text (.run (word ++ more)) rest' := by
  have hskip := expect_eq_some_iff.mp h
  by_cases hmore : rest.takeWhile isBareChar = []
  · refine .inl ⟨hskip, ⟨hne, hchars, ?_⟩, rfl⟩
    intro c hc
    obtain ⟨tail, rfl⟩ := List.head?_eq_some_iff.mp hc
    cases hbare : isBareChar c with
    | false => rfl
    | true =>
        rw [List.takeWhile_cons_of_pos hbare] at hmore
        cases hmore
  · have hmaximal := maximalRun_takeWhile hmore
    have hsplit : rest = rest.takeWhile isBareChar ++ rest.dropWhile isBareChar :=
      List.takeWhile_append_dropWhile.symm
    refine .inr ⟨_, _, hsplit, hmaximal, ⟨?_, ⟨?_, ?_, hmaximal.outside⟩, rfl⟩⟩
    · show skip text = (word ++ rest.takeWhile isBareChar) ++ rest.dropWhile isBareChar
      rw [hskip, List.append_assoc, ← hsplit]
    · exact List.append_ne_nil_of_left_ne_nil hne _
    · exact List.forall_mem_append.mpr ⟨hchars, hmaximal.inside⟩

/-- Where no symbol is read, an arrow that is found is a run of its own. -/
theorem expect_arrow_eq_some_iff :
    readSymbol (skip text) = none ∧ expect arrow text = some rest ↔
      Next text (.run arrow) rest := by
  refine ⟨?_, ?_⟩
  · rintro ⟨hnone, harrow⟩
    rcases next_run_of_expect (by decide) (List.all_eq_true.mp rfl) harrow with
      hnext | ⟨more, rest', -, hmaximal, hnext⟩
    · exact hnext
    · -- A longer run would have been read as a symbol.
      have hsymbol : SpellsSymbol (.run (arrow ++ more)) (some (.bare (arrow ++ more))) :=
        .bare (by simp [hmaximal.ne_nil]) (by simp [arrow, keyword])
      rw [readSymbol_skip_eq_some_iff.mpr ⟨_, hnext, hsymbol⟩] at hnone
      cases hnone
  · intro h
    exact ⟨h.readSymbol_eq_none not_spellsSymbol_arrow, expect_eq_some_iff.mpr h.skip_eq⟩

/-! ### Symbols, alternatives and rules -/

theorem scans_readSymbols (text : Text) :
    (∃ lexemes, Scans text lexemes (readSymbols text).2 ∧
        SpellsSymbols lexemes (readSymbols text).1) ∧
      readSymbol (skip (readSymbols text).2) = none := by
  fun_induction readSymbols text with
  | case1 text hnone => exact ⟨⟨[], .nil, .nil⟩, hnone⟩
  | case2 text symbol rest hsome more ih =>
      obtain ⟨lexeme, hnext, hsymbol⟩ := readSymbol_skip_eq_some_iff.mp hsome
      obtain ⟨⟨lexemes, hscans, hsymbols⟩, hnone⟩ := ih
      exact ⟨⟨lexeme :: lexemes, .cons hnext hscans, .cons hsymbol hsymbols⟩, hnone⟩

/-- Symbols are read as long as lexemes spell them, up to what is no symbol. -/
theorem readSymbols_eq_iff {symbols : List Symbol} :
    readSymbols text = (symbols, rest) ↔
      (∃ lexemes, Scans text lexemes rest ∧ SpellsSymbols lexemes symbols) ∧
        readSymbol (skip rest) = none := by
  refine ⟨?_, ?_⟩
  · intro h
    have hread := scans_readSymbols text
    rwa [h] at hread
  · rintro ⟨⟨lexemes, hscans, hsymbols⟩, hnone⟩
    induction hsymbols generalizing text with
    | nil =>
        cases hscans
        exact readSymbols_of_none hnone
    | cons hsymbol _ ih =>
        cases hscans with
        | cons hnext hmore =>
            rw [readSymbols_of_some (readSymbol_skip_eq_some_iff.mpr ⟨_, hnext, hsymbol⟩), ih hmore]

theorem scans_readAlternatives (text : Text) :
    (∃ lexemes, Scans text lexemes (readAlternatives text).2 ∧
        SpellsAlternatives lexemes (readAlternatives text).1) ∧
      readSymbol (skip (readAlternatives text).2) = none ∧
        expect bar (readAlternatives text).2 = none := by
  fun_induction readAlternatives text with
  | case1 text first hbar =>
      obtain ⟨⟨lexemes, hscans, hsymbols⟩, hnone⟩ := scans_readSymbols text
      exact ⟨⟨lexemes, hscans, .last hsymbols⟩, hnone, hbar⟩
  | case2 text first rest hbar more ih =>
      obtain ⟨⟨lexemes, hscans, hsymbols⟩, _⟩ := scans_readSymbols text
      obtain ⟨⟨lexemes', hscans', halternatives⟩, hend⟩ := ih
      have hnext := expect_bar_eq_some_iff.mp hbar
      exact ⟨⟨lexemes ++ .bar :: lexemes', hscans.append (.cons hnext hscans'),
        .cons hsymbols halternatives⟩, hend⟩

/-- Alternatives are read up to what is neither a symbol nor a bar. -/
theorem readAlternatives_eq_iff {alternatives : List (List Symbol)} :
    readAlternatives text = (alternatives, rest) ↔
      (∃ lexemes, Scans text lexemes rest ∧ SpellsAlternatives lexemes alternatives) ∧
        readSymbol (skip rest) = none ∧ expect bar rest = none := by
  refine ⟨?_, ?_⟩
  · intro h
    have hread := scans_readAlternatives text
    rwa [h] at hread
  · rintro ⟨⟨lexemes, hscans, halternatives⟩, hnone, hbar⟩
    induction halternatives generalizing text with
    | last hsymbols =>
        have hread := readSymbols_eq_iff.mpr ⟨⟨_, hscans, hsymbols⟩, hnone⟩
        rw [readAlternatives_of_none (by rw [hread, hbar]), hread]
    | cons hsymbols _ ih =>
        obtain ⟨mid, hfirst, hscans⟩ := hscans.exists_of_append
        obtain ⟨next, hnext, hmore⟩ := hscans.exists_of_cons
        have hread := readSymbols_eq_iff.mpr
          ⟨⟨_, hfirst, hsymbols⟩, hnext.readSymbol_eq_none not_spellsSymbol_bar⟩
        have hbar' := expect_bar_eq_some_iff.mpr hnext
        rw [readAlternatives_of_some (by rw [hread, hbar']), hread, ih hmore]

/-- A rule is read exactly if the text shows lexemes that spell it. -/
theorem readRule_eq_some_iff {rule : WrittenRule} :
    readRule text = some (rule, rest) ↔
      ∃ lexemes, Scans text lexemes rest ∧ SpellsRule lexemes rule := by
  refine ⟨?_, ?_⟩
  · intro h
    simp only [readRule] at h
    split at h
    · cases h
    · rename_i body harrow
      split at h
      · cases h
      · rename_i after hsemicolon
        cases h
        obtain ⟨⟨left, hleft, hlhs⟩, hnone⟩ := scans_readSymbols text
        obtain ⟨⟨right, hright, halternatives⟩, _⟩ := scans_readAlternatives body
        have hnext := expect_arrow_eq_some_iff.mp ⟨hnone, harrow⟩
        have hend := expect_semicolon_eq_some_iff.mp hsemicolon
        have hscans := hleft.append (.cons hnext (hright.append (scans_singleton_iff.mpr hend)))
        exact ⟨_, hscans, .rule hlhs halternatives⟩
  · rintro ⟨lexemes, hscans, hrule⟩
    cases hrule with
    | rule hlhs halternatives =>
        obtain ⟨mid, hleft, hscans⟩ := hscans.exists_of_append
        obtain ⟨body, hnext, hscans⟩ := hscans.exists_of_cons
        obtain ⟨last, hright, hscans⟩ := hscans.exists_of_append
        have hend := scans_singleton_iff.mp hscans
        obtain ⟨hnone, harrow⟩ := expect_arrow_eq_some_iff.mpr hnext
        have hread := readSymbols_eq_iff.mpr ⟨⟨_, hleft, hlhs⟩, hnone⟩
        have hread' := readAlternatives_eq_iff.mpr ⟨⟨_, hright, halternatives⟩,
          hend.readSymbol_eq_none not_spellsSymbol_semicolon, hend.expect_bar_eq_none (by decide)⟩
        have hsemicolon := expect_semicolon_eq_some_iff.mpr hend
        simp only [readRule, hread, harrow, hread', hsemicolon]

theorem SpellsRule.ne_nil {rule : WrittenRule} (h : SpellsRule lexemes rule) : lexemes ≠ [] := by
  cases h with
  | rule => exact List.append_ne_nil_of_right_ne_nil _ (List.cons_ne_nil _ _)

/-- Blanks are no rule. -/
theorem readRule_of_skip_eq_nil (h : skip text = []) : readRule text = none := by
  rw [Option.eq_none_iff_forall_ne_some]
  rintro ⟨rule, rest⟩ hread
  obtain ⟨lexemes, hscans, hrule⟩ := readRule_eq_some_iff.mp hread
  cases hscans with
  | nil => exact hrule.ne_nil rfl
  | cons hnext _ => exact hnext.skip_ne_nil h

theorem scans_readRules (text : Text) :
    (∃ lexemes, Scans text lexemes (readRules text).2 ∧ SpellsRules lexemes (readRules text).1) ∧
      readRule (readRules text).2 = none := by
  fun_induction readRules text with
  | case1 text hnone => exact ⟨⟨[], .nil, .nil⟩, hnone⟩
  | case2 text rule rest hsome more ih =>
      obtain ⟨lexemes, hscans, hrule⟩ := readRule_eq_some_iff.mp hsome
      obtain ⟨⟨lexemes', hscans', hrules⟩, hnone⟩ := ih
      exact ⟨⟨lexemes ++ lexemes', hscans.append hscans', .cons hrule hrules⟩, hnone⟩

/-- Rules are read as long as lexemes spell them, up to what begins no rule. -/
theorem readRules_eq_iff {rules : List WrittenRule} :
    readRules text = (rules, rest) ↔
      (∃ lexemes, Scans text lexemes rest ∧ SpellsRules lexemes rules) ∧
        readRule rest = none := by
  refine ⟨?_, ?_⟩
  · intro h
    have hread := scans_readRules text
    rwa [h] at hread
  · rintro ⟨⟨lexemes, hscans, hrules⟩, hnone⟩
    induction hrules generalizing text with
    | nil =>
        cases hscans
        exact readRules_of_none hnone
    | cons hrule _ ih =>
        obtain ⟨mid, hfirst, hmore⟩ := hscans.exists_of_append
        rw [readRules_of_some (readRule_eq_some_iff.mpr ⟨_, hfirst, hrule⟩), ih hmore]

/-! ### The directive -/

/-- A directive is read exactly if the text shows lexemes that spell it. -/
theorem readDirective_eq_some_iff {symbol : Symbol} :
    readDirective text = some (symbol, rest) ↔
      ∃ lexemes, Scans text lexemes rest ∧ SpellsDirective lexemes symbol := by
  refine ⟨?_, ?_⟩
  · intro h
    rw [readDirective] at h
    split at h
    · cases h
    · rename_i after hkeyword
      split at h
      · rename_i symbol' mid hread
        obtain ⟨rest', hsemicolon, heq⟩ := Option.map_eq_some_iff.mp h
        cases heq
        have hend := scans_singleton_iff.mpr (expect_semicolon_eq_some_iff.mp hsemicolon)
        rcases next_run_of_expect (by decide) (List.all_eq_true.mp rfl) hkeyword with
          hnext | ⟨more, tail, rfl, hmaximal, hnext⟩
        · obtain ⟨lexeme, hnext', hsymbol⟩ := readSymbol_skip_eq_some_iff.mp hread
          exact ⟨_, .cons hnext (.cons hnext' hend), .apart hsymbol⟩
        · -- No blank stands behind the keyword, so the symbol is the rest of its run.
          have hends : (Lexeme.run more).EndsBefore tail := hmaximal
          rw [hmaximal.skip_eq] at hread
          obtain ⟨lexeme, htext, hends', hsymbol⟩ := readSymbol_eq_some_iff.mp hread
          obtain ⟨rfl, rfl⟩ := hends.unique hends' htext
          cases hsymbol with
          | bare harrow hkeyword' =>
              exact ⟨_, .cons hnext hend, .glued hmaximal.ne_nil harrow hkeyword'⟩
      · cases h
  · rintro ⟨lexemes, hscans, hdirective⟩
    cases hdirective with
    | apart hsymbol =>
        obtain ⟨mid, hnext, hscans⟩ := hscans.exists_of_cons
        obtain ⟨last, hnext', hscans⟩ := hscans.exists_of_cons
        have hend := scans_singleton_iff.mp hscans
        have hkeyword : expect keyword text = some mid := expect_eq_some_iff.mpr hnext.skip_eq
        have hread := readSymbol_skip_eq_some_iff.mpr ⟨_, hnext', hsymbol⟩
        have hsemicolon := expect_semicolon_eq_some_iff.mpr hend
        simp only [readDirective, hkeyword, hread, hsemicolon, Option.map_some]
    | @glued chars hne harrow hkeyword' =>
        obtain ⟨last, hnext, hscans⟩ := hscans.exists_of_cons
        have hend := scans_singleton_iff.mp hscans
        obtain ⟨_, hinside, houtside⟩ := hnext.endsBefore
        have hmaximal : MaximalRun isBareChar chars last :=
          ⟨hne, (List.forall_mem_append.mp hinside).2, houtside⟩
        have hkeyword : expect keyword text = some (chars ++ last) := by
          rw [expect_eq_some_iff, hnext.skip_eq]
          exact List.append_assoc keyword chars last
        have hread : readSymbol (skip (chars ++ last)) = some (some (.bare chars), last) :=
          readSymbol_eq_some_iff.mpr
            ⟨.run chars, hmaximal.skip_eq, hmaximal, .bare harrow hkeyword'⟩
        have hsemicolon := expect_semicolon_eq_some_iff.mpr hend
        simp only [readDirective, hkeyword, hread, hsemicolon, Option.map_some]

/-- What begins with a directive is no list of rules. -/
theorem SpellsDirective.not_prefix {symbol : Symbol} {rules : List WrittenRule}
    {lexemes' : List Lexeme} (h : SpellsDirective lexemes symbol)
    (h' : SpellsRules lexemes' rules) : ¬ lexemes <+: lexemes' := by
  intro hprefix
  cases h' with
  | nil =>
      obtain rfl := List.prefix_nil.mp hprefix
      cases h
  | cons hrule _ =>
      cases hrule with
      | rule hlhs _ =>
          -- A rule begins with the arrow or with a symbol, and then goes on with the arrow or
          -- with another symbol, not with a semicolon.
          cases h with
          | apart _ =>
              cases hlhs with
              | nil =>
                  have heq := Lexeme.run.inj (List.cons_prefix_cons.mp hprefix).1
                  exact absurd heq (by decide)
              | cons hsymbol _ =>
                  obtain rfl := (List.cons_prefix_cons.mp hprefix).1
                  exact not_spellsSymbol_keyword _ hsymbol
          | glued _ _ _ =>
              cases hlhs with
              | nil =>
                  have heq := Lexeme.run.inj (List.cons_prefix_cons.mp hprefix).1
                  simp [keyword, arrow] at heq
              | cons _ hsymbols =>
                  have hsecond := (List.cons_prefix_cons.mp hprefix).2
                  cases hsymbols with
                  | nil =>
                      have heq := (List.cons_prefix_cons.mp hsecond).1
                      cases heq
                  | cons hsymbol _ =>
                      obtain rfl := (List.cons_prefix_cons.mp hsecond).1
                      exact not_spellsSymbol_semicolon _ hsymbol

/-! ### Whole texts -/

theorem read_eq_ok_iff_readOpening {script : Script} :
    Script.read text = .ok script ↔ readOpening text = (script, []) := by
  rw [Script.read]
  split
  · rename_i opening hopening
    rw [hopening, Except.ok.injEq, Prod.mk.injEq, and_iff_left rfl]
  · rename_i opening unread hunread hopening
    rw [hopening, Prod.mk.injEq]
    refine ⟨?_, ?_⟩
    · intro h
      cases h
    · rintro ⟨rfl, rfl⟩
      exact (hunread rfl).elim

/-- At the beginning of a text a script is read, up to what begins no rule. -/
theorem scans_readOpening (text : Text) :
    ∃ lexemes rest, Scans text lexemes rest ∧ SpellsScript lexemes (readOpening text).1 ∧
      (readOpening text).2 = skip rest ∧ readRule rest = none := by
  rw [readOpening]
  split
  · rename_i symbol body hdirective
    obtain ⟨lexemes, hscans, hspells⟩ := readDirective_eq_some_iff.mp hdirective
    obtain ⟨⟨more, hmore, hrules⟩, hnone⟩ := scans_readRules body
    exact ⟨_, _, hscans.append hmore, .directed hspells hrules, rfl, hnone⟩
  · obtain ⟨⟨lexemes, hscans, hrules⟩, hnone⟩ := scans_readRules text
    exact ⟨_, _, hscans, .undirected hrules, rfl, hnone⟩

/-- A text is read as a script exactly if up to its last blanks it shows lexemes that spell
the script. -/
theorem readOpening_eq_iff {script : Script} :
    readOpening text = (script, []) ↔
      ∃ lexemes rest, Scans text lexemes rest ∧ skip rest = [] ∧ SpellsScript lexemes script := by
  refine ⟨?_, ?_⟩
  · intro h
    obtain ⟨lexemes, rest, hscans, hscript, hend, _⟩ := scans_readOpening text
    rw [h] at hscript hend
    exact ⟨lexemes, rest, hscans, hend.symm, hscript⟩
  · rintro ⟨lexemes, rest, hscans, hend, hscript⟩
    have hnone := readRule_of_skip_eq_nil hend
    cases hscript with
    | directed hdirective hrules =>
        obtain ⟨body, hfirst, hmore⟩ := hscans.exists_of_append
        have hread := readDirective_eq_some_iff.mpr ⟨_, hfirst, hdirective⟩
        have hread' := readRules_eq_iff.mpr ⟨⟨_, hmore, hrules⟩, hnone⟩
        simp only [readOpening, hread, hread', hend]
    | undirected hrules =>
        have hread : readDirective text = none := by
          rw [Option.eq_none_iff_forall_ne_some]
          rintro ⟨symbol, body⟩ hdirective
          obtain ⟨lexemes', hscans', hspells⟩ := readDirective_eq_some_iff.mp hdirective
          exact hspells.not_prefix hrules (hscans.prefix_of_skip_eq_nil hend hscans')
        have hread' := readRules_eq_iff.mpr ⟨⟨_, hscans, hrules⟩, hnone⟩
        simp only [readOpening, hread, hread', hend]

/-- A text is cut in at most one way from left to right, by longest match, into lexemes, and
it is read as a script exactly if it can be cut and the lexemes, blanks aside, spell the
script. -/
theorem read_accepts_exactly_spelled_scripts (text : Text) :
    (∀ pieces pieces', Lexed text pieces → Lexed text pieces' → pieces = pieces') ∧
      ∀ script, Script.read text = .ok script ↔
        ∃ pieces, Lexed text pieces ∧ SpellsScript (significant pieces) script := by
  refine ⟨fun pieces pieces' => Lexed.unique, ?_⟩
  intro script
  rw [read_eq_ok_iff_readOpening, readOpening_eq_iff]
  refine ⟨?_, ?_⟩
  · rintro ⟨lexemes, rest, hscans, hend, hscript⟩
    obtain ⟨pieces, hpieces, rfl⟩ := hscans.exists_lexed hend
    exact ⟨pieces, hpieces, hscript⟩
  · rintro ⟨pieces, hpieces, hscript⟩
    obtain ⟨rest, hscans, hend⟩ := hpieces.exists_scans
    exact ⟨significant pieces, rest, hscans, hend, hscript⟩

/-- A symbol that is glued to the keyword, and a comment that ends with the text. -/
theorem read_accepts_exactly_spelled_scripts_glued :
    Lexed (keyword ++ ['A', ';', '#']) [.run (keyword ++ ['A']), .semicolon, .comment []] ∧
      (∀ pieces, Lexed (keyword ++ ['A', ';', '#']) pieces →
        pieces = [.run (keyword ++ ['A']), .semicolon, .comment []]) ∧
      Script.read (keyword ++ ['A', ';', '#']) = .ok ⟨some (.bare ['A']), []⟩ := by
  have hcomment : (Lexeme.comment []).EndsBefore [] := ⟨List.forall_mem_nil _, .inl rfl⟩
  have hsemicolon : Lexeme.semicolon.EndsBefore ['#'] := trivial
  have hrun : (Lexeme.run (keyword ++ ['A'])).EndsBefore [';', '#'] := by
    refine ⟨List.cons_ne_nil _ _, List.all_eq_true.mp rfl, ?_⟩
    intro c hc
    obtain rfl := Option.some.inj hc
    rfl
  have hlexed := Lexed.cons hrun (.cons hsemicolon (.cons hcomment .nil))
  have hscript : SpellsScript [.run (keyword ++ ['A']), .semicolon] ⟨some (.bare ['A']), []⟩ :=
    .directed (.glued (by decide) (by decide) (by decide)) .nil
  obtain ⟨hunique, hread⟩ := read_accepts_exactly_spelled_scripts (keyword ++ ['A', ';', '#'])
  exact ⟨hlexed, fun pieces hpieces => hunique _ _ hpieces hlexed,
    (hread _).mpr ⟨_, hlexed, hscript⟩⟩

end Script
end PhraseStructure
