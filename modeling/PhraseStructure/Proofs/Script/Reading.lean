import PhraseStructure.Proofs.Script.Written

/-!
# Reading undoes writing

The written form of a readable script is read back as the same script, and every script
that is read from any text is readable.

In a written form a symbol is always followed by a space, which ends a bare run, and after
the last symbol of a phrase stands the arrow, a bar or a semicolon, none of which is a
symbol.  A text without a directive may begin with a symbol that begins with the
keyword.  Then the directive is tried and given up, because what follows the first symbol
of a rule is not a semicolon.

The text between symbols is not recovered: other texts are read as the same script.
-/

namespace PhraseStructure
namespace Script

/-! ### Runs of characters -/

section Runs

variable {p : Char → Bool} {run rest : Text} {stop : Char}

theorem takeWhile_run (hrun : ∀ c ∈ run, p c = true) (hstop : p stop = false) :
    (run ++ stop :: rest).takeWhile p = run := by
  rw [List.takeWhile_append_of_pos hrun, List.takeWhile_cons_of_neg (by simp [hstop]),
    List.append_nil]

theorem dropWhile_run (hrun : ∀ c ∈ run, p c = true) (hstop : p stop = false) :
    (run ++ stop :: rest).dropWhile p = stop :: rest := by
  rw [List.dropWhile_append_of_pos hrun, List.dropWhile_cons_of_neg (by simp [hstop])]

end Runs

theorem isQuotedChar_of_isBareChar {c : Char} (h : isBareChar c = true) :
    isQuotedChar c = true := by
  simp only [isBareChar, Bool.and_eq_true] at h
  exact h.1.1.1

theorem isQuotation_eq_false {c : Char} (h : isQuotedChar c = true) :
    Text.isQuotation c = false := by
  simp only [isQuotedChar, Bool.and_eq_true, Bool.not_eq_true'] at h
  exact h.2

theorem isQuotedChar_of_mark {c : Char} (h : Text.isQuotation c = true) :
    isQuotedChar c = false := by
  simp [isQuotedChar, h]

theorem isSpacing_eq_false {c : Char} (h : isQuotedChar c = true) : isSpacing c = false := by
  cases hspacing : isSpacing c with
  | false => rfl
  | true =>
      simp only [isSpacing, Bool.or_eq_true, beq_iff_eq] at hspacing
      rcases hspacing with ((rfl | rfl) | rfl) | rfl <;> exact absurd h (by decide)

/-! ### Skipping -/

theorem skip_cons_of_isSpacing {c : Char} (h : isSpacing c = true) (rest : Text) :
    skip (c :: rest) = skip rest := by
  rw [skip, if_pos h]

theorem skip_cons_of_not {c : Char} (hspacing : isSpacing c = false) (hcomment : c ≠ '#')
    (rest : Text) : skip (c :: rest) = c :: rest := by
  rw [skip, if_neg (by simp [hspacing]), if_neg hcomment]

/-- A gap holds nothing but spacing. -/
def IsGap (gap : Text) : Prop :=
  ∀ c ∈ gap, isSpacing c = true

theorem isGap_nil : IsGap [] := by
  simp [IsGap]

theorem isGap_space : IsGap [' '] :=
  List.forall_mem_singleton.mpr rfl

theorem isGap_newline : IsGap ['\n'] :=
  List.forall_mem_singleton.mpr rfl

theorem skip_gap {gap : Text} (h : IsGap gap) (rest : Text) : skip (gap ++ rest) = skip rest := by
  induction gap with
  | nil => rfl
  | cons c gap ih =>
      obtain ⟨hc, hgap⟩ := List.forall_mem_cons.mp h
      rw [List.cons_append, skip_cons_of_isSpacing hc, ih hgap]

theorem IsGap.skip_eq_nil {gap : Text} (h : IsGap gap) : skip gap = [] := by
  rw [← List.append_nil gap, skip_gap h, skip]

/-- What is looked for is found after a gap. -/
theorem expect_gap {gap word rest : Text} (hgap : IsGap gap)
    (hskip : skip (word ++ rest) = word ++ rest) : expect word (gap ++ (word ++ rest)) = some rest := by
  have hbegins : word.isPrefixOf (word ++ rest) = true :=
    List.isPrefixOf_iff_prefix.mpr (List.prefix_append ..)
  simp only [expect]
  rw [skip_gap hgap, hskip, if_pos hbegins, List.drop_left]

theorem expect_eq_none {gap word text : Text} (hgap : IsGap gap) (hskip : skip text = text)
    (hbegins : ¬ word <+: text) : expect word (gap ++ text) = none := by
  simp only [expect]
  rw [skip_gap hgap, hskip, if_neg]
  rwa [List.isPrefixOf_iff_prefix]

/-! ### One symbol -/

theorem isBareChar_of_isBare {run : Text} (h : isBare run = true) :
    ∀ c ∈ run, isBareChar c = true := by
  simp only [isBare, Bool.and_eq_true, List.all_eq_true] at h
  exact h.1

theorem isSymbolRun_of_isBare {run : Text} (h : isBare run = true) : isSymbolRun run = true := by
  simp only [isBare, Bool.and_eq_true] at h
  exact h.2

theorem ne_nil_of_isSymbolRun {run : Text} (h : isSymbolRun run = true) : run ≠ [] := by
  rintro rfl
  cases h

theorem skip_cons_of_isBareChar {c : Char} (h : isBareChar c = true) (rest : Text) :
    skip (c :: rest) = c :: rest := by
  apply skip_cons_of_not (isSpacing_eq_false (isQuotedChar_of_isBareChar h))
  rintro rfl
  cases h

/-- Spacing does not begin a symbol. -/
theorem skip_render {symbol : Symbol} (h : symbol.Readable) (rest : Text) :
    skip (symbol.render ++ rest) = symbol.render ++ rest := by
  cases symbol with
  | quoted text => exact skip_cons_of_not (by decide) (by decide) _
  | bare text =>
      obtain ⟨c, text, rfl⟩ :=
        List.exists_cons_of_ne_nil (ne_nil_of_isSymbolRun (isSymbolRun_of_isBare h))
      exact skip_cons_of_isBareChar (isBareChar_of_isBare h c List.mem_cons_self) _

theorem readQuoted_of_not_mark {c : Char} (h : Text.isQuotation c = false) (rest : Text) :
    readQuoted (c :: rest) = none := by
  simp [readQuoted, h]

/-- Characters between equal quotation marks, possibly none. -/
theorem readQuoted_append {mark : Char} (hmark : Text.isQuotation mark = true) {text : Text}
    (h : ∀ c ∈ text, isQuotedChar c = true) (rest : Text) :
    readQuoted (mark :: (text ++ mark :: rest)) = some (text, rest) := by
  have hstop : isQuotedChar mark = false := isQuotedChar_of_mark hmark
  rw [readQuoted, takeWhile_run h hstop, dropWhile_run h hstop, hmark]
  simp

/-- A symbol that is followed by a space is read back. -/
theorem readSymbol_render {symbol : Symbol} (h : symbol.Readable) (rest : Text) :
    readSymbol (symbol.render ++ ' ' :: rest) = some (some symbol, ' ' :: rest) := by
  cases symbol with
  | quoted text =>
      obtain ⟨hne, hchars⟩ := h
      have htext : (Symbol.quoted text).render ++ ' ' :: rest =
          '\x27' :: (text ++ '\x27' :: ' ' :: rest) := by simp [Symbol.render]
      rw [htext, readSymbol, readQuoted_append rfl hchars]
      simp [hne]
  | bare text =>
      have hchars := isBareChar_of_isBare h
      have hrun := isSymbolRun_of_isBare h
      -- A bare run ends at the space, and its first character is no quotation mark.
      have hspace : isBareChar ' ' = false := by decide
      have hbare : readBare (text ++ ' ' :: rest) = some (text, ' ' :: rest) := by
        rw [readBare, takeWhile_run hchars hspace, dropWhile_run hchars hspace, if_pos hrun]
      obtain ⟨c, more, rfl⟩ := List.exists_cons_of_ne_nil (ne_nil_of_isSymbolRun hrun)
      have hmark := isQuotation_eq_false
        (isQuotedChar_of_isBareChar (hchars c List.mem_cons_self))
      have hquoted : readQuoted ((c :: more) ++ ' ' :: rest) = none :=
        readQuoted_of_not_mark hmark _
      show readSymbol ((c :: more) ++ ' ' :: rest) = _
      rw [readSymbol, hquoted, hbare]

/-! ### Phrases -/

/-- The text begins neither with spacing nor with a symbol. -/
structure Stops (text : Text) : Prop where
  skip_eq : skip text = text
  readSymbol_eq : readSymbol text = none

theorem stops_arrow (rest : Text) : Stops (arrow ++ ' ' :: rest) := by
  refine ⟨skip_cons_of_not (by decide) (by decide) _, ?_⟩
  -- The arrow is a run of bare characters, but not one that is a symbol.
  have hchars : ∀ c ∈ arrow, isBareChar c = true := List.all_eq_true.mp rfl
  have hbare : readBare (arrow ++ ' ' :: rest) = none := by
    rw [readBare, takeWhile_run hchars rfl, if_neg (by decide)]
  rw [readSymbol, hbare]
  rfl

theorem stops_of_not_isBareChar {c : Char} (hspacing : isSpacing c = false) (hcomment : c ≠ '#')
    (hmark : Text.isQuotation c = false) (hbare : isBareChar c = false) (rest : Text) :
    Stops (c :: rest) := by
  refine ⟨skip_cons_of_not hspacing hcomment rest, ?_⟩
  have hrun : (c :: rest).takeWhile isBareChar = [] :=
    List.takeWhile_cons_of_neg (by simp [hbare])
  rw [readSymbol, readQuoted_of_not_mark hmark, readBare, hrun]
  rfl

theorem stops_bar (rest : Text) : Stops ('|' :: rest) :=
  stops_of_not_isBareChar (by decide) (by decide) (by decide) (by decide) rest

theorem stops_semicolon (rest : Text) : Stops (';' :: rest) :=
  stops_of_not_isBareChar (by decide) (by decide) (by decide) (by decide) rest

theorem stops_nil : Stops [] :=
  ⟨by rw [skip], rfl⟩

theorem readSymbols_of_none {text : Text} (h : readSymbol (skip text) = none) :
    readSymbols text = ([], text) := by
  rw [readSymbols]
  split
  · rfl
  · rename_i heq
    rw [h] at heq
    cases heq

theorem readSymbols_of_some {text rest : Text} {symbol : Option Symbol}
    (h : readSymbol (skip text) = some (symbol, rest)) :
    readSymbols text = (symbol.toList ++ (readSymbols rest).1, (readSymbols rest).2) := by
  rw [readSymbols]
  split
  · rename_i heq
    rw [h] at heq
    cases heq
  · rename_i heq
    rw [h] at heq
    cases heq
    rfl

theorem Stops.readSymbols {gap text : Text} (hgap : IsGap gap) (h : Stops text) :
    readSymbols (gap ++ text) = ([], gap ++ text) := by
  apply readSymbols_of_none
  rw [skip_gap hgap, h.skip_eq, h.readSymbol_eq]

/-- A written phrase is read back up to what stops it. -/
theorem readSymbols_joined {symbols : List Symbol} (hne : symbols ≠ [])
    (hreadable : ∀ symbol ∈ symbols, symbol.Readable) {gap stop : Text} (hgap : IsGap gap)
    (hstop : Stops stop) :
    readSymbols (gap ++ (Text.joined [' '] (symbols.map Symbol.render) ++ ' ' :: stop)) =
      (symbols, ' ' :: stop) := by
  induction symbols generalizing gap with
  | nil => exact absurd rfl hne
  | cons symbol symbols ih =>
      obtain ⟨hsymbol, hreadable⟩ := List.forall_mem_cons.mp hreadable
      -- What stops the phrase is read only behind its last symbol.
      cases symbols with
      | nil =>
          have hread : readSymbol (skip (gap ++ (symbol.render ++ ' ' :: stop))) =
              some (some symbol, ' ' :: stop) := by
            rw [skip_gap hgap, skip_render hsymbol, readSymbol_render hsymbol]
          have hrest : readSymbols (' ' :: stop) = ([], ' ' :: stop) :=
            hstop.readSymbols isGap_space
          show readSymbols (gap ++ (symbol.render ++ ' ' :: stop)) = _
          rw [readSymbols_of_some hread, hrest]
          rfl
      | cons next symbols =>
          have htext : Text.joined [' '] ((symbol :: next :: symbols).map Symbol.render) ++
              ' ' :: stop = symbol.render ++ ' ' ::
                (Text.joined [' '] ((next :: symbols).map Symbol.render) ++ ' ' :: stop) := by
            simp [Text.joined]
          have hread : readSymbol (skip (gap ++ (symbol.render ++ ' ' ::
              (Text.joined [' '] ((next :: symbols).map Symbol.render) ++ ' ' :: stop)))) =
                some (some symbol, ' ' ::
                  (Text.joined [' '] ((next :: symbols).map Symbol.render) ++ ' ' :: stop)) := by
            rw [skip_gap hgap, skip_render hsymbol, readSymbol_render hsymbol]
          have hrest := ih (List.cons_ne_nil _ _) hreadable isGap_space
          rw [List.singleton_append] at hrest
          rw [htext, readSymbols_of_some hread, hrest]
          rfl

theorem readSymbols_render {symbols : List Symbol}
    (hreadable : ∀ symbol ∈ symbols, symbol.Readable) {gap stop : Text} (hgap : IsGap gap)
    (hstop : Stops stop) :
    readSymbols (gap ++ (renderSymbols symbols ++ ' ' :: stop)) = (symbols, ' ' :: stop) := by
  cases symbols with
  | nil =>
      -- Empty quotation marks are read as a place without a symbol.
      have hread : readSymbol (skip (gap ++ (renderSymbols [] ++ ' ' :: stop))) =
          some (none, ' ' :: stop) := by
        have hskip : skip (renderSymbols [] ++ ' ' :: stop) =
            '\x27' :: '\x27' :: ' ' :: stop := skip_cons_of_not (by decide) (by decide) _
        have hempty : readQuoted ('\x27' :: '\x27' :: ' ' :: stop) = some ([], ' ' :: stop) :=
          readQuoted_append rfl (List.forall_mem_nil _) (' ' :: stop)
        rw [skip_gap hgap, hskip, readSymbol, hempty]
        rfl
      have hrest : readSymbols (' ' :: stop) = ([], ' ' :: stop) :=
        hstop.readSymbols isGap_space
      rw [readSymbols_of_some hread, hrest]
      rfl
  | cons symbol symbols =>
      exact readSymbols_joined (List.cons_ne_nil _ _) hreadable hgap hstop

/-! ### Alternatives and rules -/

theorem expect_arrow (rest : Text) :
    expect arrow (' ' :: (arrow ++ ' ' :: rest)) = some (' ' :: rest) :=
  expect_gap isGap_space (stops_arrow rest).skip_eq

theorem expect_bar (rest : Text) : expect bar (' ' :: '|' :: rest) = some rest :=
  expect_gap isGap_space (stops_bar rest).skip_eq

theorem expect_semicolon (rest : Text) : expect semicolon (' ' :: ';' :: rest) = some rest :=
  expect_gap isGap_space (stops_semicolon rest).skip_eq

theorem readAlternatives_of_none {text : Text} (h : expect bar (readSymbols text).2 = none) :
    readAlternatives text = ([(readSymbols text).1], (readSymbols text).2) := by
  rw [readAlternatives]
  split
  · rfl
  · rename_i heq
    rw [h] at heq
    cases heq

theorem readAlternatives_of_some {text rest : Text}
    (h : expect bar (readSymbols text).2 = some rest) :
    readAlternatives text =
      ((readSymbols text).1 :: (readAlternatives rest).1, (readAlternatives rest).2) := by
  rw [readAlternatives]
  split
  · rename_i heq
    rw [h] at heq
    cases heq
  · rename_i heq
    rw [h] at heq
    cases heq
    rfl

/-- Written alternatives are read back up to the semicolon. -/
theorem readAlternatives_joined {alternatives : List (List Symbol)} (hne : alternatives ≠ [])
    (hreadable : ∀ symbols ∈ alternatives, ∀ symbol ∈ symbols, symbol.Readable) {gap : Text}
    (hgap : IsGap gap) (rest : Text) :
    readAlternatives (gap ++ (Text.joined [' ', '|', ' '] (alternatives.map renderSymbols) ++
        ' ' :: ';' :: rest)) = (alternatives, ' ' :: ';' :: rest) := by
  induction alternatives generalizing gap with
  | nil => exact absurd rfl hne
  | cons symbols alternatives ih =>
      obtain ⟨hsymbols, hreadable⟩ := List.forall_mem_cons.mp hreadable
      cases alternatives with
      | nil =>
          have hread := readSymbols_render hsymbols hgap (stops_semicolon rest)
          have hend : expect bar (' ' :: ';' :: rest) = none :=
            expect_eq_none isGap_space (stops_semicolon rest).skip_eq (by simp [bar])
          show readAlternatives (gap ++ (renderSymbols symbols ++ ' ' :: ';' :: rest)) = _
          rw [readAlternatives_of_none (by rw [hread, hend]), hread]
      | cons next alternatives =>
          have htext : Text.joined [' ', '|', ' '] ((symbols :: next :: alternatives).map
              renderSymbols) ++ ' ' :: ';' :: rest = renderSymbols symbols ++ ' ' :: '|' ::
                ([' '] ++ (Text.joined [' ', '|', ' '] ((next :: alternatives).map renderSymbols) ++
                  ' ' :: ';' :: rest)) := by
            simp [Text.joined]
          have hmore := ih (List.cons_ne_nil _ _) hreadable isGap_space
          rw [htext]
          generalize [' '] ++ (Text.joined [' ', '|', ' '] ((next :: alternatives).map
            renderSymbols) ++ ' ' :: ';' :: rest) = more at hmore
          have hread := readSymbols_render hsymbols hgap (stops_bar more)
          rw [readAlternatives_of_some (by rw [hread, expect_bar]), hread, hmore]

/-- A written rule is read back; the end of its line is left over. -/
theorem readRule_render {rule : WrittenRule} (h : rule.Readable) {gap : Text} (hgap : IsGap gap)
    (rest : Text) : readRule (gap ++ (renderRule rule ++ rest)) = some (rule, '\n' :: rest) := by
  have htext : renderRule rule ++ rest = renderSymbols rule.lhs ++ ' ' :: (arrow ++ ' ' ::
      (Text.joined [' ', '|', ' '] (rule.alternatives.map renderSymbols) ++
        ' ' :: ';' :: '\n' :: rest)) := by
    simp [renderRule, arrow]
  have halternatives := readAlternatives_joined h.alternatives_ne_nil h.alternatives isGap_space
    ('\n' :: rest)
  rw [htext]
  generalize Text.joined [' ', '|', ' '] (rule.alternatives.map renderSymbols) ++
    ' ' :: ';' :: '\n' :: rest = body at halternatives
  have hlhs := readSymbols_render h.lhs hgap (stops_arrow body)
  rw [List.singleton_append] at halternatives
  simp only [readRule]
  rw [hlhs]
  simp only [expect_arrow, halternatives, expect_semicolon]

theorem readRule_gap {gap : Text} (hgap : IsGap gap) : readRule gap = none := by
  have hsymbols := stops_nil.readSymbols hgap
  have harrow : expect arrow (gap ++ []) = none :=
    expect_eq_none hgap stops_nil.skip_eq (by simp [arrow])
  rw [List.append_nil] at hsymbols harrow
  simp only [readRule]
  rw [hsymbols]
  simp only [harrow]

theorem readRules_of_none {text : Text} (h : readRule text = none) :
    readRules text = ([], text) := by
  rw [readRules]
  split
  · rfl
  · rename_i heq
    rw [h] at heq
    cases heq

theorem readRules_of_some {text rest : Text} {rule : WrittenRule}
    (h : readRule text = some (rule, rest)) :
    readRules text = (rule :: (readRules rest).1, (readRules rest).2) := by
  rw [readRules]
  split
  · rename_i heq
    rw [h] at heq
    cases heq
  · rename_i heq
    rw [h] at heq
    cases heq
    rfl

/-- Written rules are read back, and nothing but spacing is left over. -/
theorem readRules_render {rules : List WrittenRule} (h : ∀ rule ∈ rules, rule.Readable)
    {gap : Text} (hgap : IsGap gap) :
    ∃ rest, readRules (gap ++ rules.flatMap renderRule) = (rules, rest) ∧ IsGap rest := by
  induction rules generalizing gap with
  | nil =>
      refine ⟨gap, ?_, hgap⟩
      rw [List.flatMap_nil, List.append_nil, readRules_of_none (readRule_gap hgap)]
  | cons rule rules ih =>
      obtain ⟨hrule, hrules⟩ := List.forall_mem_cons.mp h
      obtain ⟨rest, hmore, hrest⟩ := ih hrules isGap_newline
      rw [List.singleton_append] at hmore
      refine ⟨rest, ?_, hrest⟩
      rw [List.flatMap_cons, readRules_of_some (readRule_render hrule hgap _), hmore]

/-! ### The directive -/

theorem readDirective_render {symbol : Symbol} (h : symbol.Readable) (rest : Text) :
    readDirective (renderDirective symbol ++ rest) = some (symbol, '\n' :: rest) := by
  have htext : renderDirective symbol ++ rest =
      keyword ++ ' ' :: (symbol.render ++ ' ' :: ';' :: '\n' :: rest) := by
    simp [renderDirective]
  have hkeyword : expect keyword ([] ++ (keyword ++ ' ' ::
      (symbol.render ++ ' ' :: ';' :: '\n' :: rest))) =
        some (' ' :: (symbol.render ++ ' ' :: ';' :: '\n' :: rest)) :=
    expect_gap isGap_nil (skip_cons_of_not (by decide) (by decide) _)
  have hskip : skip (' ' :: (symbol.render ++ ' ' :: ';' :: '\n' :: rest)) =
      symbol.render ++ ' ' :: ';' :: '\n' :: rest := by
    rw [skip_cons_of_isSpacing rfl, skip_render h]
  have hsymbol := readSymbol_render h (';' :: '\n' :: rest)
  rw [List.nil_append] at hkeyword
  rw [htext, readDirective, hkeyword]
  simp only [hskip, hsymbol, expect_semicolon, Option.map_some]

/-- Only a bare symbol begins with the keyword, and it goes on with a bare character. -/
theorem exists_of_keyword_prefix {symbol : Symbol} (h : symbol.Readable) {rest : Text}
    (hbegins : keyword <+: symbol.render ++ ' ' :: rest) :
    ∃ c more, symbol = .bare (keyword ++ c :: more) ∧
      ∀ d ∈ c :: more, isBareChar d = true := by
  cases symbol with
  | quoted text => simp [Symbol.render, keyword] at hbegins
  | bare text =>
      have hchars := isBareChar_of_isBare h
      have hne : text ≠ keyword := by
        rintro rfl
        have hkeyword : isBare keyword = true := h
        exact absurd hkeyword (by decide)
      change keyword <+: text ++ ' ' :: rest at hbegins
      rcases List.prefix_or_prefix_of_prefix hbegins (List.prefix_append text (' ' :: rest)) with
        ⟨more, rfl⟩ | ⟨more, hmore⟩
      · cases more with
        | nil => exact absurd (List.append_nil keyword) hne
        | cons c more =>
            exact ⟨c, more, rfl, fun d hd => hchars d (List.mem_append_right _ hd)⟩
      · -- A symbol shorter than the keyword would have to be followed by one of its letters.
        cases more with
        | nil => exact absurd ((List.append_nil text).symm.trans hmore) hne
        | cons d more =>
            rw [← hmore, List.prefix_append_right_inj, List.cons_prefix_cons] at hbegins
            have hmem : d ∈ keyword := by
              rw [← hmore]
              exact List.mem_append_right _ List.mem_cons_self
            rw [hbegins.1] at hmem
            exact absurd hmem (by decide)

/-- What begins with a symbol and goes on with anything but a semicolon is no directive. -/
theorem readDirective_eq_none {symbol : Symbol} (h : symbol.Readable) {next : Text}
    (hnext : expect semicolon (' ' :: next) = none) :
    readDirective (symbol.render ++ ' ' :: next) = none := by
  by_cases hbegins : keyword <+: symbol.render ++ ' ' :: next
  · obtain ⟨c, more, rfl, hchars⟩ := exists_of_keyword_prefix h hbegins
    have htext : (Symbol.bare (keyword ++ c :: more)).render ++ ' ' :: next =
        keyword ++ ((c :: more) ++ ' ' :: next) := List.append_assoc ..
    have hkeyword : expect keyword ([] ++ (keyword ++ ((c :: more) ++ ' ' :: next))) =
        some ((c :: more) ++ ' ' :: next) :=
      expect_gap isGap_nil (skip_cons_of_not (by decide) (by decide) _)
    have hskip : skip ((c :: more) ++ ' ' :: next) = (c :: more) ++ ' ' :: next :=
      skip_cons_of_isBareChar (hchars c List.mem_cons_self) _
    rw [List.nil_append] at hkeyword
    rw [htext, readDirective, hkeyword]
    -- The rest of the symbol may be a symbol itself; then no semicolon follows it.
    by_cases hrun : isSymbolRun (c :: more) = true
    · have hbare : (Symbol.bare (c :: more)).Readable := by
        show isBare (c :: more) = true
        rw [isBare, hrun, Bool.and_true, List.all_eq_true]
        exact hchars
      have hsymbol := readSymbol_render hbare next
      change readSymbol ((c :: more) ++ ' ' :: next) = _ at hsymbol
      simp only [hskip, hsymbol, hnext, Option.map_none]
    · have hquoted : readQuoted ((c :: more) ++ ' ' :: next) = none :=
        readQuoted_of_not_mark (isQuotation_eq_false
          (isQuotedChar_of_isBareChar (hchars c List.mem_cons_self))) _
      have hsymbol : readSymbol ((c :: more) ++ ' ' :: next) = none := by
        rw [readSymbol, hquoted, readBare, takeWhile_run hchars (by decide), if_neg hrun]
      simp only [hskip, hsymbol]
  · have hkeyword : expect keyword ([] ++ (symbol.render ++ ' ' :: next)) = none :=
      expect_eq_none isGap_nil (skip_render h _) hbegins
    rw [List.nil_append] at hkeyword
    rw [readDirective, hkeyword]

theorem not_begins_with_semicolon {symbol : Symbol} (h : symbol.Readable) (rest : Text) :
    ¬ semicolon <+: symbol.render ++ rest := by
  cases symbol with
  | quoted text => simp [Symbol.render, semicolon]
  | bare text =>
      obtain ⟨c, text, rfl⟩ :=
        List.exists_cons_of_ne_nil (ne_nil_of_isSymbolRun (isSymbolRun_of_isBare h))
      have hc := isBareChar_of_isBare h c List.mem_cons_self
      intro hbegins
      change ';' :: [] <+: c :: (text ++ rest) at hbegins
      rw [List.cons_prefix_cons] at hbegins
      rw [← hbegins.1] at hc
      exact absurd hc (by decide)

/-- A written rule is not taken for a directive. -/
theorem readDirective_renderRule {rule : WrittenRule} (h : rule.Readable) (rest : Text) :
    readDirective (renderRule rule ++ rest) = none := by
  obtain ⟨lhs, alternatives⟩ := rule
  have hlhs := h.lhs
  cases lhs with
  | nil =>
      have hkeyword : expect keyword ([] ++ (renderRule ⟨[], alternatives⟩ ++ rest)) = none := by
        apply expect_eq_none isGap_nil
        · exact skip_cons_of_not (by decide) (by decide) _
        · simp [renderRule, renderSymbols, keyword]
      rw [List.nil_append] at hkeyword
      rw [readDirective, hkeyword]
  | cons symbol symbols =>
      obtain ⟨hsymbol, hsymbols⟩ := List.forall_mem_cons.mp hlhs
      -- Behind the first symbol stands the arrow or another symbol.
      cases symbols with
      | nil =>
          have htext : renderRule ⟨[symbol], alternatives⟩ ++ rest = symbol.render ++ ' ' ::
              (arrow ++ ' ' :: (Text.joined [' ', '|', ' '] (alternatives.map renderSymbols) ++
                ([' ', ';', '\n'] ++ rest))) := by
            simp [renderRule, renderSymbols, Text.joined, arrow]
          rw [htext]
          apply readDirective_eq_none hsymbol
          exact expect_eq_none isGap_space (stops_arrow _).skip_eq (by simp [semicolon])
      | cons next symbols =>
          obtain ⟨more, hmore⟩ :=
            Text.exists_joined_cons [' '] next.render (symbols.map Symbol.render)
          have htext : renderRule ⟨symbol :: next :: symbols, alternatives⟩ ++ rest =
              symbol.render ++ ' ' :: (next.render ++ (more ++ ([' ', '-', '>', ' '] ++
                (Text.joined [' ', '|', ' '] (alternatives.map renderSymbols) ++
                  ([' ', ';', '\n'] ++ rest))))) := by
            simp [renderRule, renderSymbols, Text.joined, hmore]
          rw [htext]
          apply readDirective_eq_none hsymbol
          have hnext := hsymbols next List.mem_cons_self
          exact expect_eq_none isGap_space (skip_render hnext _)
            (not_begins_with_semicolon hnext _)

theorem readDirective_rules {rules : List WrittenRule} (h : ∀ rule ∈ rules, rule.Readable) :
    readDirective (rules.flatMap renderRule) = none := by
  cases rules with
  | nil =>
      have hkeyword : expect keyword ([] ++ []) = none :=
        expect_eq_none isGap_nil stops_nil.skip_eq (by simp [keyword])
      rw [List.append_nil] at hkeyword
      rw [List.flatMap_nil, readDirective, hkeyword]
  | cons rule rules =>
      rw [List.flatMap_cons]
      exact readDirective_renderRule (h rule List.mem_cons_self) _

/-! ### Whole scripts -/

/-- The written form of a readable script is read back. -/
theorem read_render {script : Script} (h : script.Readable) :
    Script.read script.render = .ok script := by
  obtain ⟨directive, rules⟩ := script
  cases directive with
  | none =>
      obtain ⟨rest, hrules, hrest⟩ := readRules_render h.rules isGap_nil
      rw [List.nil_append] at hrules
      have hdirective := readDirective_rules h.rules
      simp only [Script.read, readOpening, render, hdirective, hrules, hrest.skip_eq_nil]
  | some symbol =>
      obtain ⟨rest, hrules, hrest⟩ := readRules_render h.rules isGap_newline
      rw [List.singleton_append] at hrules
      have hdirective := readDirective_render (h.directive symbol rfl) (rules.flatMap renderRule)
      simp only [Script.read, readOpening, render, hdirective, hrules, hrest.skip_eq_nil]

/-! ### What is read is readable -/

theorem of_mem_takeWhile {p : Char → Bool} {text : Text} {c : Char}
    (h : c ∈ text.takeWhile p) : p c = true := by
  have hall := List.all_takeWhile (p := p) (l := text)
  rw [List.all_eq_true] at hall
  exact hall c h

theorem isQuotedChar_of_readQuoted {text body rest : Text}
    (h : readQuoted text = some (body, rest)) : ∀ c ∈ body, isQuotedChar c = true := by
  cases text with
  | nil => cases h
  | cons mark text =>
      rw [readQuoted] at h
      split at h
      · cases h
        exact fun c => of_mem_takeWhile
      · cases h

theorem isBare_of_readBare {text run rest : Text} (h : readBare text = some (run, rest)) :
    isBare run = true := by
  rw [readBare] at h
  split at h
  · rename_i hrun
    cases h
    rw [isBare, hrun, Bool.and_true, List.all_eq_true]
    exact fun c => of_mem_takeWhile
  · cases h

theorem readable_of_readSymbol {text rest : Text} {symbol : Symbol}
    (h : readSymbol text = some (some symbol, rest)) : symbol.Readable := by
  rw [readSymbol] at h
  split at h
  · rename_i body rest' hquoted
    have hchars := isQuotedChar_of_readQuoted hquoted
    cases body with
    | nil => cases h
    | cons c body =>
        cases h
        exact ⟨List.cons_ne_nil c body, hchars⟩
  · split at h
    · rename_i run rest' hbare
      cases h
      exact isBare_of_readBare hbare
    · cases h

theorem readable_of_mem_readSymbols (text : Text) :
    ∀ symbol ∈ (readSymbols text).1, symbol.Readable := by
  fun_induction readSymbols text with
  | case1 => simp
  | case2 text symbol rest h more ih =>
      intro other hother
      rcases List.mem_append.mp hother with hother | hother
      · obtain rfl := Option.mem_toList.mp hother
        exact readable_of_readSymbol h
      · exact ih other hother

theorem readable_of_mem_readAlternatives (text : Text) :
    (readAlternatives text).1 ≠ [] ∧
      ∀ symbols ∈ (readAlternatives text).1, ∀ symbol ∈ symbols, symbol.Readable := by
  fun_induction readAlternatives text with
  | case1 text first h =>
      refine ⟨List.cons_ne_nil _ _, ?_⟩
      intro symbols hsymbols
      obtain rfl := List.mem_singleton.mp hsymbols
      exact readable_of_mem_readSymbols text
  | case2 text first rest h more ih =>
      refine ⟨List.cons_ne_nil _ _, ?_⟩
      exact List.forall_mem_cons.mpr ⟨readable_of_mem_readSymbols text, ih.2⟩

theorem readable_of_readRule {text rest : Text} {rule : WrittenRule}
    (h : readRule text = some (rule, rest)) : rule.Readable := by
  simp only [readRule] at h
  split at h
  · cases h
  · rename_i body harrow
    split at h
    · cases h
    · cases h
      obtain ⟨hne, halternatives⟩ := readable_of_mem_readAlternatives body
      exact ⟨readable_of_mem_readSymbols text, hne, halternatives⟩

theorem readable_of_mem_readRules (text : Text) :
    ∀ rule ∈ (readRules text).1, rule.Readable := by
  fun_induction readRules text with
  | case1 => simp
  | case2 text rule rest h more ih =>
      exact List.forall_mem_cons.mpr ⟨readable_of_readRule h, ih⟩

theorem readable_of_readDirective {text rest : Text} {symbol : Symbol}
    (h : readDirective text = some (symbol, rest)) : symbol.Readable := by
  rw [readDirective] at h
  split at h
  · cases h
  · split at h
    · rename_i hsymbol
      obtain ⟨_, _, heq⟩ := Option.map_eq_some_iff.mp h
      cases heq
      exact readable_of_readSymbol hsymbol
    · cases h

theorem readable_readOpening (text : Text) : (readOpening text).1.Readable := by
  unfold readOpening
  split
  · rename_i symbol rest hdirective
    refine ⟨?_, readable_of_mem_readRules rest⟩
    intro other hother
    obtain rfl := Option.some.inj hother
    exact readable_of_readDirective hdirective
  · refine ⟨?_, readable_of_mem_readRules text⟩
    intro other hother
    cases hother

/-- Every script that is read is readable. -/
theorem readable_of_read {text : Text} {script : Script} (h : Script.read text = .ok script) :
    script.Readable := by
  have hreadable := readable_readOpening text
  rw [Script.read] at h
  split at h
  · rename_i opening hopening
    cases h
    rwa [hopening] at hreadable
  · cases h

end Script
end PhraseStructure
