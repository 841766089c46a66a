import PhraseStructure.Proofs.Phrase.Runs

/-!
# Reading a text as a phrase

A text is read as one token per maximal blank-free run, so that a phrase is read from a text
exactly if its tokens are the runs of the text.  Of the flaws that a token must not have, a run
can only have a quotation mark; a text without quotation marks is therefore read, and no other.

Reading undoes writing, with one exception that is NOT among the statements below: the empty
phrase is rendered as the letter epsilon, which is read as a token.
-/

namespace PhraseStructure

/-- Texts are read as the tokens that have these texts. -/
theorem Token.mapM_read_eq_ok_iff {texts : List Text} {tokens : List Token} :
    texts.mapM Token.read = .ok tokens ↔ tokens.map Token.text = texts := by
  constructor
  · intro h
    induction texts generalizing tokens with
    | nil =>
        cases h
        rfl
    | cons text texts ih =>
        rw [List.mapM_cons] at h
        cases htoken : Token.read text with
        | error error =>
            rw [htoken] at h
            cases h
        | ok token =>
            cases htokens : texts.mapM Token.read with
            | error error =>
                rw [htoken, htokens] at h
                cases h
            | ok others =>
                rw [htoken, htokens] at h
                cases h
                rw [List.map_cons, Token.read_eq_ok_iff.mp htoken, ih htokens]
  · rintro rfl
    exact mapM_map_eq_ok fun token _ => token.read_text

namespace Phrase

variable {text left right : Text} {phrase : Phrase}

theorem read_eq_ok_iff : Phrase.read text = .ok phrase ↔ phrase.map Token.text = text.words :=
  Token.mapM_read_eq_ok_iff

/-- A phrase is read from a text whose runs are its tokens. -/
theorem read_eq_ok_iff_hasRuns :
    Phrase.read text = .ok phrase ↔ text.HasRuns (phrase.map Token.text) := by
  rw [read_eq_ok_iff, Text.hasRuns_iff, eq_comm]

/-- Quotation marks are all that keeps a text from being read. -/
theorem exists_read_iff :
    (∃ phrase, Phrase.read text = .ok phrase) ↔ ∀ c ∈ text, Text.isQuotation c = false := by
  have hwords : (∃ phrase, Phrase.read text = .ok phrase) ↔
      ∀ word ∈ text.words, Text.flaw? word = none := by
    simp only [read_eq_ok_iff]
    exact Token.exists_map_text_iff
  rw [hwords]
  constructor
  · intro h c hc
    cases hquotation : Text.isQuotation c with
    | false => rfl
    | true =>
        -- A quotation mark is not a blank, so it stands in a word.
        have hblank := Text.isBlank_eq_false_of_isQuotation hquotation
        obtain ⟨word, hword, hcword⟩ := Text.exists_mem_words_iff.mpr ⟨hc, hblank⟩
        have hchars := (Text.flaw?_eq_none_iff.mp (h word hword)).2
        rw [(hchars c hcword).2] at hquotation
        cases hquotation
  · intro h word hword
    obtain ⟨hne, hblank⟩ := Text.of_mem_words hword
    refine Text.flaw?_eq_none_iff.mpr ⟨hne, fun c hc => ⟨hblank c hc, h c ?_⟩⟩
    exact (Text.exists_mem_words_iff.mp ⟨word, hword, hc⟩).1

/-- Texts with blanks between them are read one after the other. -/
theorem read_append_gap {phrase' : Phrase} {gap : Text} (hne : gap ≠ [])
    (hgap : ∀ c ∈ gap, Text.isBlank c = true) (hleft : Phrase.read left = .ok phrase)
    (hright : Phrase.read right = .ok phrase') :
    Phrase.read (left ++ (gap ++ right)) = .ok (phrase ++ phrase') := by
  rw [read_eq_ok_iff] at *
  rw [List.map_append, hleft, hright, Text.words_append_gap hne hgap]

/-- A phrase is read back from its tokens with one space between neighbours and, unless it is
empty, from how it is rendered.  Every text without quotation marks is read, and no other.  What
is read are the maximal blank-free runs in their order, and with blanks between two texts the
phrase of one is followed by that of the other. -/
theorem reading_inverts_writing :
    (∀ phrase : Phrase, Phrase.read phrase.spelled = .ok phrase) ∧
      (∀ phrase : Phrase, phrase ≠ [] → Phrase.read phrase.render = .ok phrase) ∧
      (∀ text : Text, (∃ phrase, Phrase.read text = .ok phrase) ↔
        ∀ c ∈ text, Text.isQuotation c = false) ∧
      (∀ (text : Text) (phrase : Phrase), Phrase.read text = .ok phrase ↔
        text.HasRuns (phrase.map Token.text)) ∧
      ∀ (left gap right : Text) (phrase phrase' : Phrase), gap ≠ [] →
        (∀ c ∈ gap, Text.isBlank c = true) → Phrase.read left = .ok phrase →
          Phrase.read right = .ok phrase' →
            Phrase.read (left ++ gap ++ right) = .ok (phrase ++ phrase') := by
  refine ⟨read_spelled, ?_, fun _ => exists_read_iff, fun _ _ => read_eq_ok_iff_hasRuns, ?_⟩
  · intro phrase hne
    rw [render_eq_spelled hne]
    exact phrase.read_spelled
  · intro left gap right phrase phrase' hne hgap hleft hright
    rw [List.append_assoc]
    exact read_append_gap hne hgap hleft hright

/-- Two tokens between, before and behind blanks of several kinds. -/
theorem reading_inverts_writing_spread :
    ∃ s a : Token, s.text = ['S'] ∧ a.text = ['a'] ∧
      Phrase.read (Phrase.render [s, a]) = .ok [s, a] ∧
      Phrase.read ([' ', 'S'] ++ ['\n', '\u00a0'] ++ ['a', '\t']) = .ok ([s] ++ [a]) ∧
      Text.HasRuns [' ', 'S', '\n', '\u00a0', 'a', '\t'] [['S'], ['a']] := by
  let s : Token := ⟨['S'], rfl⟩
  let a : Token := ⟨['a'], rfl⟩
  obtain ⟨_, hrender, _, hruns, hgap⟩ := reading_inverts_writing
  have hread := hgap [' ', 'S'] ['\n', '\u00a0'] ['a', '\t'] [s] [a] (by decide)
    (List.all_eq_true.mp rfl) rfl rfl
  exact ⟨s, a, rfl, rfl, hrender [s, a] (by decide), hread, (hruns _ [s, a]).mp hread⟩

end Phrase
end PhraseStructure
