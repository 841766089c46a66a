import PhraseStructure.Error

/-!
# Reading what was spelled

The words of a text fall apart at every blank: the words on its two sides are all the
words there are.  A token is a word of its own, so the words of a spelled phrase are its
tokens, and reading them gives the phrase back.  The empty phrase is spelled as the empty
text, which has no words.

`Phrase.render` does not have this property.  It writes the empty phrase as the letter
epsilon, and that is a token.
-/

namespace PhraseStructure

namespace Text

theorem isBlank_eq_false_of_isQuotation {c : Char} (h : isQuotation c = true) :
    isBlank c = false := by
  simp only [isQuotation, Bool.or_eq_true, beq_iff_eq] at h
  rcases h with rfl | rfl <;> rfl

theorem words_ne_nil_of_startsWord {text : Text} (h : startsWord text = true) :
    words text ≠ [] := by
  cases text with
  | nil => cases h
  | cons c rest =>
      have hblank : isBlank c = false := by simpa [startsWord] using h
      have hnot : ¬ isBlank c = true := by simp [hblank]
      rw [words, if_neg hnot]
      split
      · split <;> exact List.cons_ne_nil _ _
      · exact List.cons_ne_nil _ _

/-- Words do not reach across a blank. -/
theorem words_append_blank {c : Char} (h : isBlank c = true) (left right : Text) :
    words (left ++ c :: right) = words left ++ words right := by
  induction left with
  | nil => exact words_blank_cons h right
  | cons d left ih =>
      cases hblank : isBlank d with
      | true => rw [List.cons_append, words_blank_cons hblank, words_blank_cons hblank, ih]
      | false =>
          have hstarts : startsWord (left ++ c :: right) = startsWord left := by
            cases left with
            | nil => simp [startsWord, h]
            | cons => rfl
          rw [List.cons_append, words, words, hblank, hstarts, ih]
          cases hleft : startsWord left with
          | false => rfl
          | true =>
              -- The character joins the first word of what follows, which lies before the blank.
              obtain ⟨word, more, hwords⟩ :=
                List.exists_cons_of_ne_nil (words_ne_nil_of_startsWord hleft)
              rw [hwords]
              rfl

/-- A text without blanks is one word. -/
theorem words_eq_singleton {word : Text} (hne : word ≠ [])
    (h : ∀ c ∈ word, isBlank c = false) : words word = [word] := by
  induction word with
  | nil => exact absurd rfl hne
  | cons c word ih =>
      obtain ⟨hfirst, hrest⟩ := List.forall_mem_cons.mp h
      rw [words, hfirst]
      cases word with
      | nil => rfl
      | cons d word =>
          have hstarts : startsWord (d :: word) = true := by
            simp [startsWord, hrest d List.mem_cons_self]
          rw [hstarts, ih (List.cons_ne_nil _ _) hrest]
          rfl

end Text

theorem Token.words_text (token : Token) : token.text.words = [token.text] := by
  obtain ⟨hne, hchars⟩ := Text.flaw?_eq_none_iff.mp token.flawless
  exact Text.words_eq_singleton hne fun c hc => (hchars c hc).1

theorem Token.read_text (token : Token) : Token.read token.text = .ok token :=
  Token.read_eq_ok_iff.mpr rfl

/-- Texts without flaws are the texts of tokens. -/
theorem Token.exists_map_text_iff {texts : List Text} :
    (∃ tokens : List Token, tokens.map Token.text = texts) ↔
      ∀ text ∈ texts, text.flaw? = none := by
  constructor
  · rintro ⟨tokens, rfl⟩
    exact List.forall_mem_map.mpr fun token _ => token.flawless
  · intro h
    induction texts with
    | nil => exact ⟨[], rfl⟩
    | cons text texts ih =>
        obtain ⟨htext, htexts⟩ := List.forall_mem_cons.mp h
        obtain ⟨tokens, rfl⟩ := ih htexts
        exact ⟨⟨text, htext⟩ :: tokens, rfl⟩

/-- Items that are read from what they are written as are read as a list. -/
theorem mapM_map_eq_ok {α β ε : Type} {write : α → β} {read : β → Except ε α} {items : List α}
    (h : ∀ item ∈ items, read (write item) = .ok item) :
    (items.map write).mapM read = .ok items := by
  induction items with
  | nil => rfl
  | cons item items ih =>
      obtain ⟨hitem, hitems⟩ := List.forall_mem_cons.mp h
      rw [List.map_cons, List.mapM_cons, hitem, ih hitems]
      rfl

namespace Phrase

/-- The words of a spelled phrase are the texts of its tokens. -/
theorem words_spelled (phrase : Phrase) : phrase.spelled.words = phrase.map Token.text := by
  unfold spelled
  induction phrase with
  | nil => rfl
  | cons token phrase ih =>
      cases phrase with
      | nil => exact token.words_text
      | cons next phrase =>
          have hjoined : Text.joined [' '] ((token :: next :: phrase).map Token.text) =
              token.text ++ ' ' :: Text.joined [' '] ((next :: phrase).map Token.text) := by
            simp [Text.joined]
          rw [hjoined, Text.words_append_blank (by decide), token.words_text, ih]
          rfl

/-- A spelled phrase is read as the phrase. -/
theorem read_spelled (phrase : Phrase) : Phrase.read phrase.spelled = .ok phrase := by
  rw [Phrase.read, words_spelled]
  exact mapM_map_eq_ok fun token _ => token.read_text

end Phrase
end PhraseStructure
