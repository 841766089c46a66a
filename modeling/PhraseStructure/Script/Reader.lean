import PhraseStructure.Error
import PhraseStructure.Script.Basic

/-!
# Reading grammar text

A grammar text is an optional directive followed by rules:

* a directive is the keyword, a symbol and a semicolon;
* a rule is symbols, an arrow, alternatives separated by bars, and a semicolon;
* an alternative is any number of symbols, possibly none;
* before each of these may stand blanks and comments.

A comment runs from a number sign up to the end of its line.  A line ends with a
line feed, with a carriage return and a line feed, or with the text.  A number
sign whose next line break is a carriage return alone starts no comment.

Of the blanks that end a symbol only the space, the tab, the carriage return and
the line feed may stand between symbols.  The keyword is not read as a whole
word: a symbol may follow it without a blank.  A directive or a rule that does
not read to its semicolon is not begun at all, so the text that remains unread
starts where the last complete rule ended.
-/

namespace PhraseStructure
namespace Script

/-! ### Blanks and comments -/

/-- The character may stand between symbols. -/
def isSpacing (c : Char) : Bool :=
  c == ' ' || c == '\t' || c == '\r' || c == '\n'

/-- What follows the body of a comment, if the comment's line ends properly. -/
def afterComment : Text → Option Text
  | [] => some []
  | c :: rest =>
      if c = '\n' then
        some (c :: rest)
      else if c = '\r' then
        if rest.head? = some '\n' then some (c :: rest) else none
      else
        afterComment rest

theorem length_afterComment {text rest : Text} (h : afterComment text = some rest) :
    rest.length ≤ text.length := by
  induction text with
  | nil => simp_all [afterComment]
  | cons c text ih =>
      simp only [afterComment] at h
      split at h
      · simp_all
      · split at h
        · split at h <;> simp_all
        · exact Nat.le_succ_of_le (ih h)

/-- The text after its leading blanks and comments. -/
def skip : Text → Text
  | [] => []
  | c :: rest =>
      if isSpacing c then
        skip rest
      else if c = '#' then
        match _ : afterComment rest with
        | some after => skip after
        | none => c :: rest
      else
        c :: rest
termination_by text => text.length
decreasing_by
  · simp
  · rename_i h
    exact Nat.lt_succ_of_le (length_afterComment h)

theorem length_skip (text : Text) : (skip text).length ≤ text.length := by
  fun_induction skip text with
  | case1 => simp
  | case2 c rest _ ih => simp only [List.length_cons]; omega
  | case3 rest after h _ ih =>
      have := length_afterComment h
      simp only [List.length_cons]
      omega
  | case4 => simp
  | case5 => simp

/-- What follows a word, blanks and comments before it skipped. -/
def expect (word text : Text) : Option Text :=
  let text := skip text
  if word.isPrefixOf text then some (text.drop word.length) else none

theorem length_expect {word text rest : Text} (hword : word ≠ [])
    (h : expect word text = some rest) : rest.length < text.length := by
  simp only [expect] at h
  split at h
  · rename_i hprefix
    have hle := (List.isPrefixOf_iff_prefix.mp hprefix).length_le
    have hpos := List.length_pos_iff.mpr hword
    have hskip := length_skip text
    cases h
    simp only [List.length_drop]
    omega
  · simp at h

/-! ### Symbols -/

/-- The body of a text in quotation marks, and what follows the closing one. -/
def readQuoted : Text → Option (Text × Text)
  | [] => none
  | mark :: rest =>
      if Text.isQuotation mark && (rest.dropWhile isQuotedChar).head? = some mark then
        some (rest.takeWhile isQuotedChar, (rest.dropWhile isQuotedChar).drop 1)
      else
        none

/-- The maximal run of bare characters, if it is a symbol, and what follows. -/
def readBare (text : Text) : Option (Text × Text) :=
  if isSymbolRun (text.takeWhile isBareChar) then
    some (text.takeWhile isBareChar, text.dropWhile isBareChar)
  else
    none

/-- A symbol, or none for empty quotation marks, and what follows. -/
def readSymbol (text : Text) : Option (Option Symbol × Text) :=
  match readQuoted text with
  | some (body, rest) => some (if body.isEmpty then none else some (.quoted body), rest)
  | none =>
      match readBare text with
      | some (run, rest) => some (some (.bare run), rest)
      | none => none

theorem length_dropWhile (p : Char → Bool) (text : Text) :
    (text.dropWhile p).length ≤ text.length :=
  (List.dropWhile_sublist p).length_le

theorem length_readQuoted {text body rest : Text} (h : readQuoted text = some (body, rest)) :
    rest.length < text.length := by
  cases text with
  | nil => simp [readQuoted] at h
  | cons mark text =>
      simp only [readQuoted] at h
      split at h
      · have hle := length_dropWhile isQuotedChar text
        cases h
        simp only [List.length_drop, List.length_cons]
        omega
      · simp at h

theorem length_readBare {text run rest : Text} (h : readBare text = some (run, rest)) :
    rest.length < text.length := by
  simp only [readBare] at h
  split at h
  · rename_i hrun
    have hne : text.takeWhile isBareChar ≠ [] := by
      intro heq
      simp [heq, isSymbolRun] at hrun
    have hpos := List.length_pos_iff.mpr hne
    have hsum : (text.takeWhile isBareChar).length + (text.dropWhile isBareChar).length =
        text.length := by
      rw [← List.length_append, List.takeWhile_append_dropWhile]
    cases h
    omega
  · simp at h

theorem length_readSymbol {text rest : Text} {symbol : Option Symbol}
    (h : readSymbol text = some (symbol, rest)) : rest.length < text.length := by
  simp only [readSymbol] at h
  split at h
  · rename_i body rest' hquoted
    cases h
    exact length_readQuoted hquoted
  · split at h
    · rename_i run rest' hbare
      cases h
      exact length_readBare hbare
    · simp at h

/-- Symbols as long as they follow, and the text before what is none. -/
def readSymbols (text : Text) : List Symbol × Text :=
  match _ : readSymbol (skip text) with
  | none => ([], text)
  | some (symbol, rest) =>
      let more := readSymbols rest
      (symbol.toList ++ more.1, more.2)
termination_by text.length
decreasing_by
  all_goals
    rename_i h
    exact Nat.lt_of_lt_of_le (length_readSymbol h) (length_skip text)

theorem length_readSymbols (text : Text) : (readSymbols text).2.length ≤ text.length := by
  fun_induction readSymbols text with
  | case1 => simp
  | case2 text symbol rest h more ih =>
      have hlt := length_readSymbol h
      have hle := length_skip text
      show (readSymbols rest).2.length ≤ text.length
      omega

/-! ### Rules and the directive -/

/-- Alternatives separated by bars. -/
def readAlternatives (text : Text) : List (List Symbol) × Text :=
  let first := readSymbols text
  match _ : expect bar first.2 with
  | none => ([first.1], first.2)
  | some rest =>
      let more := readAlternatives rest
      (first.1 :: more.1, more.2)
termination_by text.length
decreasing_by
  all_goals
    rename_i h
    exact Nat.lt_of_lt_of_le (length_expect (by simp [bar]) h) (length_readSymbols text)

theorem length_readAlternatives (text : Text) :
    (readAlternatives text).2.length ≤ text.length := by
  fun_induction readAlternatives text with
  | case1 text first h => exact length_readSymbols text
  | case2 text first rest h more ih =>
      have hlt := length_expect (by simp [bar]) h
      have hle : first.2.length ≤ text.length := length_readSymbols text
      show (readAlternatives rest).2.length ≤ text.length
      omega

/-- One rule up to and with its semicolon. -/
def readRule (text : Text) : Option (WrittenRule × Text) :=
  let lhs := readSymbols text
  match expect arrow lhs.2 with
  | none => none
  | some body =>
      let alternatives := readAlternatives body
      match expect semicolon alternatives.2 with
      | none => none
      | some rest => some (⟨lhs.1, alternatives.1⟩, rest)

theorem length_readRule {text rest : Text} {rule : WrittenRule}
    (h : readRule text = some (rule, rest)) : rest.length < text.length := by
  simp only [readRule] at h
  split at h
  · simp at h
  · rename_i body harrow
    split at h
    · simp at h
    · rename_i rest' hend
      have h₁ := length_readSymbols text
      have h₂ := length_expect (by simp [arrow]) harrow
      have h₃ := length_readAlternatives body
      have h₄ := length_expect (by simp [semicolon]) hend
      cases h
      omega

/-- Rules as long as they follow, and the text before what is none. -/
def readRules (text : Text) : List WrittenRule × Text :=
  match _ : readRule text with
  | none => ([], text)
  | some (rule, rest) =>
      let more := readRules rest
      (rule :: more.1, more.2)
termination_by text.length
decreasing_by
  all_goals
    rename_i h
    exact length_readRule h

/-- The start symbol's directive up to and with its semicolon. -/
def readDirective (text : Text) : Option (Symbol × Text) :=
  match expect keyword text with
  | none => none
  | some after =>
      match readSymbol (skip after) with
      | some (some symbol, rest) => (expect semicolon rest).map fun rest => (symbol, rest)
      | _ => none

/-! ### Whole texts -/

/-- The directive and the rules at the beginning of a text, and what remains
after the blanks and comments that follow them. -/
def readOpening (text : Text) : Script × Text :=
  match readDirective text with
  | some (symbol, rest) =>
      let rules := readRules rest
      (⟨some symbol, rules.1⟩, skip rules.2)
  | none =>
      let rules := readRules text
      (⟨none, rules.1⟩, skip rules.2)

/-- The number of characters of unread text that a complaint quotes. -/
def excerptLength : Nat := 32

/-- The first line of an unread text, without blanks at either end. -/
def unreadLine (rest : Text) : Text :=
  (Text.firstLine (Text.dropBlanks rest)).dropTrailingBlanks

/-- The complaint about an unread text. -/
def complaint (rest : Text) : String :=
  let line := unreadLine rest
  if line.isEmpty then
    "unexpected end of input"
  else if excerptLength < line.length then
    "unexpected input: " ++ String.ofList (line.take excerptLength) ++ "..."
  else
    "unexpected input: " ++ String.ofList line

/-- The script of a whole text. -/
def read (text : Text) : Except Error Script :=
  match readOpening text with
  | (script, []) => .ok script
  | (_, rest) => .error (.unreadable (complaint rest))

end Script
end PhraseStructure
