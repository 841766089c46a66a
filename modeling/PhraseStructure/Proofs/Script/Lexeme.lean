import PhraseStructure.Proofs.Script.Reading

/-!
# The lexemes of a grammar text

A text is cut from left to right into spacing, comments, symbols in quotation marks, bars,
semicolons and runs of bare characters, each as long as it can be.  How long that is
depends on what follows, so a lexeme is always judged together with the rest of the text;
lists of lexemes can then be put together without merging two of them.

A text is cut in at most one way, and NOT every text can be cut: a quotation mark without
a partner, a number sign whose line does not end properly and a blank that is no spacing
begin no lexeme.

Spacing and comments say nothing.  A prefix of a text is described by the lexemes it
shows, which leaves open how many blanks stand before each.  Which lists of lexemes are
scripts is not said here.
-/

namespace PhraseStructure
namespace Script

/-! ### Lexemes -/

/-- A piece of a grammar text. -/
inductive Lexeme where
  | spacing (chars : Text)
  | comment (body : Text)
  | quoted (mark : Char) (body : Text)
  | bar
  | semicolon
  | run (chars : Text)
deriving DecidableEq

/-- A non-empty run of such characters that does not go on in the rest of the text. -/
structure MaximalRun (p : Char → Bool) (run rest : Text) : Prop where
  ne_nil : run ≠ []
  inside : ∀ c ∈ run, p c = true
  outside : ∀ c ∈ rest.head?, p c = false

/-- A line ends with a line feed, with a carriage return and a line feed, or with the
text. -/
def LineEnds (rest : Text) : Prop :=
  rest = [] ∨ ['\n'] <+: rest ∨ ['\r', '\n'] <+: rest

namespace Lexeme

/-- The characters of a lexeme. -/
def text : Lexeme → Text
  | spacing chars => chars
  | comment body => '#' :: body
  | quoted mark body => mark :: (body ++ [mark])
  | bar => Script.bar
  | semicolon => Script.semicolon
  | run chars => chars

/-- The lexeme is one, and as the longest match ends where the rest begins. -/
def EndsBefore (rest : Text) : Lexeme → Prop
  | spacing chars => MaximalRun isSpacing chars rest
  | comment body => (∀ c ∈ body, c ≠ '\n' ∧ c ≠ '\r') ∧ LineEnds rest
  | quoted mark body => Text.isQuotation mark = true ∧ ∀ c ∈ body, isQuotedChar c = true
  | bar => True
  | semicolon => True
  | run chars => MaximalRun isBareChar chars rest

/-- The lexeme is spacing or a comment. -/
def isBlank : Lexeme → Bool
  | spacing _ => true
  | comment _ => true
  | _ => false

end Lexeme

/-- The text is cut into the pieces from left to right. -/
inductive Lexed : Text → List Lexeme → Prop
  | nil : Lexed [] []
  | cons {piece : Lexeme} {rest : Text} {pieces : List Lexeme} (hpiece : piece.EndsBefore rest)
      (hrest : Lexed rest pieces) : Lexed (piece.text ++ rest) (piece :: pieces)

/-- The pieces without the blanks. -/
def significant (pieces : List Lexeme) : List Lexeme :=
  pieces.filter fun piece => !piece.isBlank

theorem significant_cons {piece : Lexeme} {pieces : List Lexeme} (h : piece.isBlank = false) :
    significant (piece :: pieces) = piece :: significant pieces :=
  List.filter_cons_of_pos (by rw [h]; rfl)

theorem significant_cons_of_isBlank {piece : Lexeme} {pieces : List Lexeme}
    (h : piece.isBlank = true) : significant (piece :: pieces) = significant pieces :=
  List.filter_cons_of_neg (by rw [h]; exact Bool.false_ne_true)

/-! ### A text is cut in at most one way -/

section Runs

variable {p : Char → Bool} {run rest run' rest' : Text}

theorem takeWhile_append_of_head? (hrun : ∀ c ∈ run, p c = true)
    (hrest : ∀ c ∈ rest.head?, p c = false) : (run ++ rest).takeWhile p = run := by
  cases rest with
  | nil => rw [List.takeWhile_append_of_pos hrun, List.takeWhile_nil, List.append_nil]
  | cons stop rest => exact takeWhile_run hrun (hrest stop rfl)

theorem dropWhile_append_of_head? (hrun : ∀ c ∈ run, p c = true)
    (hrest : ∀ c ∈ rest.head?, p c = false) : (run ++ rest).dropWhile p = rest := by
  cases rest with
  | nil => rw [List.dropWhile_append_of_pos hrun, List.dropWhile_nil]
  | cons stop rest => exact dropWhile_run hrun (hrest stop rfl)

/-- A run that does not go on is determined by the text. -/
theorem run_unique (hrun : ∀ c ∈ run, p c = true) (hrest : ∀ c ∈ rest.head?, p c = false)
    (hrun' : ∀ c ∈ run', p c = true) (hrest' : ∀ c ∈ rest'.head?, p c = false)
    (heq : run ++ rest = run' ++ rest') : run = run' ∧ rest = rest' := by
  refine ⟨?_, ?_⟩
  · rw [← takeWhile_append_of_head? hrun hrest, heq, takeWhile_append_of_head? hrun' hrest']
  · rw [← dropWhile_append_of_head? hrun hrest, heq, dropWhile_append_of_head? hrun' hrest']

theorem MaximalRun.unique (h : MaximalRun p run rest) (h' : MaximalRun p run' rest')
    (heq : run ++ rest = run' ++ rest') : run = run' ∧ rest = rest' :=
  run_unique h.inside h.outside h'.inside h'.outside heq

theorem dropWhile_head? (p : Char → Bool) (text : Text) :
    ∀ c ∈ (text.dropWhile p).head?, p c = false := by
  intro c hc
  have hhead := List.head?_dropWhile_not p text
  rw [Option.mem_def.mp hc] at hhead
  simpa using hhead

/-- The run at the beginning of a text is maximal, unless it is empty. -/
theorem maximalRun_takeWhile {text : Text} (hne : text.takeWhile p ≠ []) :
    MaximalRun p (text.takeWhile p) (text.dropWhile p) :=
  ⟨hne, fun _ => of_mem_takeWhile, dropWhile_head? p text⟩

end Runs

theorem LineEnds.not_mem_line {rest : Text} (h : LineEnds rest) :
    ∀ c ∈ rest.head?, (c != '\n' && c != '\r') = false := by
  intro c hc
  rcases h with rfl | ⟨more, rfl⟩ | ⟨more, rfl⟩
  · cases hc
  · obtain rfl := Option.some.inj hc
    rfl
  · obtain rfl := Option.some.inj hc
    rfl

namespace Lexeme

/-- The kinds of lexemes. -/
inductive Kind where
  | spacing
  | comment
  | quoted
  | bar
  | semicolon
  | run

/-- The kind of a lexeme. -/
def kind : Lexeme → Kind
  | spacing _ => .spacing
  | comment _ => .comment
  | quoted _ _ => .quoted
  | bar => .bar
  | semicolon => .semicolon
  | run _ => .run

/-- The only kind of lexeme that can begin with the character. -/
def kindOf (c : Char) : Kind :=
  if isSpacing c then .spacing
  else if c = '#' then .comment
  else if Text.isQuotation c then .quoted
  else if c = '|' then .bar
  else if c = ';' then .semicolon
  else .run

theorem isSpacing_eq_false_of_kindOf {c : Char} (h : kindOf c ≠ .spacing) :
    isSpacing c = false := by
  by_contra hspacing
  exact h (if_pos (Bool.not_eq_false _ ▸ hspacing))

theorem kindOf_of_isQuotation {c : Char} (h : Text.isQuotation c = true) :
    kindOf c = .quoted := by
  simp only [Text.isQuotation, Bool.or_eq_true, beq_iff_eq] at h
  rcases h with rfl | rfl <;> rfl

theorem kindOf_of_isBareChar {c : Char} (h : isBareChar c = true) : kindOf c = .run := by
  have hquoted := isQuotedChar_of_isBareChar h
  simp only [isBareChar, Bool.and_eq_true, bne_iff_ne] at h
  obtain ⟨⟨⟨_, hbar⟩, hsemicolon⟩, hcomment⟩ := h
  simp [kindOf, isSpacing_eq_false hquoted, isQuotation_eq_false hquoted, hbar, hsemicolon,
    hcomment]

variable {lexeme lexeme' : Lexeme} {rest rest' : Text}

/-- A lexeme is not empty, and its first character tells its kind. -/
theorem EndsBefore.exists_cons (h : lexeme.EndsBefore rest) :
    ∃ c more, lexeme.text = c :: more ∧ kindOf c = lexeme.kind := by
  cases lexeme with
  | spacing chars =>
      obtain ⟨hne, hinside, _⟩ := h
      obtain ⟨c, more, rfl⟩ := List.exists_cons_of_ne_nil hne
      exact ⟨c, more, rfl, if_pos (hinside c List.mem_cons_self)⟩
  | comment body => exact ⟨'#', body, rfl, rfl⟩
  | quoted mark body => exact ⟨mark, body ++ [mark], rfl, kindOf_of_isQuotation h.1⟩
  | bar => exact ⟨'|', [], rfl, rfl⟩
  | semicolon => exact ⟨';', [], rfl, rfl⟩
  | run chars =>
      obtain ⟨hne, hinside, _⟩ := h
      obtain ⟨c, more, rfl⟩ := List.exists_cons_of_ne_nil hne
      exact ⟨c, more, rfl, kindOf_of_isBareChar (hinside c List.mem_cons_self)⟩

theorem EndsBefore.text_append_ne_nil (h : lexeme.EndsBefore rest) (more : Text) :
    lexeme.text ++ more ≠ [] := by
  obtain ⟨c, tail, htext, _⟩ := h.exists_cons
  rw [htext]
  exact List.cons_ne_nil c _

theorem EndsBefore.comment_unique {body body' : Text} (h : (comment body).EndsBefore rest)
    (h' : (comment body').EndsBefore rest') (heq : body ++ rest = body' ++ rest') :
    body = body' ∧ rest = rest' := by
  have hline : ∀ {body : Text}, (∀ c ∈ body, c ≠ '\n' ∧ c ≠ '\r') →
      ∀ c ∈ body, (c != '\n' && c != '\r') = true := by
    intro body hbody c hc
    simpa using hbody c hc
  exact run_unique (hline h.1) h.2.not_mem_line (hline h'.1) h'.2.not_mem_line heq

/-- The closing mark is the first character that may not stand inside. -/
theorem EndsBefore.quoted_unique {mark mark' : Char} {body body' : Text}
    (h : (quoted mark body).EndsBefore rest) (h' : (quoted mark' body').EndsBefore rest')
    (heq : body ++ mark :: rest = body' ++ mark' :: rest') :
    body = body' ∧ mark = mark' ∧ rest = rest' := by
  have hmark : ∀ {mark : Char} {rest : Text}, Text.isQuotation mark = true →
      ∀ c ∈ (mark :: rest).head?, isQuotedChar c = false := by
    intro mark rest hmark c hc
    obtain rfl := Option.some.inj hc
    exact isQuotedChar_of_mark hmark
  obtain ⟨hbody, hclosing⟩ := run_unique h.2 (hmark h.1) h'.2 (hmark h'.1) heq
  exact ⟨hbody, List.cons.inj hclosing⟩

/-- Two lexemes at the beginning of one text are the same lexeme. -/
theorem EndsBefore.unique (h : lexeme.EndsBefore rest) (h' : lexeme'.EndsBefore rest')
    (heq : lexeme.text ++ rest = lexeme'.text ++ rest') : lexeme = lexeme' ∧ rest = rest' := by
  obtain ⟨c, more, htext, hkind⟩ := h.exists_cons
  obtain ⟨c', more', htext', hkind'⟩ := h'.exists_cons
  have hc : c = c' := by
    rw [htext, htext'] at heq
    exact (List.cons.inj heq).1
  have hsame : lexeme.kind = lexeme'.kind := by rw [← hkind, hc, hkind']
  -- Lexemes of one kind end at the same place; other pairs begin with other characters.
  cases lexeme with
  | spacing chars =>
      cases lexeme' with
      | spacing chars' =>
          obtain ⟨rfl, rfl⟩ := MaximalRun.unique h h' heq
          exact ⟨rfl, rfl⟩
      | _ => cases hsame
  | comment body =>
      cases lexeme' with
      | comment body' =>
          obtain ⟨rfl, rfl⟩ := h.comment_unique h' (List.cons.inj heq).2
          exact ⟨rfl, rfl⟩
      | _ => cases hsame
  | quoted mark body =>
      cases lexeme' with
      | quoted mark' body' =>
          have hbody : body ++ mark :: rest = body' ++ mark' :: rest' := by
            simpa [text] using (List.cons.inj heq).2
          obtain ⟨rfl, rfl, rfl⟩ := h.quoted_unique h' hbody
          exact ⟨rfl, rfl⟩
      | _ => cases hsame
  | bar =>
      cases lexeme' with
      | bar => exact ⟨rfl, (List.cons.inj heq).2⟩
      | _ => cases hsame
  | semicolon =>
      cases lexeme' with
      | semicolon => exact ⟨rfl, (List.cons.inj heq).2⟩
      | _ => cases hsame
  | run chars =>
      cases lexeme' with
      | run chars' =>
          obtain ⟨rfl, rfl⟩ := MaximalRun.unique h h' heq
          exact ⟨rfl, rfl⟩
      | _ => cases hsame

end Lexeme

/-- A text is cut into lexemes in at most one way. -/
theorem Lexed.unique {text : Text} {pieces pieces' : List Lexeme} (h : Lexed text pieces)
    (h' : Lexed text pieces') : pieces = pieces' := by
  generalize heq : text = text' at h'
  induction h generalizing text' pieces' with
  | nil =>
      cases h' with
      | nil => rfl
      | cons hpiece _ => exact absurd heq.symm (hpiece.text_append_ne_nil _)
  | cons hpiece _ ih =>
      cases h' with
      | nil => exact absurd heq (hpiece.text_append_ne_nil _)
      | cons hpiece' hrest' =>
          obtain ⟨rfl, rfl⟩ := hpiece.unique hpiece' heq
          rw [ih _ rfl hrest']

/-! ### Blanks are skipped -/

/-- A comment's body is skipped up to the end of its line. -/
theorem afterComment_append {body rest : Text} (hbody : ∀ c ∈ body, c ≠ '\n' ∧ c ≠ '\r')
    (hrest : LineEnds rest) : afterComment (body ++ rest) = some rest := by
  induction body with
  | nil =>
      rcases hrest with rfl | ⟨more, rfl⟩ | ⟨more, rfl⟩
      · rfl
      · rfl
      · rfl
  | cons c body ih =>
      obtain ⟨⟨hfeed, hreturn⟩, hbody⟩ := List.forall_mem_cons.mp hbody
      rw [List.cons_append, afterComment, if_neg hfeed, if_neg hreturn, ih hbody]

/-- What is skipped of a comment is a body up to the end of its line. -/
theorem exists_of_afterComment {text rest : Text} (h : afterComment text = some rest) :
    ∃ body, text = body ++ rest ∧ (∀ c ∈ body, c ≠ '\n' ∧ c ≠ '\r') ∧ LineEnds rest := by
  induction text with
  | nil =>
      cases h
      exact ⟨[], rfl, List.forall_mem_nil _, .inl rfl⟩
  | cons c text ih =>
      rw [afterComment] at h
      split at h
      · rename_i hfeed
        cases h
        exact ⟨[], rfl, List.forall_mem_nil _, .inr (.inl ⟨text, by rw [hfeed]; rfl⟩)⟩
      · rename_i hfeed
        split at h
        · rename_i hreturn
          split at h
          · rename_i hhead
            cases h
            obtain ⟨more, rfl⟩ := List.head?_eq_some_iff.mp hhead
            exact ⟨[], rfl, List.forall_mem_nil _, .inr (.inr ⟨more, by rw [hreturn]; rfl⟩)⟩
          · cases h
        · rename_i hreturn
          obtain ⟨body, htext, hbody, hrest⟩ := ih h
          refine ⟨c :: body, by rw [htext, List.cons_append], ?_, hrest⟩
          exact List.forall_mem_cons.mpr ⟨⟨hfeed, hreturn⟩, hbody⟩

theorem skip_of_afterComment {text rest : Text} (h : afterComment text = some rest) :
    skip ('#' :: text) = skip rest := by
  rw [skip, if_neg (by decide), if_pos rfl]
  split
  · rename_i after hsome
    rw [h] at hsome
    cases hsome
    rfl
  · rename_i hnone
    rw [h] at hnone
    cases hnone

theorem skip_comment {body rest : Text} (hbody : ∀ c ∈ body, c ≠ '\n' ∧ c ≠ '\r')
    (hrest : LineEnds rest) : skip ('#' :: (body ++ rest)) = skip rest :=
  skip_of_afterComment (afterComment_append hbody hrest)

variable {lexeme lexeme' : Lexeme} {text mid rest : Text} {lexemes : List Lexeme}

theorem Lexeme.EndsBefore.skip_of_isBlank (h : lexeme.EndsBefore rest)
    (hblank : lexeme.isBlank = true) : skip (lexeme.text ++ rest) = skip rest := by
  cases lexeme with
  | spacing chars => exact skip_gap h.inside rest
  | comment body => exact skip_comment h.1 h.2
  | _ => cases hblank

theorem Lexeme.EndsBefore.skip_eq (h : lexeme.EndsBefore rest)
    (hblank : lexeme.isBlank = false) :
    skip (lexeme.text ++ rest) = lexeme.text ++ rest := by
  obtain ⟨c, more, htext, hkind⟩ := h.exists_cons
  rw [htext, List.cons_append]
  apply skip_cons_of_not
  · apply Lexeme.isSpacing_eq_false_of_kindOf
    rw [hkind]
    cases lexeme with
    | spacing chars => cases hblank
    | _ => exact nofun
  · rintro rfl
    cases lexeme with
    | comment body => cases hblank
    | _ => cases hkind

/-- A run of bare characters is not skipped. -/
theorem MaximalRun.skip_eq {chars : Text} (h : MaximalRun isBareChar chars rest) :
    skip (chars ++ rest) = chars ++ rest := by
  have hends : (Lexeme.run chars).EndsBefore rest := h
  exact hends.skip_eq rfl

/-- Spacing in front of a text that is cut makes the first piece longer, or is a piece. -/
theorem exists_lexed_of_isSpacing {c : Char} {pieces : List Lexeme} (hc : isSpacing c = true)
    (h : Lexed rest pieces) :
    ∃ more, Lexed (c :: rest) more ∧ significant more = significant pieces := by
  by_cases hhead : ∀ d ∈ rest.head?, isSpacing d = false
  · have hpiece : (Lexeme.spacing [c]).EndsBefore rest :=
      ⟨List.cons_ne_nil c [], List.forall_mem_singleton.mpr hc, hhead⟩
    exact ⟨.spacing [c] :: pieces, .cons hpiece h, rfl⟩
  · cases h with
    | nil => exact absurd (fun d hd => nomatch hd) hhead
    | @cons piece rest pieces hpiece hrest =>
        obtain ⟨d, tail, htext, hkind⟩ := hpiece.exists_cons
        cases piece with
        | spacing chars =>
            have hlonger : (Lexeme.spacing (c :: chars)).EndsBefore rest :=
              ⟨List.cons_ne_nil c chars, List.forall_mem_cons.mpr ⟨hc, hpiece.inside⟩,
                hpiece.outside⟩
            exact ⟨.spacing (c :: chars) :: pieces, .cons hlonger hrest, rfl⟩
        | _ =>
            refine absurd ?_ hhead
            intro e he
            rw [htext] at he
            obtain rfl := Option.some.inj he
            exact Lexeme.isSpacing_eq_false_of_kindOf (by rw [hkind]; exact nofun)

/-- Skipped blanks are pieces of the text. -/
theorem exists_lexed_of_skip {pieces : List Lexeme} (h : Lexed (skip text) pieces) :
    ∃ more, Lexed text more ∧ significant more = significant pieces := by
  fun_induction skip text generalizing pieces with
  | case1 => exact ⟨pieces, h, rfl⟩
  | case2 c rest hspacing ih =>
      obtain ⟨more, hmore, hsame⟩ := ih h
      obtain ⟨most, hmost, hsame'⟩ := exists_lexed_of_isSpacing hspacing hmore
      exact ⟨most, hmost, hsame'.trans hsame⟩
  | case3 rest after hafter _ ih =>
      obtain ⟨more, hmore, hsame⟩ := ih h
      obtain ⟨body, rfl, hbody, hends⟩ := exists_of_afterComment hafter
      have hcomment : (Lexeme.comment body).EndsBefore after := ⟨hbody, hends⟩
      exact ⟨.comment body :: more, .cons hcomment hmore, hsame⟩
  | case4 => exact ⟨pieces, h, rfl⟩
  | case5 => exact ⟨pieces, h, rfl⟩

/-! ### What the beginning of a text shows -/

/-- Behind its blanks the text begins with a lexeme and goes on with the rest. -/
structure Next (text : Text) (lexeme : Lexeme) (rest : Text) : Prop where
  skip_eq : skip text = lexeme.text ++ rest
  endsBefore : lexeme.EndsBefore rest
  isBlank_eq : lexeme.isBlank = false

/-- Blanks aside, the text shows the lexemes and goes on with the rest. -/
inductive Scans : Text → List Lexeme → Text → Prop
  | nil {text : Text} : Scans text [] text
  | cons {text mid rest : Text} {lexeme : Lexeme} {lexemes : List Lexeme}
      (hnext : Next text lexeme mid) (hmore : Scans mid lexemes rest) :
      Scans text (lexeme :: lexemes) rest

theorem Next.unique (h : Next text lexeme rest) (h' : Next text lexeme' mid) :
    lexeme = lexeme' ∧ rest = mid :=
  h.endsBefore.unique h'.endsBefore (h.skip_eq.symm.trans h'.skip_eq)

theorem Next.skip_ne_nil (h : Next text lexeme rest) : skip text ≠ [] := by
  rw [h.skip_eq]
  exact h.endsBefore.text_append_ne_nil rest

theorem Scans.exists_of_cons (h : Scans text (lexeme :: lexemes) rest) :
    ∃ mid, Next text lexeme mid ∧ Scans mid lexemes rest := by
  cases h with
  | cons hnext hmore => exact ⟨_, hnext, hmore⟩

theorem scans_singleton_iff : Scans text [lexeme] rest ↔ Next text lexeme rest := by
  refine ⟨?_, fun h => .cons h .nil⟩
  intro h
  obtain ⟨mid, hnext, hnothing⟩ := h.exists_of_cons
  cases hnothing
  exact hnext

theorem Scans.append {lexemes' : List Lexeme} (h : Scans text lexemes mid)
    (h' : Scans mid lexemes' rest) : Scans text (lexemes ++ lexemes') rest := by
  induction h with
  | nil => exact h'
  | cons hnext _ ih => exact .cons hnext (ih h')

theorem Scans.exists_of_append {lexemes' : List Lexeme}
    (h : Scans text (lexemes ++ lexemes') rest) :
    ∃ mid, Scans text lexemes mid ∧ Scans mid lexemes' rest := by
  induction lexemes generalizing text with
  | nil => exact ⟨text, .nil, h⟩
  | cons lexeme lexemes ih =>
      obtain ⟨next, hnext, hmore⟩ := h.exists_of_cons
      obtain ⟨mid, hlexemes, hlexemes'⟩ := ih hmore
      exact ⟨mid, .cons hnext hlexemes, hlexemes'⟩

/-- What a prefix of a text shows is a prefix of what the whole text shows. -/
theorem Scans.prefix_of_skip_eq_nil {lexemes' : List Lexeme} (h : Scans text lexemes rest)
    (hend : skip rest = []) (h' : Scans text lexemes' mid) : lexemes' <+: lexemes := by
  induction h' generalizing lexemes with
  | nil => exact List.nil_prefix
  | cons hnext' _ ih =>
      cases h with
      | nil => exact absurd hend hnext'.skip_ne_nil
      | cons hnext hmore =>
          obtain ⟨rfl, rfl⟩ := hnext.unique hnext'
          exact (List.prefix_cons_inj _).mpr (ih hmore)

/-- Other blanks in front of a text show the same lexemes. -/
theorem Scans.exists_of_skip_eq {text' : Text} (h : Scans text lexemes rest)
    (hend : skip rest = []) (hskip : skip text' = skip text) :
    ∃ rest', Scans text' lexemes rest' ∧ skip rest' = [] := by
  cases h with
  | nil => exact ⟨text', .nil, hskip.trans hend⟩
  | cons hnext hmore =>
      have hnext' : Next text' _ _ :=
        ⟨hskip.trans hnext.skip_eq, hnext.endsBefore, hnext.isBlank_eq⟩
      exact ⟨rest, .cons hnext' hmore, hend⟩

/-- A text that is cut shows its significant pieces, and only blanks remain. -/
theorem Lexed.exists_scans {pieces : List Lexeme} (h : Lexed text pieces) :
    ∃ rest, Scans text (significant pieces) rest ∧ skip rest = [] := by
  induction h with
  | nil => exact ⟨[], .nil, by rw [skip]⟩
  | @cons piece rest pieces hpiece _ ih =>
      obtain ⟨rest', hscans, hend⟩ := ih
      cases hblank : piece.isBlank with
      | true =>
          rw [significant_cons_of_isBlank hblank]
          exact hscans.exists_of_skip_eq hend (hpiece.skip_of_isBlank hblank)
      | false =>
          have hnext : Next (piece.text ++ rest) piece rest :=
            ⟨hpiece.skip_eq hblank, hpiece, hblank⟩
          rw [significant_cons hblank]
          exact ⟨rest', .cons hnext hscans, hend⟩

/-- A text that shows lexemes up to its last blanks is cut into them and blanks. -/
theorem Scans.exists_lexed (h : Scans text lexemes rest) (hend : skip rest = []) :
    ∃ pieces, Lexed text pieces ∧ significant pieces = lexemes := by
  induction h with
  | @nil text =>
      have hnothing : Lexed (skip text) [] := by
        rw [hend]
        exact .nil
      exact exists_lexed_of_skip hnothing
  | cons hnext _ ih =>
      obtain ⟨pieces, hpieces, rfl⟩ := ih hend
      have hcut := Lexed.cons hnext.endsBefore hpieces
      rw [← hnext.skip_eq] at hcut
      obtain ⟨more, hmore, hsame⟩ := exists_lexed_of_skip hcut
      exact ⟨more, hmore, hsame.trans (significant_cons hnext.isBlank_eq)⟩

end Script
end PhraseStructure
