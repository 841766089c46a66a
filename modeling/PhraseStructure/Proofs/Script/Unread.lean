import PhraseStructure.Proofs.Script.Parsing

/-!
# Where a text stops being read

A text that is not a script is read up to some place, and the complaint is about what stands
behind it.  What stands before is a script on its own: the lexemes in it are the same when the
rest is cut off, because a run that ends inside a text also ends with it, and a comment in front
of the rest has its whole line before it.  The rest begins no rule.

The complaint depends on the rest alone, and of the rest only on one line.  It may say that the
input has ended although something is left, namely blanks that are no spacing.  The place is NOT
where the mistake is: it is where the first rule that cannot be completed begins.
-/

namespace PhraseStructure
namespace Script

variable {text mid rest : Text} {lexeme : Lexeme} {lexemes : List Lexeme}

/-! ### What is left is the end of the text -/

theorem skip_suffix (text : Text) : skip text <:+ text := by
  fun_induction skip text with
  | case1 => exact List.suffix_refl []
  | case2 c rest _ ih => exact ih.trans (List.suffix_cons c rest)
  | case3 rest after hafter _ ih =>
      obtain ⟨body, rfl, _⟩ := exists_of_afterComment hafter
      exact ih.trans ⟨'#' :: body, rfl⟩
  | case4 rest _ _ => exact List.suffix_refl _
  | case5 c rest _ _ => exact List.suffix_refl _

theorem Next.suffix (h : Next text lexeme rest) : rest <:+ text :=
  List.IsSuffix.trans ⟨lexeme.text, h.skip_eq.symm⟩ (skip_suffix text)

theorem Scans.suffix (h : Scans text lexemes rest) : rest <:+ text := by
  induction h with
  | nil => exact List.suffix_refl _
  | cons hnext _ ih => exact ih.trans hnext.suffix

/-! ### Nothing is skipped twice -/

theorem isSpacing_head_skip (text : Text) : ∀ c ∈ (skip text).head?, isSpacing c = false := by
  fun_induction skip text with
  | case1 =>
      intro c hc
      cases hc
  | case2 _ _ _ ih => exact ih
  | case3 _ _ _ _ ih => exact ih
  | case4 rest _ _ =>
      intro d hd
      obtain rfl := Option.some.inj hd
      rfl
  | case5 c rest hspacing _ =>
      intro d hd
      obtain rfl := Option.some.inj hd
      exact Bool.not_eq_true _ ▸ hspacing

/-- A number sign that begins no comment is not skipped. -/
theorem skip_of_afterComment_eq_none (h : afterComment rest = none) :
    skip ('#' :: rest) = '#' :: rest := by
  rw [skip, if_neg (by decide), if_pos rfl]
  split
  · rename_i after hsome
    rw [h] at hsome
    cases hsome
  · rfl

theorem skip_skip (text : Text) : skip (skip text) = skip text := by
  fun_induction skip text with
  | case1 => rw [skip]
  | case2 _ _ _ ih => exact ih
  | case3 _ _ _ _ ih => exact ih
  | case4 rest hnone _ => exact skip_of_afterComment_eq_none hnone
  | case5 c rest hspacing hcomment =>
      exact skip_cons_of_not (Bool.not_eq_true _ ▸ hspacing) hcomment rest

/-- Lexemes are looked for behind blanks, so it does not matter whether these stand there. -/
theorem Scans.of_skip (h : Scans (skip text) lexemes rest) (hne : lexemes ≠ []) :
    Scans text lexemes rest := by
  cases h with
  | nil => exact absurd rfl hne
  | cons hnext hmore =>
      have hskip := (skip_skip text).symm.trans hnext.skip_eq
      exact .cons ⟨hskip, hnext.endsBefore, hnext.isBlank_eq⟩ hmore

/-- A rule begins behind blanks or not at all. -/
theorem readRule_skip_eq_none (h : readRule text = none) : readRule (skip text) = none := by
  rw [Option.eq_none_iff_forall_ne_some] at h ⊢
  rintro ⟨rule, rest⟩ hread
  obtain ⟨lexemes, hscans, hrule⟩ := readRule_eq_some_iff.mp hread
  exact h _ (readRule_eq_some_iff.mpr ⟨lexemes, hscans.of_skip hrule.ne_nil, hrule⟩)

/-! ### The rest is cut off -/

section CutOff

variable {tail : Text}

theorem head?_of_append {p : Char → Bool} (h : ∀ c ∈ (text ++ tail).head?, p c = false) :
    ∀ c ∈ text.head?, p c = false := by
  cases text with
  | nil => exact nofun
  | cons d text => exact h

theorem LineEnds.of_append (h : LineEnds (text ++ tail))
    (htail : ∀ c ∈ tail.head?, isSpacing c = false) : LineEnds text := by
  cases text with
  | nil => exact .inl rfl
  | cons c text =>
      rcases h with hnil | ⟨more, hfeed⟩ | ⟨more, hreturn⟩
      · cases hnil
      · obtain ⟨rfl, _⟩ := List.cons.inj hfeed
        exact .inr (.inl ⟨text, rfl⟩)
      · obtain ⟨rfl, hmore⟩ := List.cons.inj hreturn
        -- The line feed behind the carriage return belongs to the part that is kept.
        cases text with
        | nil =>
            obtain rfl : '\n' :: more = tail := hmore
            exact absurd (htail '\n' rfl) (by decide)
        | cons d text =>
            obtain ⟨rfl, _⟩ := List.cons.inj hmore
            exact .inr (.inr ⟨text, rfl⟩)

theorem Lexeme.EndsBefore.of_append (h : lexeme.EndsBefore (text ++ tail))
    (htail : ∀ c ∈ tail.head?, isSpacing c = false) : lexeme.EndsBefore text := by
  cases lexeme with
  | spacing chars => exact ⟨h.ne_nil, h.inside, head?_of_append h.outside⟩
  | comment body => exact ⟨h.1, h.2.of_append htail⟩
  | quoted mark body => exact h
  | bar => trivial
  | semicolon => trivial
  | run chars => exact ⟨h.ne_nil, h.inside, head?_of_append h.outside⟩

/-- Of a text that is left nothing is skipped. -/
theorem eq_nil_of_skip_eq {kept : Text} (h : skip tail = kept ++ tail) : kept = [] := by
  have hlength := length_skip tail
  rw [h, List.length_append] at hlength
  exact List.length_eq_zero_iff.mp (by omega)

/-- A comment that ends before the rest ends there without the rest too. -/
theorem exists_afterComment_of_append {after : Text}
    (htail : ∀ c ∈ tail.head?, isSpacing c = false)
    (h : afterComment (text ++ tail) = some after) (hlength : tail.length ≤ after.length) :
    ∃ more, after = more ++ tail ∧ afterComment text = some more := by
  obtain ⟨body, htext, hbody, hends⟩ := exists_of_afterComment h
  obtain ⟨more, rfl⟩ := List.suffix_of_suffix_length_le (List.suffix_append text tail)
    ⟨body, htext.symm⟩ hlength
  rw [← List.append_assoc, List.append_cancel_right_eq] at htext
  rw [htext]
  exact ⟨more, rfl, afterComment_append hbody (hends.of_append htail)⟩

/-- The same is skipped if the rest is cut off, unless what is left begins like a comment. -/
theorem skip_of_append {text tail kept : Text} (htail : ∀ c ∈ tail.head?, isSpacing c = false)
    (hkept : '#' ∉ kept.head?) (h : skip (text ++ tail) = kept ++ tail) : skip text = kept := by
  cases text with
  | nil => rw [skip, eq_nil_of_skip_eq h]
  | cons c text =>
      rw [List.cons_append] at h
      by_cases hspacing : isSpacing c = true
      · rw [skip_cons_of_isSpacing hspacing] at h ⊢
        exact skip_of_append htail hkept h
      by_cases hcomment : c = '#'
      · rw [hcomment] at h ⊢
        cases hafter : afterComment (text ++ tail) with
        | none =>
            rw [skip_of_afterComment_eq_none hafter, ← List.cons_append] at h
            rw [← List.append_cancel_right h] at hkept
            exact absurd rfl hkept
        | some after =>
            rw [skip_of_afterComment hafter] at h
            have hlength := length_skip after
            rw [h, List.length_append] at hlength
            obtain ⟨more, rfl, hmore⟩ :=
              exists_afterComment_of_append htail hafter (by omega)
            have hshorter : more.length < (c :: text).length :=
              Nat.lt_succ_of_le (length_afterComment hmore)
            rw [skip_of_afterComment hmore]
            exact skip_of_append htail hkept h
      · have hspacing' : isSpacing c = false := Bool.not_eq_true _ ▸ hspacing
        rw [skip_cons_of_not hspacing' hcomment] at h ⊢
        rw [← List.cons_append] at h
        exact List.append_cancel_right h
termination_by text.length

theorem Next.of_append (h : Next (text ++ tail) lexeme (mid ++ tail))
    (htail : ∀ c ∈ tail.head?, isSpacing c = false) : Next text lexeme mid := by
  obtain ⟨hskip, hends, hblank⟩ := h
  refine ⟨?_, hends.of_append htail, hblank⟩
  apply skip_of_append htail
  · obtain ⟨c, more, htext, hkind⟩ := hends.exists_cons
    rw [htext]
    intro hc
    obtain rfl := Option.some.inj hc
    cases lexeme with
    | comment body => cases hblank
    | _ => cases hkind
  · rw [hskip, List.append_assoc]

/-- The same lexemes are shown if the rest is cut off. -/
theorem Scans.of_append (h : Scans (text ++ tail) lexemes (rest ++ tail))
    (htail : ∀ c ∈ tail.head?, isSpacing c = false) : Scans text lexemes rest := by
  generalize hwhole : text ++ tail = whole at h
  generalize hleft : rest ++ tail = left at h
  induction h generalizing text with
  | nil =>
      rw [← hleft, List.append_cancel_right_eq] at hwhole
      rw [hwhole]
      exact .nil
  | cons hnext hmore ih =>
      obtain ⟨more, hmore'⟩ := hmore.suffix
      rw [← hleft, ← List.append_assoc] at hmore'
      rw [← hwhole, ← hmore'] at hnext
      exact .cons (hnext.of_append htail) (ih hmore' hleft)

end CutOff

/-! ### The complaint -/

/-- The line is what an unread text shows first: behind its leading blanks, up to the next line
feed, without the blanks before that. -/
inductive ShowsLine : Text → Text → Prop
  | intro {leading line trailing more : Text} (hleading : ∀ c ∈ leading, Text.isBlank c = true)
      (hhead : ∀ c ∈ (line ++ trailing ++ more).head?, Text.isBlank c = false)
      (hline : ∀ c ∈ line ++ trailing, c ≠ '\n') (hmore : ∀ c ∈ more.head?, c = '\n')
      (hlast : ∀ c ∈ line.getLast?, Text.isBlank c = false)
      (htrailing : ∀ c ∈ trailing, Text.isBlank c = true) :
      ShowsLine (leading ++ (line ++ trailing ++ more)) line

variable {unread line : Text}

theorem exists_dropTrailingBlanks (text : Text) :
    ∃ trailing, text = text.dropTrailingBlanks ++ trailing ∧
      (∀ c ∈ text.dropTrailingBlanks.getLast?, Text.isBlank c = false) ∧
      ∀ c ∈ trailing, Text.isBlank c = true := by
  refine ⟨(text.reverse.takeWhile Text.isBlank).reverse, ?_, ?_, ?_⟩
  · have hsplit := List.takeWhile_append_dropWhile (p := Text.isBlank) (l := text.reverse)
    rw [Text.dropTrailingBlanks, Text.dropBlanks, ← List.reverse_append, hsplit,
      List.reverse_reverse]
  · rw [Text.dropTrailingBlanks, List.getLast?_reverse]
    exact dropWhile_head? Text.isBlank text.reverse
  · intro c hc
    exact of_mem_takeWhile (List.mem_reverse.mp hc)

theorem showsLine_unreadLine (unread : Text) : ShowsLine unread (unreadLine unread) := by
  obtain ⟨trailing, hfirst, hlast, htrailing⟩ :=
    exists_dropTrailingBlanks (Text.firstLine (Text.dropBlanks unread))
  rw [← unreadLine] at hfirst hlast
  have hunread : unread = unread.takeWhile Text.isBlank ++ Text.dropBlanks unread :=
    List.takeWhile_append_dropWhile.symm
  have hsplit : Text.dropBlanks unread = unreadLine unread ++ trailing ++
      (Text.dropBlanks unread).dropWhile fun c => c != '\n' := by
    rw [← hfirst]
    exact List.takeWhile_append_dropWhile.symm
  have hleading : ∀ c ∈ unread.takeWhile Text.isBlank, Text.isBlank c = true :=
    fun c => of_mem_takeWhile
  have hhead := dropWhile_head? Text.isBlank unread
  rw [← Text.dropBlanks, hsplit] at hhead
  have hline : ∀ c ∈ unreadLine unread ++ trailing, c ≠ '\n' := by
    intro c hc
    rw [← hfirst, Text.firstLine] at hc
    exact bne_iff_ne.mp (of_mem_takeWhile (p := fun c => c != '\n') hc)
  have hmore : ∀ c ∈ ((Text.dropBlanks unread).dropWhile fun c => c != '\n').head?,
      c = '\n' := by
    intro c hc
    exact bne_eq_false_iff_eq.mp (dropWhile_head? _ _ c hc)
  have hshows := ShowsLine.intro hleading hhead hline hmore hlast htrailing
  rwa [← hsplit, ← hunread] at hshows

/-- An unread text shows no other line first. -/
theorem ShowsLine.eq_unreadLine (h : ShowsLine unread line) : line = unreadLine unread := by
  cases h with
  | @intro leading line trailing more hleading hhead hline hmore hlast htrailing =>
      have hline' : ∀ c ∈ line ++ trailing, (c != '\n') = true :=
        fun c hc => bne_iff_ne.mpr (hline c hc)
      have hmore' : ∀ c ∈ more.head?, (c != '\n') = false :=
        fun c hc => bne_eq_false_iff_eq.mpr (hmore c hc)
      have hlast' : ∀ c ∈ line.reverse.head?, Text.isBlank c = false := by
        rwa [List.head?_reverse]
      have htrailing' : ∀ c ∈ trailing.reverse, Text.isBlank c = true :=
        fun c hc => htrailing c (List.mem_reverse.mp hc)
      rw [unreadLine, Text.dropBlanks, dropWhile_append_of_head? hleading hhead, Text.firstLine,
        takeWhile_append_of_head? hline' hmore', Text.dropTrailingBlanks, Text.dropBlanks,
        List.reverse_append, dropWhile_append_of_head? htrailing' hlast', List.reverse_reverse]

/-- The complaint says that the input has ended exactly if the line is empty. -/
theorem complaint_eq_end_iff :
    complaint unread = "unexpected end of input" ↔ unreadLine unread = [] := by
  rw [complaint, ← List.isEmpty_iff]
  split
  · rename_i hempty
    exact iff_of_true rfl hempty
  · rename_i hempty
    refine iff_of_false ?_ hempty
    intro heq
    split at heq
    · have htext := congrArg String.toList heq
      simp at htext
    · have htext := congrArg String.toList heq
      simp at htext

/-- Otherwise the complaint quotes the line, or the beginning of a long one. -/
theorem complaint_of_ne_nil (h : unreadLine unread ≠ []) :
    complaint unread = "unexpected input: " ++ String.ofList ((unreadLine unread).take 32) ++
      if 32 < (unreadLine unread).length then "..." else "" := by
  have hempty : ¬ (unreadLine unread).isEmpty = true := by rwa [List.isEmpty_iff]
  rw [complaint, if_neg hempty, excerptLength]
  by_cases hlong : 32 < (unreadLine unread).length
  · simp only [if_pos hlong]
  · simp only [if_neg hlong, List.take_of_length_le (Nat.le_of_not_lt hlong),
      String.append_empty]

/-- The part of a text that is read is a script on its own, and what is left begins no rule. -/
theorem exists_of_readOpening {script : Script} (h : readOpening text = (script, unread)) :
    readRule unread = none ∧
      ∃ accepted, text = accepted ++ unread ∧ readOpening accepted = (script, []) := by
  obtain ⟨lexemes, rest, hscans, hscript, hunread, hnone⟩ := scans_readOpening text
  rw [h] at hscript hunread
  dsimp only at hscript hunread
  have hsuffix := skip_suffix rest
  have htail := isSpacing_head_skip rest
  have hskipped := readRule_skip_eq_none hnone
  rw [← hunread] at hsuffix htail hskipped
  obtain ⟨more, rfl⟩ := hsuffix
  obtain ⟨accepted, rfl⟩ := (List.suffix_append more unread).trans hscans.suffix
  have hend : skip more = [] := skip_of_append htail (by decide) hunread.symm
  exact ⟨hskipped, accepted, rfl,
    readOpening_eq_iff.mpr ⟨lexemes, more, hscans.of_append htail, hend, hscript⟩⟩

/-- A text that is not read falls into a script and what begins no rule, and the complaint
quotes the line that the latter shows first. -/
theorem complaint_quotes_unread {text : Text} {error : Error}
    (h : Script.read text = .error error) :
    ∃ accepted unread message, text = accepted ++ unread ∧ unread ≠ [] ∧
      (∃ script, Script.read accepted = .ok script) ∧ readRule unread = none ∧
      error = .unreadable message ∧ (∃ line, ShowsLine unread line) ∧
      ∀ line, ShowsLine unread line →
        (message = "unexpected end of input" ↔ line = []) ∧
        (line ≠ [] → message = "unexpected input: " ++ String.ofList (line.take 32) ++
          if 32 < line.length then "..." else "") := by
  rw [Script.read] at h
  split at h
  · cases h
  · rename_i script unread hne hopening
    cases h
    obtain ⟨hnone, accepted, htext, haccepted⟩ := exists_of_readOpening hopening
    refine ⟨accepted, unread, complaint unread, htext, fun hnil => hne hnil,
      ⟨script, read_eq_ok_iff_readOpening.mpr haccepted⟩, hnone, rfl,
      ⟨unreadLine unread, showsLine_unreadLine unread⟩, ?_⟩
    intro line hline
    rw [hline.eq_unreadLine]
    exact ⟨complaint_eq_end_iff, complaint_of_ne_nil⟩

/-- The rule in front is a script together with its comment, and the complaint is about the
next line. -/
theorem complaint_quotes_unread_comment :
    Script.read ['A', ' ', '-', '>', ';', '#', ';', '\n', 'B', ';'] =
        .error (.unreadable "unexpected input: B;") ∧
      ∃ accepted unread,
        ['A', ' ', '-', '>', ';', '#', ';', '\n', 'B', ';'] = accepted ++ unread ∧
          unread ≠ [] ∧ (∃ script, Script.read accepted = .ok script) ∧
          readRule unread = none := by
  have hread : Script.read ['A', ' ', '-', '>', ';', '#', ';', '\n', 'B', ';'] =
      .error (.unreadable "unexpected input: B;") := by decide +kernel
  obtain ⟨accepted, unread, _, htext, hne, haccepted, hnone, _⟩ := complaint_quotes_unread hread
  exact ⟨hread, accepted, unread, htext, hne, haccepted, hnone⟩

end Script
end PhraseStructure
