import ParamClass.Proofs.Marks
import ParamClass.Xml.Document

/-!
# The grammar of markup that leaves nothing behind

Names, comments, processing instructions and what may stand around a root element, each as a set of
texts. For each there is one statement about its reader: reading succeeds exactly when the text
starts with an element of the set, and what is left is what follows it. No set mentions what
follows; only a name has to be the longest one, so what follows it may not go on with it.
-/

namespace ParamClass.Xml

open Text

/-! ## Names and spaces -/

/-- A text that is a name: a name start, and name characters after it. -/
structure IsName (s : List Char) : Prop where
  /-- The first character starts a name. -/
  start : ∃ c ∈ s.head?, isNameStart c = true
  /-- Every character may stand in a name. -/
  chars : ∀ c ∈ s, isNameChar c = true

instance (s : List Char) : Decidable (IsName s) :=
  decidable_of_iff (s.head?.any isNameStart = true ∧ s.all isNameChar = true) <| by
    rw [Option.any_eq_true, List.all_eq_true]
    exact ⟨fun h => ⟨h.1, h.2⟩, fun h => ⟨h.start, h.chars⟩⟩

/-- A text of spaces only. -/
def IsSpaces (s : List Char) : Prop := ∀ c ∈ s, isSpace c = true

/-- No spaces. -/
theorem isSpaces_nil : IsSpaces [] := by simp [IsSpaces]

/-- One space. -/
theorem isSpaces_space : IsSpaces [' '] := by simp [IsSpaces, isSpace]

/-- No character that markup puts behind a name or around a part may stand in a name. -/
theorem isNameChar_eq_false {c : Char}
    (h : c ∈ [' ', '\t', '\r', '\n', '=', '/', '>', '?', '<', '&', '"', '\'', '[', ']']) :
    isNameChar c = false := by
  have hall : [' ', '\t', '\r', '\n', '=', '/', '>', '?', '<', '&', '"', '\'', '[', ']'].all
      (!isNameChar ·) = true := by
    decide +kernel
  rw [← Bool.not_eq_true']
  exact List.all_eq_true.1 hall c h

/-- A space may not stand in a name. -/
theorem isNameChar_of_isSpace {c : Char} (h : isSpace c = true) : isNameChar c = false := by
  rw [isSpace, Bool.or_eq_true, Bool.or_eq_true, Bool.or_eq_true, beq_iff_eq, beq_iff_eq, beq_iff_eq,
    beq_iff_eq] at h
  apply isNameChar_eq_false
  rcases h with ((rfl | rfl) | rfl) | rfl <;> simp

/-- A character of a name is none that may not stand in one. -/
theorem ne_of_isNameChar {c d : Char} (hc : isNameChar c = true) (hd : isNameChar d = false) : d ≠ c := by
  rintro rfl
  rw [hd] at hc
  exact absurd hc (by simp)

/-- A character of a name is no space. -/
theorem isSpace_of_isNameChar {c : Char} (hc : isNameChar c = true) : isSpace c = false := by
  rw [Bool.eq_false_iff]
  intro hspace
  exact ne_of_isNameChar hc (isNameChar_of_isSpace hspace) rfl

/-- Spaces hold no less-than sign. -/
theorem IsSpaces.not_mem {sp : List Char} (h : IsSpaces sp) : '<' ∉ sp :=
  fun hmem => absurd (h '<' hmem) (by decide)

/-- A name holds no character that may not stand in one. -/
theorem IsName.not_mem {s : List Char} {c : Char} (h : IsName s) (hc : isNameChar c = false) : c ∉ s :=
  fun hmem => ne_of_isNameChar (h.chars c hmem) hc rfl

/-- A name is a character that starts one and more. -/
theorem IsName.exists_cons {s : List Char} (h : IsName s) :
    ∃ c r, s = c :: r ∧ isNameStart c = true := by
  obtain ⟨c, hc, hstart⟩ := h.start
  rcases s with _ | ⟨d, r⟩
  · exact absurd hc (by simp)
  · obtain rfl : d = c := by simpa using hc
    exact ⟨d, r, rfl, hstart⟩

/-- Spaces, and after them a text that goes on with no name, go on with no name. -/
theorem IsSpaces.stops_isNameChar {sp rest : List Char} (h : IsSpaces sp)
    (hrest : Stops isNameChar rest) : Stops isNameChar (sp ++ rest) := by
  rw [stops_append hrest]
  intro c hc
  exact isNameChar_of_isSpace (h c (List.mem_of_head? hc))

/-- Reading a name takes the longest one: it is a name, and what follows does not go on with it. -/
theorem readName_eq_ok_iff {s rest : List Char} {name : String} :
    readName s = .ok (name, rest) ↔
      IsName name.toList ∧ Stops isNameChar rest ∧ s = name.toList ++ rest := by
  constructor
  · intro h
    rcases s with _ | ⟨c, s⟩
    · exact absurd h (by simp [readName])
    · rw [readName] at h
      split_ifs at h with hc
      obtain ⟨rfl, hrest⟩ := Prod.mk.inj (Except.ok.inj h)
      obtain ⟨hs, hrun, hstop⟩ := takeWhile_dropWhile_eq_iff.1 ⟨rfl, hrest⟩
      rw [String.toList_ofList]
      refine ⟨⟨⟨c, ?_, hc⟩, hrun⟩, hstop, hs⟩
      rw [List.takeWhile_cons_of_pos (isNameChar_of_isNameStart hc)]
      rfl
  · rintro ⟨hname, hstop, rfl⟩
    obtain ⟨c, r, hcr, hstart⟩ := hname.exists_cons
    obtain ⟨htake, hdrop⟩ := takeWhile_dropWhile_eq_iff.2 ⟨rfl, hname.chars, hstop⟩
    rw [hcr, List.cons_append] at htake hdrop ⊢
    rw [readName, if_pos hstart, htake, hdrop, ← hcr, String.ofList_toList]

/-- Spaces in front of a text are skipped. -/
theorem skipSpace_append {sp : List Char} (h : IsSpaces sp) (s : List Char) :
    skipSpace (sp ++ s) = skipSpace s :=
  List.dropWhile_append_of_pos h

/-- Spaces alone are skipped. -/
theorem skipSpace_eq_nil {sp : List Char} (h : IsSpaces sp) : skipSpace sp = [] := by
  rw [← List.append_nil sp, skipSpace_append h]
  rfl

/-- Nothing is skipped in front of a text that does not start with a space. -/
theorem skipSpace_of_stops {s : List Char} (h : Stops isSpace s) : skipSpace s = s := by
  have hrun : ∀ c ∈ ([] : List Char), isSpace c = true := by simp
  exact (takeWhile_dropWhile_eq_iff.2 ⟨rfl, hrun, h⟩).2

/-- Spaces before a character that is none are skipped. -/
theorem skipSpace_spaces_cons {sp : List Char} (hsp : IsSpaces sp) {c : Char}
    (hc : isSpace c = false) (rest : List Char) : skipSpace (sp ++ c :: rest) = c :: rest := by
  rw [skipSpace_append hsp]
  exact skipSpace_of_stops (stops_cons.2 hc)

/-- What is skipped are spaces, and what is left starts with no space. -/
theorem exists_spaces (s : List Char) :
    ∃ sp, IsSpaces sp ∧ Stops isSpace (skipSpace s) ∧ s = sp ++ skipSpace s := by
  obtain ⟨hs, hsp, hstop⟩ := takeWhile_dropWhile_eq_iff.1 ⟨rfl, rfl⟩
  exact ⟨s.takeWhile isSpace, hsp, hstop, hs⟩

/-! ## Comments and instructions -/

/-- A comment: its body has no two hyphens in a row and does not end in one. -/
def CommentText (t : List Char) : Prop :=
  ∃ body, ¬ ['-', '-'] <:+: body ∧ ¬ ['-'] <:+ body ∧ t = commentMark ++ body ++ ['-', '-', '>']

/-- A processing instruction: the longest name, and data up to the first `?>`. -/
def InstructionText (target : String) (t : List Char) : Prop :=
  ∃ data, IsName target.toList ∧ Stops isNameChar data ∧ ¬ ['?', '>'] <:+: data ∧
    t = instructionMark ++ target.toList ++ data ++ ['?', '>']

/-- Two hyphens after a text are its first ones when the text has none in a row and does not end in
one. -/
theorem not_hyphens_infix_concat {s : List Char} :
    ¬ ['-', '-'] <:+: s ++ ['-'] ↔ ¬ ['-', '-'] <:+: s ∧ ¬ ['-'] <:+ s := by
  rw [List.infix_concat_iff, not_or, and_comm, show ['-', '-'] = ['-'] ++ ['-'] from rfl,
    List.suffix_append_self_iff]

/-- Reading a comment succeeds exactly on a comment and what follows it. -/
theorem readComment_eq_ok_iff {start s rest : List Char} :
    readComment start s = .ok rest ↔ ∃ t, CommentText t ∧ commentMark ++ s = t ++ rest := by
  have hcut : ∀ body r, cut? ['-', '-'] s = some (body, r) ↔
      s = body ++ ['-', '-'] ++ r ∧ ¬ ['-', '-'] <:+: body ∧ ¬ ['-'] <:+ body := by
    intro body r
    rw [← not_hyphens_infix_concat]
    exact cut?_eq_some_iff (by simp)
  constructor
  · intro h
    unfold readComment at h
    split at h
    · exact absurd h (by simp)
    · next body r hc =>
      obtain rfl := Except.ok.inj h
      obtain ⟨rfl, h1, h2⟩ := (hcut _ _).1 hc
      exact ⟨_, ⟨body, h1, h2, rfl⟩, by simp⟩
    · exact absurd h (by simp)
  · rintro ⟨t, ⟨body, h1, h2, rfl⟩, hs⟩
    rw [List.append_assoc, List.append_assoc, List.append_cancel_left_eq] at hs
    rw [readComment, (hcut body ('>' :: rest)).2 ⟨by simp [hs], h1, h2⟩]
    rfl

/-- Reading an instruction succeeds exactly on an instruction and what follows it. -/
theorem readInstruction_eq_ok_iff {start s rest : List Char} {target : String} :
    readInstruction start s = .ok (target, rest) ↔
      ∃ t, InstructionText target t ∧ instructionMark ++ s = t ++ rest := by
  have hcut : ∀ s data r, cut? ['?', '>'] s = some (data, r) ↔
      s = data ++ ['?', '>'] ++ r ∧ ¬ ['?', '>'] <:+: data :=
    fun s data r => cut?_eq_some_iff_of_last (by simp) (by decide)
  -- The end of the instruction goes on with no name, so it is up to the data alone.
  have hstop : ∀ data : List Char, Stops isNameChar (data ++ (['?', '>'] ++ rest)) ↔
      Stops isNameChar data :=
    fun data => stops_append (stops_cons.2 (isNameChar_eq_false (by simp)))
  constructor
  · intro h
    unfold readInstruction at h
    split at h
    · exact absurd h (by simp)
    · next name data hn =>
      split at h
      · exact absurd h (by simp)
      · next body r hc =>
        obtain ⟨rfl, rfl⟩ := Prod.mk.inj (Except.ok.inj h)
        obtain ⟨hname, hs, rfl⟩ := readName_eq_ok_iff.1 hn
        obtain ⟨rfl, hbody⟩ := (hcut _ _ _).1 hc
        rw [List.append_assoc, hstop] at hs
        exact ⟨_, ⟨body, hname, hs, hbody, rfl⟩, by simp⟩
  · rintro ⟨t, ⟨data, hname, hs, hbody, rfl⟩, h⟩
    rw [List.append_assoc, List.append_assoc, List.append_assoc, List.append_cancel_left_eq] at h
    rw [readInstruction, readName_eq_ok_iff.2 ⟨hname, (hstop data).2 hs, h⟩]
    dsimp only
    rw [(hcut _ data rest).2 ⟨by rw [List.append_assoc], hbody⟩]

/-- Reading an instruction where no declaration may stand succeeds exactly on one that is none. -/
theorem readPlainInstruction_eq_ok_iff {start s rest : List Char} :
    readPlainInstruction start s = .ok rest ↔
      ∃ target t, InstructionText target t ∧ isDeclaration target = false ∧
        instructionMark ++ s = t ++ rest := by
  constructor
  · intro h
    unfold readPlainInstruction at h
    split at h
    · exact absurd h (by simp)
    · next target r hr =>
      split_ifs at h with hx
      obtain rfl := Except.ok.inj h
      obtain ⟨t, ht, hs⟩ := readInstruction_eq_ok_iff.1 hr
      exact ⟨target, t, ht, by simpa using hx, hs⟩
  · rintro ⟨target, t, ht, hx, hs⟩
    rw [readPlainInstruction, readInstruction_eq_ok_iff.2 ⟨t, ht, hs⟩]
    dsimp only
    rw [hx]
    rfl

/-! ## Around the root element -/

/-- What may stand before and after a root element: spaces, comments and instructions that are no
XML declaration. -/
inductive MiscText : List Char → Prop where
  /-- Nothing. -/
  | nil : MiscText []
  /-- A space. -/
  | space {c s} (hc : isSpace c = true) (hs : MiscText s) : MiscText (c :: s)
  /-- A comment. -/
  | comment {t s} (ht : CommentText t) (hs : MiscText s) : MiscText (t ++ s)
  /-- An instruction. -/
  | instruction {target t s} (ht : InstructionText target t) (hx : isDeclaration target = false)
      (hs : MiscText s) : MiscText (t ++ s)

/-- The text does not go on with a space, a comment or an instruction. -/
structure NoMisc (s : List Char) : Prop where
  /-- It starts with no space. -/
  space : Stops isSpace s
  /-- It starts with no comment. -/
  comment : after? commentMark s = none
  /-- It starts with no instruction. -/
  instruction : after? instructionMark s = none

/-- A comment is its mark and more. -/
theorem CommentText.exists_eq {t : List Char} (h : CommentText t) : ∃ r, t = commentMark ++ r := by
  obtain ⟨body, -, -, rfl⟩ := h
  exact ⟨_, List.append_assoc _ _ _⟩

/-- An instruction is its mark and more. -/
theorem InstructionText.exists_eq {target : String} {t : List Char} (h : InstructionText target t) :
    ∃ r, t = instructionMark ++ r := by
  obtain ⟨data, -, -, -, rfl⟩ := h
  exact ⟨target.toList ++ data ++ ['?', '>'], by simp⟩

/-- Skipping depends on the text after its leading spaces only. -/
theorem skipMisc_congr {s t : List Char} (h : skipSpace s = skipSpace t) : skipMisc s = skipMisc t := by
  rw [skipMisc, skipMisc, h]

/-- Skipping goes past a comment. -/
theorem skipMisc_comment {t : List Char} (ht : CommentText t) (s : List Char) :
    skipMisc (t ++ s) = skipMisc s := by
  obtain ⟨r, rfl⟩ := ht.exists_eq
  rw [List.append_assoc]
  have hspace : skipSpace (commentMark ++ (r ++ s)) = commentMark ++ (r ++ s) :=
    skipSpace_of_stops (stops_cons.2 (by decide))
  have hread : readComment (commentMark ++ (r ++ s)) (r ++ s) = .ok s :=
    readComment_eq_ok_iff.2 ⟨_, ht, (List.append_assoc _ _ _).symm⟩
  rw [skipMisc, hspace, after?_append]
  dsimp only
  rw [hread]

/-- Skipping goes past an instruction that is no declaration. -/
theorem skipMisc_instruction {target : String} {t : List Char} (ht : InstructionText target t)
    (hx : isDeclaration target = false) (s : List Char) : skipMisc (t ++ s) = skipMisc s := by
  obtain ⟨r, rfl⟩ := ht.exists_eq
  rw [List.append_assoc]
  have hspace : skipSpace (instructionMark ++ (r ++ s)) = instructionMark ++ (r ++ s) :=
    skipSpace_of_stops (stops_cons.2 (by decide))
  have hmark : after? commentMark (instructionMark ++ (r ++ s)) = none := rfl
  have hread : readPlainInstruction (instructionMark ++ (r ++ s)) (r ++ s) = .ok s :=
    readPlainInstruction_eq_ok_iff.2 ⟨target, _, ht, hx, (List.append_assoc _ _ _).symm⟩
  rw [skipMisc, hspace, hmark]
  dsimp only
  rw [after?_append]
  dsimp only
  rw [hread]

/-- Skipping goes past all that may be skipped. -/
theorem MiscText.skipMisc_append {m : List Char} (hm : MiscText m) (s : List Char) :
    skipMisc (m ++ s) = skipMisc s := by
  induction hm with
  | nil => rfl
  | @space c m hc _ ih =>
    rw [← ih]
    apply skipMisc_congr
    rw [List.cons_append, skipSpace, List.dropWhile_cons_of_pos hc]
    rfl
  | comment ht _ ih => rw [List.append_assoc, skipMisc_comment ht, ih]
  | instruction ht hx _ ih => rw [List.append_assoc, skipMisc_instruction ht hx, ih]

/-- Where nothing is to be skipped, nothing is. -/
theorem NoMisc.skipMisc {s : List Char} (h : NoMisc s) : skipMisc s = .ok s := by
  rw [Xml.skipMisc, skipSpace_of_stops h.space, h.comment]
  dsimp only
  rw [h.instruction]

/-- Twice what may be skipped may be skipped. -/
theorem MiscText.append {m m' : List Char} (hm : MiscText m) (hm' : MiscText m') :
    MiscText (m ++ m') := by
  induction hm with
  | nil => exact hm'
  | space hc _ ih => exact .space hc ih
  | comment ht _ ih => rw [List.append_assoc]; exact .comment ht ih
  | instruction ht hx _ ih => rw [List.append_assoc]; exact .instruction ht hx ih

/-- Spaces may be skipped, and more after them. -/
theorem MiscText.spaces_append {sp m : List Char} (hsp : IsSpaces sp) (hm : MiscText m) :
    MiscText (sp ++ m) := by
  induction sp with
  | nil => exact hm
  | cons c sp ih =>
    rw [IsSpaces, List.forall_mem_cons] at hsp
    exact .space hsp.1 (ih hsp.2)

/-- What is skipped may be skipped, and what is left does not go on with more of it. -/
theorem exists_misc {s rest : List Char} (h : skipMisc s = .ok rest) :
    ∃ m, MiscText m ∧ NoMisc rest ∧ s = m ++ rest := by
  fun_induction skipMisc s with
  | case1 => exact absurd h (by simp)
  | case2 s r hr next hn ih =>
    -- A comment after some spaces, and then what the rest of the text has to be skipped.
    obtain ⟨sp, hsp, -, hs⟩ := exists_spaces s
    obtain ⟨m, hm, hstop, rfl⟩ := ih h
    obtain ⟨t, ht, heq⟩ := readComment_eq_ok_iff.1 hn
    refine ⟨sp ++ (t ++ m), .spaces_append hsp (.comment ht hm), hstop, ?_⟩
    rw [hs, after?_eq_some.1 hr, heq]
    simp
  | case3 => exact absurd h (by simp)
  | case4 s _ r hr next hn ih =>
    obtain ⟨sp, hsp, -, hs⟩ := exists_spaces s
    obtain ⟨m, hm, hstop, rfl⟩ := ih h
    obtain ⟨target, t, ht, hx, heq⟩ := readPlainInstruction_eq_ok_iff.1 hn
    refine ⟨sp ++ (t ++ m), .spaces_append hsp (.instruction ht hx hm), hstop, ?_⟩
    rw [hs, after?_eq_some.1 hr, heq]
    simp
  | case5 s hc hi =>
    obtain ⟨sp, hsp, hstop, hs⟩ := exists_spaces s
    obtain rfl := Except.ok.inj h
    refine ⟨sp, ?_, ⟨hstop, hc, hi⟩, hs⟩
    rw [← List.append_nil sp]
    exact .spaces_append hsp .nil

/-- Skipping succeeds exactly on what may be skipped and a text that does not go on with it. -/
theorem skipMisc_eq_ok_iff {s rest : List Char} :
    skipMisc s = .ok rest ↔ ∃ m, MiscText m ∧ NoMisc rest ∧ s = m ++ rest := by
  constructor
  · exact exists_misc
  · rintro ⟨m, hm, hstop, rfl⟩
    rw [hm.skipMisc_append, hstop.skipMisc]

/-- What may stand around a root element ends with a space, a comment or an instruction. -/
theorem MiscText.exists_last {m : List Char} (hm : MiscText m) (hne : m ≠ []) :
    ∃ t, t <:+ m ∧
      ((∃ c, isSpace c = true ∧ t = [c]) ∨ CommentText t ∨ ∃ target, InstructionText target t) := by
  induction hm with
  | nil => exact absurd rfl hne
  | @space c s hc _ ih =>
    by_cases hs : s = []
    · exact ⟨[c], by rw [hs], .inl ⟨c, hc, rfl⟩⟩
    · obtain ⟨t, ht, hlast⟩ := ih hs
      exact ⟨t, ht.trans (List.suffix_cons c s), hlast⟩
  | @comment t s ht _ ih =>
    by_cases hs : s = []
    · exact ⟨t, by rw [hs, List.append_nil], .inr (.inl ht)⟩
    · obtain ⟨u, hu, hlast⟩ := ih hs
      exact ⟨u, List.suffix_append_of_suffix hu, hlast⟩
  | @instruction target t s ht _ _ ih =>
    by_cases hs : s = []
    · exact ⟨t, by rw [hs, List.append_nil], .inr (.inr ⟨target, ht⟩)⟩
    · obtain ⟨u, hu, hlast⟩ := ih hs
      exact ⟨u, List.suffix_append_of_suffix hu, hlast⟩

/-- What may stand around a root element ends with a space, the end of a comment or the end of an
instruction. -/
theorem MiscText.exists_suffix {m : List Char} (hm : MiscText m) (hne : m ≠ []) :
    (∃ c, isSpace c = true ∧ [c] <:+ m) ∨ ['-', '-', '>'] <:+ m ∨ ['?', '>'] <:+ m := by
  obtain ⟨t, ht, ⟨c, hc, rfl⟩ | ⟨body, -, -, rfl⟩ | ⟨target, data, -, -, -, rfl⟩⟩ :=
    hm.exists_last hne
  · exact .inl ⟨c, hc, ht⟩
  · exact .inr (.inl ((List.suffix_append _ _).trans ht))
  · exact .inr (.inr ((List.suffix_append _ _).trans ht))

end ParamClass.Xml
