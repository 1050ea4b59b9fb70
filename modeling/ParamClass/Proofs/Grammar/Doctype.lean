import ParamClass.Proofs.Grammar.Document

/-!
# The grammar of document type declarations

A document type declaration names the root element. It may point to an external subset and hold an
internal one, in square brackets: declarations, references to parameter entities, comments and
instructions. `DoctypeText` is the set of these texts. The reader looks at quotes, square brackets
and `>` alone, and `SkippedDoctype` is the set of the texts that it takes for a whole declaration.

The two differ in what a comment or an instruction may hold. There a quote opens no literal and a
bracket no subset, but the reader takes them as if they did. So a declaration may stand in front of
a document exactly when its comments and instructions leave the count of quotes and brackets right
(`standsBefore_iff_skippedDoctype`); with no such character in them they do.
-/

namespace ParamClass.Xml

open Text

/-! ## The grammar -/

/-- A quoted literal, which may hold anything but its own quote. -/
def LiteralText (t : List Char) : Prop :=
  ∃ quote s, (quote = '"' ∨ quote = '\'') ∧ quote ∉ s ∧ t = quote :: s ++ [quote]

/-- Quoted literals, and characters of a class around them. -/
inductive ClauseText (p : Char → Bool) : List Char → Prop where
  /-- Nothing. -/
  | nil : ClauseText p []
  /-- A character of the class. -/
  | char {c s} (hc : p c = true) (hs : ClauseText p s) : ClauseText p (c :: s)
  /-- A quoted literal. -/
  | literal {t s} (ht : LiteralText t) (hs : ClauseText p s) : ClauseText p (t ++ s)

/-- `c` is no quote and no square bracket. -/
def isQuiet (c : Char) : Bool := ['"', '\'', '[', ']'].all (c != ·)

/-- `c` is no quote, no square bracket and no `>`. -/
def isPlain (c : Char) : Bool := isQuiet c && c != '>'

/-- A declaration of an internal subset: literals, and plain characters around them. -/
def DeclarationText (t : List Char) : Prop :=
  ∃ keyword s, keyword ∈ ["ELEMENT", "ATTLIST", "ENTITY", "NOTATION"] ∧ ClauseText isPlain s ∧
    t = ['<', '!'] ++ keyword.toList ++ s ++ ['>']

/-- The text of an internal subset; `asides` are its comments and instructions. -/
inductive SubsetText : (asides : List (List Char)) → List Char → Prop where
  /-- Nothing. -/
  | nil : SubsetText [] []
  /-- A space. -/
  | space {asides c s} (hc : isSpace c = true) (hs : SubsetText asides s) : SubsetText asides (c :: s)
  /-- A declaration. -/
  | declaration {asides t s} (ht : DeclarationText t) (hs : SubsetText asides s) :
      SubsetText asides (t ++ s)
  /-- A reference to a parameter entity. -/
  | reference {asides name s} (hname : IsName name) (hs : SubsetText asides s) :
      SubsetText asides (['%'] ++ name ++ [';'] ++ s)
  /-- A comment. -/
  | comment {asides t s} (ht : CommentText t) (hs : SubsetText asides s) :
      SubsetText (t :: asides) (t ++ s)
  /-- An instruction. -/
  | instruction {asides target t s} (ht : InstructionText target t) (hs : SubsetText asides s) :
      SubsetText (t :: asides) (t ++ s)

/-- The name of the root element, with spaces around it, and where an external subset is found. -/
def DoctypeHead (t : List Char) : Prop :=
  ∃ sp name external sp', IsSpaces sp ∧ sp ≠ [] ∧ IsName name ∧
    (external = [] ∨ ∃ sp keyword s, IsSpaces sp ∧ sp ≠ [] ∧ keyword ∈ ["SYSTEM", "PUBLIC"] ∧
      ClauseText isSpace s ∧ external = sp ++ keyword.toList ++ s) ∧
    IsSpaces sp' ∧ t = sp ++ name ++ external ++ sp'

/-- A document type declaration; `asides` are the comments and instructions in it. -/
inductive DoctypeText : (asides : List (List Char)) → List Char → Prop where
  /-- Without an internal subset. -/
  | plain {head} (hhead : DoctypeHead head) : DoctypeText [] (doctypeMark ++ head ++ ['>'])
  /-- With an internal subset. -/
  | subset {asides head s sp} (hhead : DoctypeHead head) (hs : SubsetText asides s)
      (hsp : IsSpaces sp) :
      DoctypeText asides (doctypeMark ++ (head ++ ['['] ++ s ++ [']'] ++ sp) ++ ['>'])

/-! ## What the reader goes past -/

/-- What the reader goes past inside `depth` square brackets, up to the `>` that ends the
declaration: every quote opens a literal, and a `]` with nothing open is a character like others. -/
inductive SkippedText : (depth : Nat) → List Char → Prop where
  /-- Nothing, when no bracket is open. -/
  | nil : SkippedText 0 []
  /-- A quoted literal. -/
  | literal {depth t s} (ht : LiteralText t) (hs : SkippedText depth s) : SkippedText depth (t ++ s)
  /-- An opening bracket. -/
  | opening {depth s} (hs : SkippedText (depth + 1) s) : SkippedText depth ('[' :: s)
  /-- A closing bracket. -/
  | closing {depth s} (hs : SkippedText (depth - 1) s) : SkippedText depth (']' :: s)
  /-- Another character, which is no `>` when no bracket is open. -/
  | char {depth c s} (hc : isQuiet c = true) (hend : c = '>' → depth ≠ 0)
      (hs : SkippedText depth s) : SkippedText depth (c :: s)

/-- What the reader takes for a document type declaration. -/
def SkippedDoctype (d : List Char) : Prop :=
  ∃ body, SkippedText 0 body ∧ d = doctypeMark ++ body ++ ['>']

/-- A quiet character is none of the four that count. -/
theorem isQuiet_eq_true_iff {c : Char} :
    isQuiet c = true ↔ c ≠ '"' ∧ c ≠ '\'' ∧ c ≠ '[' ∧ c ≠ ']' := by
  simp [isQuiet]

/-- A plain character is quiet and does not end a declaration. -/
theorem isPlain_eq_true_iff {c : Char} : isPlain c = true ↔ isQuiet c = true ∧ c ≠ '>' := by
  simp [isPlain]

/-- A plain character is quiet. -/
theorem isQuiet_of_isPlain (c : Char) (h : isPlain c = true) : isQuiet c = true :=
  (isPlain_eq_true_iff.1 h).1

/-- Inside a literal, skipping goes on behind its quote. -/
theorem skipDoctype_quote {quote : Char} {t : List Char} (ht : quote ∉ t) (depth : Nat)
    (s : List Char) :
    skipDoctype depth (some quote) (t ++ quote :: s) = skipDoctype depth none s := by
  induction t with
  | nil => rw [List.nil_append, skipDoctype, if_pos rfl]
  | cons c t ih =>
    rw [List.mem_cons, not_or] at ht
    rw [List.cons_append, skipDoctype, if_neg (Ne.symm ht.1), ih ht.2]

/-- Inside a literal whose quote is missing, there is no end. -/
theorem skipDoctype_of_not_mem {quote : Char} {s : List Char} (hs : quote ∉ s) (depth : Nat) :
    skipDoctype depth (some quote) s = none := by
  induction s with
  | nil => rfl
  | cons c s ih =>
    rw [List.mem_cons, not_or] at hs
    rw [skipDoctype, if_neg (Ne.symm hs.1), ih hs.2]

/-- Skipping goes past a literal. -/
theorem LiteralText.skipDoctype_append {t : List Char} (ht : LiteralText t) (depth : Nat)
    (s : List Char) : skipDoctype depth none (t ++ s) = skipDoctype depth none s := by
  obtain ⟨quote, body, hquote, hbody, rfl⟩ := ht
  rw [List.cons_append, List.cons_append, List.append_assoc, skipDoctype, if_pos hquote]
  exact skipDoctype_quote hbody depth s

/-- Outside of literals, skipping goes past a quiet character that does not end the declaration. -/
theorem skipDoctype_char {depth : Nat} {c : Char} (hc : isQuiet c = true)
    (hend : c = '>' → depth ≠ 0) (s : List Char) :
    skipDoctype depth none (c :: s) = skipDoctype depth none s := by
  obtain ⟨h1, h2, h3, h4⟩ := isQuiet_eq_true_iff.1 hc
  rw [skipDoctype, if_neg (by simp [h1, h2]), if_neg h3, if_neg h4, if_neg (fun h => hend h.1 h.2)]

/-- Skipping goes past what the reader goes past, and then past the `>` that ends it. -/
theorem SkippedText.skipDoctype_append {depth : Nat} {t : List Char} (ht : SkippedText depth t)
    (rest : List Char) : skipDoctype depth none (t ++ '>' :: rest) = some rest := by
  induction ht with
  | nil => rfl
  | literal ht _ ih => rw [List.append_assoc, ht.skipDoctype_append, ih]
  | opening _ ih => exact ih
  | closing _ ih => exact ih
  | char hc hend _ ih => rw [List.cons_append, skipDoctype_char hc hend, ih]

/-- Skipping comes to an end only behind what the reader goes past and a `>`. The induction is on the
length of the text, because a literal is left behind in one move. -/
theorem exists_skippedText {depth : Nat} {s rest : List Char}
    (h : skipDoctype depth none s = some rest) :
    ∃ t, SkippedText depth t ∧ s = t ++ '>' :: rest := by
  induction hn : s.length using Nat.strongRecOn generalizing depth s with
  | ind n ih =>
    subst hn
    rcases s with _ | ⟨c, s⟩
    · exact absurd h (by simp [skipDoctype])
    · have hlen : s.length < (c :: s).length := Nat.lt_succ_self _
      rw [skipDoctype] at h
      split_ifs at h with hquote hopening hclosing hend
      · -- The literal has to be closed, or there would be no end.
        have hmem : c ∈ s := by
          by_contra hmem
          rw [skipDoctype_of_not_mem hmem] at h
          exact absurd h (by simp)
        obtain ⟨body, r, rfl, hbody⟩ := List.eq_append_cons_of_mem hmem
        rw [skipDoctype_quote hbody] at h
        have hshort : r.length < (c :: (body ++ c :: r)).length := by
          simp only [List.length_cons, List.length_append]
          omega
        obtain ⟨t, ht, rfl⟩ := ih _ hshort h rfl
        exact ⟨_, .literal ⟨c, body, hquote, hbody, rfl⟩ ht, by simp⟩
      · obtain ⟨t, ht, rfl⟩ := ih _ hlen h rfl
        exact ⟨_, .opening ht, by rw [hopening, List.cons_append]⟩
      · obtain ⟨t, ht, rfl⟩ := ih _ hlen h rfl
        exact ⟨_, .closing ht, by rw [hclosing, List.cons_append]⟩
      · obtain ⟨rfl, rfl⟩ := hend
        obtain rfl := Option.some.inj h
        exact ⟨[], .nil, rfl⟩
      · obtain ⟨t, ht, rfl⟩ := ih _ hlen h rfl
        have hquiet : isQuiet c = true :=
          isQuiet_eq_true_iff.2 ⟨mt .inl hquote, mt .inr hquote, hopening, hclosing⟩
        exact ⟨_, .char hquiet (fun hc hdepth => hend ⟨hc, hdepth⟩) ht, rfl⟩

/-- Skipping succeeds exactly on what the reader goes past, a `>` and what follows it. -/
theorem skipDoctype_eq_some_iff {depth : Nat} {s rest : List Char} :
    skipDoctype depth none s = some rest ↔ ∃ t, SkippedText depth t ∧ s = t ++ '>' :: rest := by
  constructor
  · exact exists_skippedText
  · rintro ⟨t, ht, rfl⟩
    exact ht.skipDoctype_append rest

/-- A text is gone past exactly when skipping it and a `>` leaves nothing. -/
theorem skippedText_iff {depth : Nat} {t : List Char} :
    SkippedText depth t ↔ skipDoctype depth none (t ++ ['>']) = some [] := by
  rw [skipDoctype_eq_some_iff]
  constructor
  · intro ht
    exact ⟨t, ht, rfl⟩
  · rintro ⟨t', ht', heq⟩
    rwa [List.append_cancel_right heq]

/-- Skipping goes past a line end like past every other character. -/
theorem skipDoctype_lineEnd {c : Char} (hc : c = '\n' ∨ c = '\r') {quote : Option Char}
    (hquote : ∀ q ∈ quote, q = '"' ∨ q = '\'') (depth : Nat) (s : List Char) :
    skipDoctype depth quote (c :: s) = skipDoctype depth quote s := by
  rcases quote with _ | q
  · have hplain : isPlain c = true := by
      rcases hc with rfl | rfl <;> decide
    obtain ⟨hquiet, hend⟩ := isPlain_eq_true_iff.1 hplain
    exact skipDoctype_char hquiet (fun heq => absurd heq hend) s
  · have hne : c ≠ q := by
      rcases hc with rfl | rfl <;> rcases hquote q rfl with rfl | rfl <;> decide
    rw [skipDoctype, if_neg hne]

/-- Skipping a text with its line ends normalized is skipping the text. -/
theorem skipDoctype_normalizeLines (depth : Nat) {quote : Option Char}
    (hquote : ∀ q ∈ quote, q = '"' ∨ q = '\'') (s : List Char) :
    skipDoctype depth quote (normalizeLines s) = (skipDoctype depth quote s).map normalizeLines := by
  fun_induction normalizeLines s generalizing depth quote with
  | case1 => rfl
  | case2 s ih =>
    rw [skipDoctype_lineEnd (.inl rfl) hquote, skipDoctype_lineEnd (.inr rfl) hquote,
      skipDoctype_lineEnd (.inl rfl) hquote, ih depth hquote]
  | case3 s _ ih =>
    rw [skipDoctype_lineEnd (.inl rfl) hquote, skipDoctype_lineEnd (.inr rfl) hquote, ih depth hquote]
  | case4 c s _ _ ih =>
    rcases quote with _ | q
    · rw [skipDoctype, skipDoctype]
      split_ifs with hc
      · exact ih depth (by simpa using hc)
      · exact ih (depth + 1) hquote
      · exact ih (depth - 1) hquote
      · rfl
      · exact ih depth hquote
    · rw [skipDoctype, skipDoctype]
      split_ifs
      · exact ih depth (by simp)
      · exact ih depth hquote

/-- Normalizing line ends makes no difference to what the reader goes past. -/
theorem skippedText_normalizeLines_iff {depth : Nat} {t : List Char} :
    SkippedText depth (normalizeLines t) ↔ SkippedText depth t := by
  have hend : normalizeLines (t ++ ['>']) = normalizeLines t ++ ['>'] := normalizeLines_append (by simp)
  rw [skippedText_iff, skippedText_iff, ← hend, skipDoctype_normalizeLines depth (by simp)]
  simp [normalizeLines_eq_nil_iff]

/-! ## Declarations without quotes and brackets where they do not count -/

/-- Spaces are plain. -/
theorem isPlain_of_isSpace {c : Char} (h : isSpace c = true) : isPlain c = true := by
  simp only [isSpace, Bool.or_eq_true, beq_iff_eq] at h
  rcases h with ((rfl | rfl) | rfl) | rfl <;> decide

/-- Characters of names are plain. -/
theorem isPlain_of_isNameChar {c : Char} (h : isNameChar c = true) : isPlain c = true := by
  rw [isPlain_eq_true_iff, isQuiet_eq_true_iff]
  refine ⟨⟨?_, ?_, ?_, ?_⟩, ?_⟩ <;>
    exact (ne_of_isNameChar h (isNameChar_eq_false (by simp))).symm

/-- Characters of the class alone. -/
theorem clauseText_of_all {p : Char → Bool} {s : List Char} (h : s.all p = true) :
    ClauseText p s := by
  induction s with
  | nil => exact .nil
  | cons c s ih =>
    rw [List.all_cons, Bool.and_eq_true] at h
    exact .char h.1 (ih h.2)

/-- A name is plain characters. -/
theorem IsName.clauseText {name : List Char} (h : IsName name) : ClauseText isPlain name :=
  clauseText_of_all (List.all_eq_true.2 fun c hc => isPlain_of_isNameChar (h.chars c hc))

/-- Spaces are plain characters. -/
theorem IsSpaces.clauseText {sp : List Char} (h : IsSpaces sp) : ClauseText isPlain sp :=
  clauseText_of_all (List.all_eq_true.2 fun c hc => isPlain_of_isSpace (h c hc))

/-- A wider class allows more. -/
theorem ClauseText.mono {p q : Char → Bool} {s : List Char} (h : ClauseText p s)
    (hpq : ∀ c, p c = true → q c = true) : ClauseText q s := by
  induction h with
  | nil => exact .nil
  | char hc _ ih => exact .char (hpq _ hc) ih
  | literal ht _ ih => exact .literal ht ih

/-- Two clauses one after the other. -/
theorem ClauseText.append {p : Char → Bool} {s t : List Char} (hs : ClauseText p s)
    (ht : ClauseText p t) : ClauseText p (s ++ t) := by
  induction hs with
  | nil => exact ht
  | char hc _ ih => exact .char hc ih
  | literal hl _ ih => rw [List.append_assoc]; exact .literal hl ih

/-- The reader goes past literals and characters that are quiet and do not end the declaration. -/
theorem ClauseText.skippedText_append {p : Char → Bool} {depth : Nat} {s rest : List Char}
    (hs : ClauseText p s) (hp : ∀ c, p c = true → isQuiet c = true ∧ (c = '>' → depth ≠ 0))
    (hrest : SkippedText depth rest) : SkippedText depth (s ++ rest) := by
  induction hs with
  | nil => exact hrest
  | char hc _ ih => exact .char (hp _ hc).1 (hp _ hc).2 ih
  | literal ht _ ih =>
    rw [List.append_assoc]
    exact .literal ht ih

/-- The reader goes past literals and plain characters, whether brackets are open or not. -/
theorem ClauseText.skippedText_plain {depth : Nat} {s rest : List Char} (hs : ClauseText isPlain s)
    (hrest : SkippedText depth rest) : SkippedText depth (s ++ rest) := by
  refine hs.skippedText_append (fun c hc => ?_) hrest
  obtain ⟨hquiet, hend⟩ := isPlain_eq_true_iff.1 hc
  exact ⟨hquiet, fun heq => absurd heq hend⟩

/-- The head of a declaration is literals and plain characters. -/
theorem DoctypeHead.clauseText {t : List Char} (h : DoctypeHead t) : ClauseText isPlain t := by
  obtain ⟨sp, name, external, sp', hsp, -, hname, hexternal, hsp', rfl⟩ := h
  have hexternal' : ClauseText isPlain external := by
    rcases hexternal with rfl | ⟨sp, keyword, s, hsp, -, hkeyword, hs, rfl⟩
    · exact .nil
    · have hall : ["SYSTEM", "PUBLIC"].all (·.toList.all isPlain) = true := by decide
      have hkeyword' := clauseText_of_all (List.all_eq_true.1 hall keyword hkeyword)
      exact (hsp.clauseText.append hkeyword').append (hs.mono fun _ => isPlain_of_isSpace)
  exact ((hsp.clauseText.append hname.clauseText).append hexternal').append hsp'.clauseText

/-- A declaration is literals and quiet characters. -/
theorem DeclarationText.clauseText {t : List Char} (h : DeclarationText t) : ClauseText isQuiet t := by
  obtain ⟨keyword, s, hkeyword, hs, rfl⟩ := h
  have hall : ["ELEMENT", "ATTLIST", "ENTITY", "NOTATION"].all (·.toList.all isQuiet) = true := by
    decide
  have hkeyword' := clauseText_of_all (List.all_eq_true.1 hall keyword hkeyword)
  have hopen : ClauseText isQuiet ['<', '!'] := clauseText_of_all (by decide)
  have hclose : ClauseText isQuiet ['>'] := clauseText_of_all (by decide)
  exact ((hopen.append hkeyword').append (hs.mono isQuiet_of_isPlain)).append hclose

/-- An internal subset whose comments and instructions are quiet is literals and quiet characters. -/
theorem SubsetText.clauseText {asides : List (List Char)} {s : List Char} (h : SubsetText asides s)
    (hasides : ∀ t ∈ asides, t.all isQuiet = true) : ClauseText isQuiet s := by
  induction h with
  | nil => exact .nil
  | space hc _ ih => exact .char (isQuiet_of_isPlain _ (isPlain_of_isSpace hc)) (ih hasides)
  | declaration ht _ ih => exact ht.clauseText.append (ih hasides)
  | reference hname _ ih =>
    have hopen : ClauseText isQuiet ['%'] := clauseText_of_all (by decide)
    have hclose : ClauseText isQuiet [';'] := clauseText_of_all (by decide)
    exact ((hopen.append (hname.clauseText.mono isQuiet_of_isPlain)).append hclose).append (ih hasides)
  | comment _ _ ih =>
    rw [List.forall_mem_cons] at hasides
    exact (clauseText_of_all hasides.1).append (ih hasides.2)
  | instruction _ _ ih =>
    rw [List.forall_mem_cons] at hasides
    exact (clauseText_of_all hasides.1).append (ih hasides.2)

/-- The reader goes past a declaration whose comments and instructions are quiet. -/
theorem DoctypeText.skippedDoctype {asides : List (List Char)} {d : List Char}
    (h : DoctypeText asides d) (hasides : ∀ t ∈ asides, t.all isQuiet = true) :
    SkippedDoctype d := by
  rcases h with @⟨head, hhead⟩ | @⟨_, head, s, sp, hhead, hs, hsp⟩
  · exact ⟨head ++ [], hhead.clauseText.skippedText_plain .nil, by rw [List.append_nil]⟩
  · have hspaces : SkippedText 0 (sp ++ []) := hsp.clauseText.skippedText_plain .nil
    have hsubset : SkippedText 1 (s ++ ']' :: (sp ++ [])) :=
      (hs.clauseText hasides).skippedText_append (fun _ hc => ⟨hc, by simp⟩) (.closing hspaces)
    exact ⟨_, hhead.clauseText.skippedText_plain (.opening hsubset), by simp⟩

/-! ## Documents behind a declaration -/

/-- A text may stand in front of a document: behind it, a document that starts with its root element
is parsed as it is on its own. -/
def StandsBefore (d : String) : Prop :=
  ∀ (text : String) (root : Element), (∃ c r, text.toList = '<' :: c :: r ∧ isNameStart c = true) →
    parse text = .ok root → parse (d ++ text) = .ok root

/-- Skipping a document type declaration, from its mark on, succeeds exactly on a text that the reader
goes past, a `>` and what may be skipped, with no declaration after it. -/
theorem skipDoctypes_doctype_eq_ok_iff {s rest : List Char} :
    skipDoctypes (doctypeMark ++ s) = .ok rest ↔
      ∃ body m, SkippedText 0 body ∧ MiscText m ∧ NoMisc rest ∧ after? doctypeMark rest = none ∧
        s = body ++ '>' :: (m ++ rest) := by
  rw [skipDoctypes, after?_append]
  dsimp only
  rw [readDoctype]
  constructor
  · intro h
    split at h
    · exact absurd h (by simp)
    · next r hr =>
      split at hr
      · exact absurd hr (by simp)
      · next r' hskip =>
        obtain rfl := Except.ok.inj hr
        split at h
        · exact absurd h (by simp)
        · next rest' hrest =>
          split_ifs at h with hmark
          obtain rfl := Except.ok.inj h
          obtain ⟨body, hbody, rfl⟩ := skipDoctype_eq_some_iff.1 hskip
          obtain ⟨m, hm, hno, rfl⟩ := skipMisc_eq_ok_iff.1 hrest
          exact ⟨body, m, hbody, hm, hno, by simpa using hmark, rfl⟩
  · rintro ⟨body, m, hbody, hm, hno, hmark, rfl⟩
    rw [skipDoctype_eq_some_iff.2 ⟨body, hbody, rfl⟩]
    dsimp only
    rw [skipMisc_eq_ok_iff.2 ⟨m, hm, hno, rfl⟩]
    dsimp only
    rw [hmark]
    rfl

/-- At the mark of a declaration, nothing else is to be skipped. -/
theorem noMisc_doctypeMark (s : List Char) : NoMisc (doctypeMark ++ s) :=
  ⟨stops_cons.2 (by decide), rfl, rfl⟩

/-- Skipping what is before the root element, from the mark of a declaration on, is skipping the
declaration. -/
theorem skipProlog_doctype_eq_ok_iff {s rest : List Char} :
    skipProlog (doctypeMark ++ s) = .ok rest ↔
      ∃ body m, SkippedText 0 body ∧ MiscText m ∧ NoMisc rest ∧ after? doctypeMark rest = none ∧
        s = body ++ '>' :: (m ++ rest) := by
  have hprolog : skipProlog (doctypeMark ++ s) = skipDoctypes (doctypeMark ++ s) :=
    PrologText.skipProlog_eq (.inl rfl) (.misc .nil) (noMisc_doctypeMark s)
  rw [hprolog, skipDoctypes_doctype_eq_ok_iff]

/-- Normalizing line ends keeps the marks of a declaration, and goes on behind it. -/
theorem normalizeLines_doctype {d : String} {body : List Char}
    (h : d.toList = doctypeMark ++ body ++ ['>']) (text : String) :
    normalizeLines (d ++ text).toList =
      doctypeMark ++ (normalizeLines body ++ '>' :: normalizeLines text.toList) := by
  have hbody : Normalizes (body ++ ['>']) (normalizeLines body ++ ['>']) :=
    .before body (by decide) (by decide)
  have hmark : Normalizes doctypeMark doctypeMark := .of_not_mem (by decide)
  rw [String.toList_append, h, List.append_assoc doctypeMark, hmark.append hbody]
  simp

/-- What the reader takes for a declaration may stand in front of a document. -/
theorem SkippedDoctype.standsBefore {d : String} (h : SkippedDoctype d.toList) : StandsBefore d := by
  obtain ⟨body, hbody, hd⟩ := h
  rintro text root ⟨c, r, htext, hc⟩ hparse
  have hcr : '\r' ∉ ['<', c] := by
    have hne : '\r' ≠ c :=
      ne_of_isNameChar (isNameChar_of_isNameStart hc) (isNameChar_eq_false (by simp))
    simp [hne]
  have hstart : normalizeLines text.toList = '<' :: c :: normalizeLines r := by
    rw [htext]
    exact normalizeLines_append_of_not_mem hcr r
  rw [parse_eq_ok_iff, readDocument_eq_ok_iff_of_start ⟨c, _, hstart, hc⟩] at hparse
  obtain ⟨t, m, ht, hm, hdepth, htm⟩ := hparse
  rw [parse_eq_ok_iff, readDocument_eq_ok_iff, normalizeLines_doctype hd]
  refine ⟨t, m, ht, hm, hdepth, ?_⟩
  rw [skipProlog_doctype_eq_ok_iff, ← htm, hstart]
  exact ⟨_, [], skippedText_normalizeLines_iff.2 hbody, .nil, noMisc_of_isNameStart hc _,
    after?_doctypeMark hc _, rfl⟩

/-- Nothing that may be skipped reaches into an empty tag at the end of a text. -/
theorem MiscText.eq_nil_of_emptyTag {before before' m : List Char} (hm : MiscText m)
    (h : before ++ ['<', 'r', '/', '>'] = before' ++ m) : m = [] := by
  by_contra hne
  have hend : ∀ u : List Char, u.length ≤ 4 → u <:+ m → u <:+ ['<', 'r', '/', '>'] := by
    intro u hlen hu
    have hu' : u <:+ before ++ ['<', 'r', '/', '>'] := by
      rw [h]
      exact List.suffix_append_of_suffix hu
    exact List.suffix_of_suffix_length_le hu' (List.suffix_append _ _) hlen
  rcases hm.exists_suffix hne with ⟨c, hc, hsuffix⟩ | hsuffix | hsuffix
  · obtain rfl : c = '>' := (hend [c] (by simp) hsuffix).getLast (by simp)
    exact absurd hc (by decide)
  · exact absurd (hend _ (by decide) hsuffix) (by decide)
  · exact absurd (hend _ (by decide) hsuffix) (by decide)

/-- A tag that ends where an empty tag does is that tag, because both have their only `<` at the
front. -/
theorem TagText.eq_of_emptyTag {before before' t : List Char} {tag : Tag} (ht : TagText t tag)
    (h : before ++ ['<', 'r', '/', '>'] = before' ++ t) : before = before' := by
  obtain ⟨r, rfl, hr⟩ := ht.exists_not_mem
  have hsuffix : '<' :: r <:+ before ++ ['<', 'r', '/', '>'] := ⟨before', h.symm⟩
  have heq : '<' :: r = ['<', 'r', '/', '>'] := by
    rcases List.suffix_or_suffix_of_suffix hsuffix (List.suffix_append _ _) with hs | hs
    · rcases List.suffix_cons_iff.1 hs with heq | hs
      · exact heq
      · exact absurd (hs.subset List.mem_cons_self) (by decide)
    · rcases List.suffix_cons_iff.1 hs with heq | hs
      · exact heq.symm
      · exact absurd (hs.subset List.mem_cons_self) hr
  rw [heq] at h
  exact List.append_cancel_right h

/-- No end tag ends where an empty tag does. -/
theorem EndTagText.ne_emptyTag {before before' e : List Char} {name : String}
    (he : EndTagText name e) : before ++ ['<', 'r', '/', '>'] ≠ before' ++ e := by
  obtain ⟨sp, hname, hsp, rfl⟩ := he
  intro h
  have hslash : before ++ ['<', 'r'] ++ ['/'] ++ ['>'] =
      before' ++ ['<', '/'] ++ (name.toList ++ sp) ++ ['>'] := by
    simpa using h
  have hne : 1 ≤ (name.toList ++ sp).length := by
    obtain ⟨c, r, hcr, -⟩ := hname.exists_cons
    rw [hcr, List.length_append, List.length_cons]
    omega
  have hsuffix : ['/'] <:+ name.toList ++ sp :=
    List.suffix_of_suffix_length_le ⟨_, List.append_cancel_right hslash⟩ (List.suffix_append _ _) hne
  rcases List.mem_append.1 (hsuffix.subset List.mem_cons_self) with hmem | hmem
  · exact absurd hmem (hname.not_mem (isNameChar_eq_false (by simp)))
  · exact absurd (hsp _ hmem) (by decide)

/-- An empty tag at the end of a text is the last thing in it that can be an element: one that what may
be skipped follows, up to the end, is that tag. -/
theorem ElementText.eq_of_emptyTag {before before' t m : List Char} {root : Element}
    (ht : ElementText noBindings t root) (hm : MiscText m)
    (h : before ++ ['<', 'r', '/', '>'] = before' ++ (t ++ m)) : before = before' := by
  rw [← List.append_assoc] at h
  rw [hm.eq_nil_of_emptyTag h, List.append_nil] at h
  cases ht with
  | empty ht => exact ht.eq_of_emptyTag h
  | filled _ _ _ _ he =>
    rw [← List.append_assoc] at h
    exact absurd h he.ne_emptyTag

/-- A text before a `>` that ends in no hyphen and no question mark is gone past when a document with
nothing but an empty tag is parsed behind it. An earlier end would make the rest of the text a comment
or an instruction. -/
theorem SkippedText.of_parse {d : String} {body : List Char} {root : Element}
    (hd : d.toList = doctypeMark ++ body ++ ['>']) (hhyphen : ¬ ['-'] <:+ body)
    (hquestion : ¬ ['?'] <:+ body) (h : parse (d ++ "<r/>") = .ok root) : SkippedText 0 body := by
  have htag : normalizeLines "<r/>".toList = ['<', 'r', '/', '>'] := by decide
  rw [parse_eq_ok_iff, readDocument_eq_ok_iff, normalizeLines_doctype hd, htag] at h
  obtain ⟨t, m, ht, hm, -, hprolog⟩ := h
  obtain ⟨body', m', hbody', hm', -, -, heq⟩ := skipProlog_doctype_eq_ok_iff.1 hprolog
  have hsplit : normalizeLines body ++ ['>'] ++ ['<', 'r', '/', '>'] =
      body' ++ '>' :: m' ++ (t ++ m) := by
    simpa using heq
  have hend := ht.eq_of_emptyTag hm hsplit
  suffices hnil : m' = [] by
    rw [hnil] at hend
    rw [← skippedText_normalizeLines_iff, List.append_cancel_right hend]
    exact hbody'
  by_contra hne
  have hlast : ∀ u : List Char, u <:+ m' → u <:+ normalizeLines body ++ ['>'] := by
    intro u hu
    rw [hend]
    exact List.suffix_append_of_suffix (hu.trans (List.suffix_cons _ _))
  have hmark : ∀ {c : Char}, c ≠ '\n' → [c, '>'] <:+ m' → [c] <:+ body := fun hc hu =>
    suffix_singleton_of_normalizeLines hc (List.suffix_append_self_iff.1 (hlast ([_] ++ ['>']) hu))
  rcases hm'.exists_suffix hne with ⟨c, hc, hsuffix⟩ | hsuffix | hsuffix
  · obtain rfl : c = '>' := by simpa using (hlast [c] hsuffix).getLast (by simp)
    exact absurd hc (by decide)
  · have hshort : ['-', '>'] <:+ ['-', '-', '>'] := by decide
    exact hhyphen (hmark (by decide) (hshort.trans hsuffix))
  · exact hquestion (hmark (by decide) hsuffix)

/-- A document type declaration may stand in front of a document exactly when the reader takes all of
it, and nothing less, for a declaration. That is so when its comments and instructions hold no quote
and no square bracket. -/
theorem standsBefore_iff_skippedDoctype {asides : List (List Char)} {d : String}
    (h : DoctypeText asides d.toList) :
    (StandsBefore d ↔ SkippedDoctype d.toList) ∧
      ((∀ t ∈ asides, t.all isQuiet = true) → StandsBefore d) := by
  refine ⟨⟨fun hbefore => ?_, fun hskipped => hskipped.standsBefore⟩,
    fun hasides => (h.skippedDoctype hasides).standsBefore⟩
  have htag : parse "<r/>" = .ok ⟨⟨"r", none, []⟩, []⟩ := by decide +kernel
  have hparse := hbefore "<r/>" _ ⟨'r', ['/', '>'], by decide, by decide +kernel⟩ htag
  generalize hd : d.toList = l at h
  cases h with
  | plain hhead => exact (DoctypeText.plain hhead).skippedDoctype (by simp)
  | @subset _ head s sp hhead hs hsp =>
    -- The internal subset ends in its bracket, whatever spaces follow.
    have hlast : ∀ c, isSpace c = false → c ≠ ']' →
        ¬ [c] <:+ head ++ ['['] ++ s ++ [']'] ++ sp := by
      intro c hspace hbracket hsuffix
      rw [List.append_assoc _ [']']] at hsuffix
      have hend : [c] <:+ [']'] ++ sp :=
        List.suffix_of_suffix_length_le hsuffix (List.suffix_append _ _) (by simp)
      rcases List.mem_append.1 (hend.subset List.mem_cons_self) with hmem | hmem
      · exact hbracket (List.mem_singleton.1 hmem)
      · exact absurd (hsp c hmem) (by simp [hspace])
    have hhyphen := hlast '-' (by decide) (by decide)
    have hquestion := hlast '?' (by decide) (by decide)
    exact ⟨_, .of_parse hd hhyphen hquestion hparse, rfl⟩

/-- A declaration with quotes, brackets and `>` in its literals, a `>` in a comment and another one in
an instruction may stand in front of a document. -/
theorem standsBefore_of_literals :
    DoctypeText ["<!-- > -->".toList, "<?t >?>".toList]
      "<!DOCTYPE r SYSTEM 'a>' [%p;<!ENTITY e \"]'>\"><!-- > --><?t >?>]>".toList ∧
    StandsBefore "<!DOCTYPE r SYSTEM 'a>' [%p;<!ENTITY e \"]'>\"><!-- > --><?t >?>]>" := by
  have hinstruction : InstructionText "t" "<?t >?>".toList :=
    ⟨[' ', '>'], by decide +kernel, stops_cons.2 (by decide +kernel), by decide, by decide⟩
  have hcomment : CommentText "<!-- > -->".toList := ⟨[' ', '>', ' '], by decide, by decide, by decide⟩
  have hentity : DeclarationText "<!ENTITY e \"]'>\">".toList := by
    have hliteral : LiteralText "\"]'>\"".toList := ⟨'"', [']', '\'', '>'], by decide⟩
    have hclause : ClauseText isPlain (" e ".toList ++ ("\"]'>\"".toList ++ [])) :=
      (clauseText_of_all (by decide)).append (.literal hliteral .nil)
    exact ⟨"ENTITY", _, by simp, hclause, by decide⟩
  have hname : IsName ['p'] := by decide +kernel
  have hsubset := SubsetText.reference hname
    (.declaration hentity (.comment hcomment (.instruction hinstruction .nil)))
  have hhead : DoctypeHead " r SYSTEM 'a>' ".toList := by
    have hliteral : LiteralText "'a>'".toList := ⟨'\'', ['a', '>'], by decide⟩
    have hclause : ClauseText isSpace (" ".toList ++ ("'a>'".toList ++ [])) :=
      (clauseText_of_all (by decide)).append (.literal hliteral .nil)
    exact ⟨[' '], ['r'], _, [' '], by simp [IsSpaces, isSpace], by simp, by decide +kernel,
      .inr ⟨[' '], "SYSTEM", _, by simp [IsSpaces, isSpace], by simp, by simp, hclause, rfl⟩,
      by simp [IsSpaces, isSpace], by decide⟩
  have hspaces : IsSpaces [] := by simp [IsSpaces]
  have hdoctype : DoctypeText ["<!-- > -->".toList, "<?t >?>".toList]
      "<!DOCTYPE r SYSTEM 'a>' [%p;<!ENTITY e \"]'>\"><!-- > --><?t >?>]>".toList :=
    .subset hhead hsubset hspaces
  exact ⟨hdoctype, (standsBefore_iff_skippedDoctype hdoctype).2 (by decide)⟩

/-- A single apostrophe in a comment of the internal subset opens a literal for the reader, and no
document is parsed behind the declaration. -/
theorem not_standsBefore_of_apostrophe :
    ¬ ∀ asides (d : String), DoctypeText asides d.toList → StandsBefore d := by
  intro h
  have hcomment : CommentText "<!-- ' -->".toList := ⟨[' ', '\'', ' '], by decide, by decide, by decide⟩
  have hhead : DoctypeHead " r ".toList :=
    ⟨[' '], ['r'], [], [' '], by simp [IsSpaces, isSpace], by simp, by decide +kernel, .inl rfl,
      by simp [IsSpaces, isSpace], by decide⟩
  have hspaces : IsSpaces [] := by simp [IsSpaces]
  have hdoctype : DoctypeText ["<!-- ' -->".toList] "<!DOCTYPE r [<!-- ' -->]>".toList :=
    .subset hhead (.comment hcomment .nil) hspaces
  have htag : parse "<r/>" = .ok ⟨⟨"r", none, []⟩, []⟩ := by decide +kernel
  have hparse := h _ _ hdoctype "<r/>" _ ⟨'r', ['/', '>'], by decide, by decide +kernel⟩ htag
  have hfault : parse ("<!DOCTYPE r [<!-- ' -->]>" ++ "<r/>") =
      .error ⟨.unterminatedDoctype, ⟨1, 1⟩⟩ := by decide +kernel
  rw [hfault] at hparse
  exact absurd hparse (by simp)

end ParamClass.Xml
