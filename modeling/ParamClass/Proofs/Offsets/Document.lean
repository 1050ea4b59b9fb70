import ParamClass.Proofs.Offsets.Agreement

/-!
# Elements and documents by offsets

An element is read by offsets with one reader inside another, as deep as the elements stand in each
other, while the reader of characters keeps a list of open elements. The first one follows the second
one element by element: what the list holds around an element is untouched when the element is
complete (`ElementFollows`, `ContentFollows`).
-/

namespace ParamClass.Xml.Offsets

open Text

variable {whole s t : List Char} {top : Frame} {outer : List Frame}

/-! ## Elements -/

/-- Inside an element, reading goes on piece by piece. -/
theorem readContent_inside (top : Frame) (outer : List Frame) (s : List Char) :
    readContent (.inside top outer) s =
      (readPiece top outer s >>= fun piece => readContent piece.1 piece.2) := by
  rw [readContent]
  split
  · next hpiece =>
    rw [hpiece]
    rfl
  · next hpiece =>
    rw [hpiece]
    rfl

/-- Reading the rest of `top` by offsets comes to a result, and reading characters goes on inside
`outer` when it has come to that result. -/
def ContentFollows (whole s : List Char) (top : Frame) (outer : List Frame) : Prop :=
  ∃ result, (∀ n, s.length < n → Follows whole s (content n outer.length top) result) ∧
    readContent (.inside top outer) s =
      (result >>= fun complete => readContent (.after complete.1 outer) complete.2) ∧
    ∀ e left, result = .ok (e, left) → left.length < s.length

/-- Reading an element by offsets comes to a result, and reading characters goes on inside `outer`
when it has come to that result. -/
def ElementFollows (whole s : List Char) (outer : List Frame) : Prop :=
  ∃ result, (∀ n, s.length < n → Follows whole ('<' :: s)
      (elementWith (content n outer.length) outer.length (scopeOf outer)) result) ∧
    readInside outer ('<' :: s) s =
      (result >>= fun complete => readContent (.after complete.1 outer) complete.2) ∧
    ∀ e left, result = .ok (e, left) → left.length < ('<' :: s).length

/-- There is always a round left for what is left. -/
theorem ContentFollows.of_succ {result : Except Stop (Element × List Char)}
    (hreader : ∀ n, s.length ≤ n → Follows whole s (content (n + 1) outer.length top) result)
    (hgoes : readContent (.inside top outer) s =
      (result >>= fun complete => readContent (.after complete.1 outer) complete.2))
    (hshort : ∀ e left, result = .ok (e, left) → left.length < s.length) :
    ContentFollows whole s top outer := by
  refine ⟨result, fun n hn => ?_, hgoes, hshort⟩
  cases n with
  | zero => exact absurd hn (Nat.not_lt_zero _)
  | succ n => exact hreader n (Nat.le_of_lt_succ hn)

/-- The rest of an element follows when a piece of it does and then what is left. -/
theorem ContentFollows.of_piece {next : Frame}
    (hpiece : readPiece top outer s = .ok (.inside next outer, t))
    (hreader : ∀ {n result}, Follows whole t (content n outer.length next) result →
      Follows whole s (content (n + 1) outer.length top) result)
    (h : ContentFollows whole t next outer) : ContentFollows whole s top outer := by
  obtain ⟨result, hresult, hgoes, hshort⟩ := h
  have hlength := readPiece_length hpiece
  refine .of_succ (fun n hn => hreader (hresult n (hlength.trans_le hn))) ?_
    fun e left hok => (hshort e left hok).trans hlength
  rw [readContent_inside, hpiece]
  exact hgoes

/-- The rest of an element follows when a piece of it stops. -/
theorem ContentFollows.of_stop {stop : Stop} (hpiece : readPiece top outer s = .error stop)
    (hreader : ∀ {n}, Follows whole s (content (n + 1) outer.length top) (.error stop)) :
    ContentFollows whole s top outer := by
  refine .of_succ (fun n _ => hreader) ?_ fun e left hok => absurd hok (by simp)
  rw [readContent_inside, hpiece]
  rfl

/-- An element follows when the content that is left does. -/
theorem elementFollows_of_content
    (h : ∀ left, left.length < s.length → ∀ top, ContentFollows whole left top outer) :
    ElementFollows whole s outer := by
  have htag : Follows whole s startTag (readTag s) := follows_startTag
  rw [ElementFollows, readInside, openElement]
  by_cases hdeep : maxDepth ≤ outer.length
  · refine ⟨.error ⟨.tooDeep, '<' :: s⟩, fun n hn => ?_, ?_, fun e left hok => absurd hok (by simp)⟩
    · rw [elementWith, if_pos hdeep]
      exact follows_fail _
    · rw [if_pos hdeep]
      rfl
  simp only [elementWith, if_neg hdeep]
  -- Both sides read the start tag alike, and then the content or nothing.
  rcases hread : readTag s with stop | ⟨tag, left⟩
  · rw [hread] at htag
    exact ⟨.error stop, fun n hn => .bind (follows_expect '<') htag.bind_error, rfl,
      fun e left hok => absurd hok (by simp)⟩
  have hlength := readTag_length hread
  rw [hread] at htag
  rcases hresolve : tag.resolve (scopeOf outer) with cause | ⟨head, inner⟩
  · refine ⟨.error ⟨cause, left⟩, fun n hn => .bind (follows_expect '<') (htag.bind ?_), ?_,
      fun e left hok => absurd hok (by simp)⟩
    · rw [hresolve]
      exact follows_fail cause
    · dsimp only
      rw [hresolve]
      rfl
  by_cases hempty : tag.isEmpty = true
  · refine ⟨.ok (⟨head, []⟩, left), fun n hn => .bind (follows_expect '<') (htag.bind ?_), ?_, ?_⟩
    · rw [hresolve]
      dsimp only
      rw [if_pos hempty]
      exact follows_pure _
    · dsimp only
      rw [hresolve]
      dsimp only
      rw [if_pos hempty]
      rfl
    · intro e left' hok
      obtain ⟨-, rfl⟩ := Prod.mk.inj (Except.ok.inj hok)
      exact hlength.trans (Nat.lt_succ_self _)
  · obtain ⟨result, hresult, hgoes, hshort⟩ := h left hlength ⟨tag.name, head, inner, []⟩
    refine ⟨result, fun n hn => .bind (follows_expect '<') (htag.bind ?_), ?_, fun e left' hok => ?_⟩
    · rw [hresolve]
      dsimp only
      rw [if_neg hempty]
      exact hresult n (hlength.trans hn)
    · dsimp only
      rw [hresolve]
      dsimp only
      rw [if_neg hempty]
      exact hgoes
    · exact (hshort e left' hok).trans (hlength.trans (Nat.lt_succ_self _))

/-- Where a mark is next, reading goes on with what it shows. -/
theorem follows_content {n depth : Nat} {lead : Lead} {result : Except Stop (Element × List Char)}
    (hlead : Lead.of? s = some (lead, t))
    (h : Follows whole s
      (markup (elementWith (content n (depth + 1)) (depth + 1) top.scope) (content n depth) top lead)
      result) :
    Follows whole s (content (n + 1) depth top) result := by
  rw [content]
  refine .bind follows_rest ?_
  rw [hlead]
  exact h

/-- At an end tag, the element is complete. -/
theorem contentFollows_endTag (hlead : Lead.of? s = some (.endTag, t)) :
    ContentFollows whole s top outer := by
  have hend : Follows whole s (endTag top.tagName) (silently (readEndTag top.tagName s t)) :=
    Lead.eq_of_of? hlead ▸ follows_endTag top.tagName
  have hpiece : readPiece top outer s =
      (readEndTag top.tagName s t).map (.after top.close outer, ·) := by
    rw [readPiece.eq_def, hlead]
  rcases hread : readEndTag top.tagName s t with stop | left
  · rw [hread] at hend hpiece
    exact .of_stop hpiece (follows_content hlead hend.bind_error)
  · rw [hread] at hend hpiece
    refine .of_succ (fun n _ => follows_content hlead (hend.bind (follows_pure _))) ?_
      fun e left' hok => ?_
    · rw [readContent_inside, hpiece]
      rfl
    · obtain ⟨-, rfl⟩ := Prod.mk.inj (Except.ok.inj hok)
      exact readPiece_length hpiece

/-- After markup that a reader of its own reads, reading goes on. -/
theorem contentFollows_of_reader {α : Type} {lead : Lead} {reader : Reader α}
    {result : Except Stop (α × List Char)} {next : α → Frame} (hlead : Lead.of? s = some (lead, t))
    (hreader : Follows whole s reader result)
    (hmarkup : ∀ inner again, markup inner again top lead = reader >>= fun a => again (next a))
    (hpiece : readPiece top outer s = result.map fun part => (.inside (next part.1) outer, part.2))
    (h : ∀ left, left.length < s.length → ∀ next, ContentFollows whole left next outer) :
    ContentFollows whole s top outer := by
  rcases result with stop | ⟨a, left⟩
  · refine .of_stop hpiece (follows_content hlead ?_)
    rw [hmarkup]
    exact hreader.bind_error
  · refine .of_piece hpiece (fun hresult => follows_content hlead ?_)
      (h left (readPiece_length hpiece) _)
    rw [hmarkup]
    exact hreader.bind hresult

section Inside

variable (h : ∀ left, left.length < s.length → ∀ next, ContentFollows whole left next outer)

include h

/-- After a comment, reading goes on. -/
theorem contentFollows_comment (hlead : Lead.of? s = some (.comment, t)) :
    ContentFollows whole s top outer := by
  have hcomment : Follows whole s comment (silently (readComment s t)) :=
    Lead.eq_of_of? hlead ▸ follows_comment
  refine contentFollows_of_reader hlead hcomment (fun inner again => rfl) ?_ h
  rw [readPiece.eq_def, hlead]
  dsimp only
  cases readComment s t <;> rfl

/-- After an instruction, reading goes on. -/
theorem contentFollows_instruction (hlead : Lead.of? s = some (.instruction, t)) :
    ContentFollows whole s top outer := by
  have hinstruction : Follows whole s plainInstruction (silently (readPlainInstruction s t)) :=
    Lead.eq_of_of? hlead ▸ follows_plainInstruction
  refine contentFollows_of_reader hlead hinstruction (fun inner again => rfl) ?_ h
  rw [readPiece.eq_def, hlead]
  dsimp only
  cases readPlainInstruction s t <;> rfl

/-- After a reference, reading goes on with its character. -/
theorem contentFollows_reference (hlead : Lead.of? s = some (.reference, t)) :
    ContentFollows whole s top outer := by
  have hreference : Follows whole s reference (readReference t) :=
    Lead.eq_of_of? hlead ▸ follows_reference
  refine contentFollows_of_reader hlead hreference (fun inner again => rfl) ?_ h
  rw [readPiece.eq_def, hlead]

/-- After a character data section, reading goes on with its text. -/
theorem contentFollows_cdata (hlead : Lead.of? s = some (.cdata, t)) :
    ContentFollows whole s top outer := by
  have hcdata : Follows whole s cdata
      ((cut? [']', ']', '>'] t).elim (.error ⟨.unterminatedCData, t⟩) .ok) :=
    Lead.eq_of_of? hlead ▸ follows_cdata
  refine contentFollows_of_reader hlead hcdata (fun inner again => rfl) ?_ h
  rw [readPiece.eq_def, hlead]
  dsimp only
  cases cut? [']', ']', '>'] t <;> rfl

/-- After an element, reading goes on with it. -/
theorem contentFollows_startTag (hlead : Lead.of? s = some (.startTag, t))
    (helement : ElementFollows whole t (top :: outer)) : ContentFollows whole s top outer := by
  obtain rfl : s = '<' :: t := Lead.eq_of_of? hlead
  obtain ⟨result, hresult, hgoes, hshort⟩ := helement
  -- Reading characters goes on inside `top` when the element is complete.
  have hread : readContent (.inside top outer) ('<' :: t) = readInside (top :: outer) ('<' :: t) t := by
    rw [readContent_inside, readPiece.eq_def, hlead, readInside]
    dsimp only
    cases openElement (top :: outer) ('<' :: t) t <;> rfl
  rw [hgoes] at hread
  rcases result with stop | ⟨e, left⟩
  · exact .of_succ (fun n hn => follows_content hlead (hresult n hn).bind_error) hread
      fun e left hok => absurd hok (by simp)
  · have hlength := hshort e left rfl
    obtain ⟨result', hresult', hgoes', hshort'⟩ := h left hlength (top.withElement e)
    refine .of_succ (fun n hn => follows_content hlead ((hresult n hn).bind ?_)) (hread.trans hgoes')
      fun e' left' hok => (hshort' e' left' hok).trans hlength
    exact hresult' n (hlength.trans_le hn)

/-- A character that begins nothing else is text. -/
theorem contentFollows_of_none (hlead : Lead.of? s = none) : ContentFollows whole s top outer := by
  rcases s with _ | ⟨c, t⟩
  · refine .of_stop (by rw [readPiece, hlead]) ?_
    intro n
    rw [content]
    exact .bind follows_rest (follows_fail _)
  · have hpiece : readPiece top outer (c :: t) = .ok (.inside (top.withText [c]) outer, t) := by
      rw [readPiece, hlead]
    refine .of_piece hpiece (fun hresult => ?_) (h t (readPiece_length hpiece) _)
    rw [content]
    refine .bind follows_rest ?_
    rw [hlead]
    exact .bind (follows_advance List.singleton_append.symm (Nat.zero_add _)) hresult

end Inside

/-- Content follows, whatever is open around it. -/
theorem contentFollows (s : List Char) (top : Frame) (outer : List Frame) :
    ContentFollows whole s top outer := by
  -- The content after an element is shorter by the element, and so is the content inside it.
  have hshorter : ∀ left, left.length < s.length → ∀ top outer, ContentFollows whole left top outer :=
    fun left _ top outer => contentFollows left top outer
  have h : ∀ left, left.length < s.length → ∀ next, ContentFollows whole left next outer :=
    fun left hleft next => hshorter left hleft next outer
  rcases hlead : Lead.of? s with _ | ⟨lead, t⟩
  · exact contentFollows_of_none h hlead
  cases lead with
  | endTag => exact contentFollows_endTag hlead
  | comment => exact contentFollows_comment h hlead
  | cdata => exact contentFollows_cdata h hlead
  | instruction => exact contentFollows_instruction h hlead
  | declaration =>
    exact .of_stop (by rw [readPiece.eq_def, hlead]) (follows_content hlead (follows_fail _))
  | startTag =>
    refine contentFollows_startTag h hlead (elementFollows_of_content fun left hleft next => ?_)
    exact hshorter left (hleft.trans (Lead.of?_length hlead)) next _
  | reference => exact contentFollows_reference h hlead
  | cdataEnd =>
    exact .of_stop (by rw [readPiece.eq_def, hlead]) (follows_content hlead (follows_fail _))
termination_by s.length

/-- Elements follow, whatever is open around them. -/
theorem elementFollows (whole s : List Char) (outer : List Frame) : ElementFollows whole s outer :=
  elementFollows_of_content fun left _ top => contentFollows left top outer

/-- A root element is read. -/
theorem follows_root : Follows whole ('<' :: s) (element 0 []) (readElement ('<' :: s) s) := by
  obtain ⟨result, hresult, hgoes, -⟩ := elementFollows whole s []
  have hread : readElement ('<' :: s) s = readInside [] ('<' :: s) s := rfl
  have hsame : (result >>= fun complete => readContent (.after complete.1 []) complete.2) = result := by
    rcases result with stop | ⟨e, left⟩
    · rfl
    · exact readContent.eq_1 left e
  rw [hread, hgoes, hsame]
  exact follows_rounds fun n hn => hresult n (Nat.lt_of_succ_lt hn)

/-! ## Documents -/

/-- Spaces, comments and instructions are skipped, and then something else is read. -/
theorem follows_skipMisc {loop tail : Nat → Reader Unit} {first : Option Nat}
    {f : List Char → Except Stop (Unit × List Char)}
    (hloop : ∀ n, loop (n + 1) = do
      let _ ← skipSpaces
      if ← startsWith commentMark then
        comment
        loop n
      else if ← startsWith instructionMark then
        checkedInstruction first
        loop n
      else tail n)
    (hfirst : ∀ r, (instructionMark ++ r).length ≤ s.length →
      ∀ pos, At whole (instructionMark ++ r) pos → some pos ≠ first)
    (htail : ∀ r, r.length ≤ s.length → ∀ n, r.length ≤ n → Follows whole r (tail n) (f r))
    {n : Nat} (hn : s.length < n) : Follows whole s (loop n) (skipMisc s >>= f) := by
  induction n generalizing s with
  | zero => exact absurd hn (Nat.not_lt_zero _)
  | succ n ih =>
    have hspace := skipSpace_length s
    -- What follows a piece is shorter, so the other rounds read it.
    have hagain : ∀ left, left.length < s.length →
        Follows whole left (loop n) (skipMisc left >>= f) := fun left hleft =>
      ih (fun r hr => hfirst r (hr.trans hleft.le)) (fun r hr => htail r (hr.trans hleft.le)) (by omega)
    rw [hloop]
    refine .bind follows_skipSpaces ?_
    have hcomment : ∀ {r}, after? commentMark (skipSpace s) = some r →
        Follows whole (skipSpace s) comment (silently (readComment (skipSpace s) r)) :=
      fun hmark => after?_eq_some.1 hmark ▸ follows_comment
    have hinstruction : ∀ {r}, after? instructionMark (skipSpace s) = some r →
        Follows whole (skipSpace s) (checkedInstruction first)
          (silently (readPlainInstruction (skipSpace s) r)) := fun {r} hmark => by
      have hs := after?_eq_some.1 hmark
      exact hs ▸ follows_checkedInstruction_of_ne (hfirst r (hs ▸ hspace))
    fun_cases skipMisc s with
    | case1 r hmark stop hread =>
      have hskip := hcomment hmark
      rw [hread] at hskip
      exact follows_startsWith hmark hskip.bind_error
    | case2 r hmark left hread =>
      have hleft : left.length < s.length := by
        have hshort := readComment_length hread
        have hr := after?_length hmark
        omega
      exact follows_startsWith hmark (.bind (hread ▸ hcomment hmark) (hagain left hleft))
    | case3 hnone r hmark stop hread =>
      have hskip := hinstruction hmark
      rw [hread] at hskip
      exact follows_startsWith_none hnone (follows_startsWith hmark hskip.bind_error)
    | case4 hnone r hmark left hread =>
      have hleft : left.length < s.length := by
        have hshort := readPlainInstruction_length hread
        have hr := after?_length hmark
        omega
      refine follows_startsWith_none hnone (follows_startsWith hmark ?_)
      exact .bind (hread ▸ hinstruction hmark) (hagain left hleft)
    | case5 hnone hnone' =>
      exact follows_startsWith_none hnone (follows_startsWith_none hnone' (htail _ hspace n (by omega)))

/-- What may follow the root element is skipped. -/
theorem follows_misc {n : Nat} (hn : s.length < n) :
    Follows whole s (misc n) (silently (skipMisc s)) := by
  have h : Follows whole s (misc n) (skipMisc s >>= fun r => .ok ((), r)) :=
    follows_skipMisc (fun _ => rfl) (fun _ _ pos _ => Option.some_ne_none pos)
      (fun _ _ _ _ => follows_pure ()) hn
  have hsame : silently (skipMisc s) = (skipMisc s >>= fun r => .ok ((), r)) := by
    cases skipMisc s <;> rfl
  rwa [hsame]

/-- What follows a document type declaration is shorter than what follows its opening mark. -/
theorem readDoctype_length {start rest : List Char} (h : readDoctype start s = .ok rest) :
    rest.length < s.length := by
  unfold readDoctype at h
  split at h
  · exact absurd h (by simp)
  · next hskip =>
    obtain rfl := Except.ok.inj h
    obtain ⟨t, -, rfl⟩ := skipDoctype_eq_some_iff.1 hskip
    rw [List.length_append, List.length_cons]
    omega

/-- A byte order mark is skipped. -/
theorem follows_byteOrderMark : Follows whole s byteOrderMark (.ok ((), skipMark s)) := by
  unfold byteOrderMark
  rcases hmark : after? ['\uFEFF'] s with _ | r
  · have hself : skipMark s = s := by
      unfold skipMark
      split
      · next r => exact absurd (hmark.symm.trans (after?_append ['\uFEFF'] r)) (by simp)
      · rfl
    rw [hself]
    exact follows_startsWith_none hmark (follows_pure ())
  · obtain rfl := after?_eq_some.1 hmark
    exact follows_startsWith hmark (follows_advance rfl rfl)

section Prolog

-- The XML declaration may stand where `d` is left of the text, and no instruction of `s` stands there.
variable {first : Nat} {d : List Char} (hfirst : At whole d first)
  (hne : ∀ r, (instructionMark ++ r).length ≤ s.length → instructionMark ++ r ≠ d)

include hfirst hne

/-- After a document type declaration, no other one is read. -/
theorem follows_prolog_true {n : Nat} (hn : s.length < n) :
    Follows whole s (prolog first true n) (do
      let r ← skipMisc s
      if (after? doctypeMark r).isSome then .error ⟨.duplicateDoctype, r⟩ else .ok ((), r)) := by
  refine follows_skipMisc (fun _ => rfl) (fun r hr pos hpos hsame => ?_) (fun r _ n _ => ?_) hn
  · obtain rfl := Option.some.inj hsame
    exact hne r hr (hpos.eq_rest hfirst)
  · rcases hmark : after? doctypeMark r with _ | left
    · exact follows_startsWith_none hmark (follows_pure ())
    · exact follows_startsWith hmark (follows_fail _)

/-- A document type declaration is skipped, with what stands before and after it. -/
theorem follows_prolog_false {n : Nat} (hn : s.length < n) :
    Follows whole s (prolog first false n) (silently (skipMisc s >>= skipDoctypes)) := by
  have hsame : silently (skipMisc s >>= skipDoctypes) =
      (skipMisc s >>= fun r => silently (skipDoctypes r)) := by
    cases skipMisc s <;> rfl
  rw [hsame]
  refine follows_skipMisc (fun _ => rfl) (fun r hr pos hpos hfirst' => ?_) (fun r hr n hn => ?_) hn
  · obtain rfl := Option.some.inj hfirst'
    exact hne r hr (hpos.eq_rest hfirst)
  rw [skipDoctypes]
  rcases hmark : after? doctypeMark r with _ | left
  · exact follows_startsWith_none hmark (follows_pure ())
  have hskip : Follows whole r doctype (silently (readDoctype r left)) :=
    after?_eq_some.1 hmark ▸ follows_doctype
  refine follows_startsWith hmark ?_
  rw [if_neg Bool.false_ne_true]
  dsimp only
  refine hskip.bind_silently (fun stop hread => by rw [hread]; rfl) fun after hread => ?_
  have hlength : after.length < r.length := by
    have hafter := readDoctype_length hread
    have hleft := after?_length hmark
    omega
  have hprolog : Follows whole after (prolog first true n) _ :=
    follows_prolog_true hfirst (fun r' hr' => hne r' (hr'.trans (hlength.le.trans hr)))
      (hlength.trans_le hn)
  rw [hread]
  dsimp only
  rcases hmisc : skipMisc after with stop | rest
  · rw [hmisc] at hprolog
    exact hprolog
  · rw [hmisc] at hprolog
    change Follows _ _ _ (if _ then _ else _) at hprolog
    dsimp only
    split
    · next hdoctype => rwa [if_pos hdoctype] at hprolog
    · next hdoctype => rwa [if_neg hdoctype] at hprolog

end Prolog

/-- At the start of a document, an instruction may be the declaration. -/
theorem follows_prolog_start {first n : Nat} (hfirst : At whole s first) (hn : s.length < n) :
    Follows whole s (prolog first false n)
      (silently (skipDeclaration s >>= fun r => skipMisc r >>= skipDoctypes)) := by
  rw [skipDeclaration]
  rcases hmark : after? instructionMark s with _ | r
  · refine follows_prolog_false hfirst (fun r _ hr => ?_) hn
    rw [← hr, after?_append] at hmark
    exact absurd hmark (by simp)
  obtain rfl := after?_eq_some.1 hmark
  have hskip := follows_checkedInstruction_first hfirst
  have hspace : skipSpace (instructionMark ++ r) = instructionMark ++ r := rfl
  cases n with
  | zero => exact absurd hn (Nat.not_lt_zero _)
  | succ n =>
    rw [prolog]
    refine .bind follows_skipSpaces ?_
    rw [hspace]
    refine follows_startsWith_none rfl (follows_startsWith hmark ?_)
    dsimp only
    -- From here on the text is shorter, so no instruction stands where the declaration may.
    refine hskip.bind_silently (fun stop hread => by rw [hread]; rfl) fun left hread => ?_
    have hleft : left.length < (instructionMark ++ r).length := by
      obtain ⟨⟨target, left⟩, hinstruction, rfl⟩ := map_eq_ok.1 hread
      exact (readInstruction_length hinstruction).trans_le (List.suffix_append instructionMark r).length_le
    rw [hread]
    refine follows_prolog_false hfirst (fun r' hr' heq => ?_) (by omega)
    exact absurd (heq ▸ hr') (Nat.not_le_of_lt hleft)

/-- Everything before the root element is skipped. -/
theorem follows_preamble : Follows whole s preamble (silently (skipProlog s)) := by
  unfold preamble skipProlog
  exact .bind follows_byteOrderMark (follows_offset fun first hfirst =>
    follows_rounds fun n hn => follows_prolog_start hfirst hn)

/-- A root element is read, and what may follow it is skipped. -/
theorem follows_rootOnly :
    Follows whole ('<' :: s)
      (do
        let root ← element 0 []
        misc (← rounds)
        if (← rest).isEmpty then return root else fail .contentAfterRoot)
      (Except.map (fun root => (root, [])) do
        let (root, left) ← readElement ('<' :: s) s
        let left ← skipMisc left
        if left = [] then .ok root else .error ⟨.contentAfterRoot, left⟩) := by
  refine follows_root.bind_cases (fun stop hread => by rw [hread]; rfl) fun root left hread => ?_
  rw [hread]
  change Follows _ _ _ (Except.map _ (skipMisc left >>= fun left => _))
  refine follows_rounds fun n hn => ?_
  refine (follows_misc hn).bind_silently (fun stop hskip => by rw [hskip]; rfl) fun after hskip => ?_
  rw [hskip]
  refine .bind follows_rest ?_
  rcases after with _ | ⟨c, after⟩
  · exact follows_pure root
  · exact follows_fail _

/-- A document is read up to its end. -/
theorem follows_document :
    Follows whole s document ((readDocument s).map fun root => (root, [])) := by
  unfold document readDocument
  refine follows_preamble.bind_silently (fun stop hskip => by rw [hskip]; rfl) fun r hskip => ?_
  rw [hskip]
  refine .bind follows_rest ?_
  rcases r with _ | ⟨c, r⟩
  · exact follows_fail _
  by_cases hc : c = '<'
  · subst hc
    exact follows_rootOnly
  · have htext : Follows whole (c :: r) (fail .textBeforeRoot : Reader Element) _ := follows_fail _
    simpa [hc, bind, Except.bind, Except.map] using htext

end ParamClass.Xml.Offsets
