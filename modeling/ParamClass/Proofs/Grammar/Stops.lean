import ParamClass.Proofs.Grammar.Doctype

/-!
# Where readers stop

A reader of a part of a document that meets a fault stops at a place of the text that it was given,
and for a reason that lies in the part (`Stop.Within`). That the root element is followed by
something else is no such reason: only the reader of the whole document finds it, when everything
before has been read.
-/

namespace ParamClass.Xml

open Text

/-- A stop of a reader of a part of a document. -/
structure Stop.Within (s : List Char) (stop : Stop) : Prop where
  /-- It is at a place of the text. -/
  rest : stop.rest <:+ s
  /-- It is not for what follows the root element. -/
  cause : stop.cause ≠ .contentAfterRoot

/-- A stop at a place of a text is one at a place of a text that ends in it. -/
theorem Stop.Within.mono {s t : List Char} {stop : Stop} (h : stop.Within s) (hs : s <:+ t) :
    stop.Within t :=
  ⟨h.rest.trans hs, h.cause⟩

/-- A fault at the start of a text is a stop within it, unless it is for what follows the root
element. -/
theorem within_of_error {α : Type} {s : List Char} {cause : Cause} {stop : Stop}
    (h : (.error ⟨cause, s⟩ : Except Stop α) = .error stop) (hcause : cause ≠ .contentAfterRoot) :
    stop.Within s := by
  obtain rfl := Except.error.inj h
  exact ⟨List.suffix_rfl, hcause⟩

/-- What follows some leading spaces ends the text. -/
theorem skipSpace_suffix (s : List Char) : skipSpace s <:+ s := List.dropWhile_suffix _

/-! ## Names, references and values -/

/-- Reading a name stops where the name should start. -/
theorem readName_within {s : List Char} {stop : Stop} (h : readName s = .error stop) :
    stop.Within s := by
  unfold readName at h
  split at h
  · exact within_of_error h (by simp)
  · split_ifs at h
    exact within_of_error h (by simp)

/-- A name that does not decode gives no fault of the whole document. -/
theorem decodeReference_ne {name : List Char} {cause : Cause}
    (h : decodeReference name = .error cause) : cause ≠ .contentAfterRoot := by
  unfold decodeReference at h
  split at h
  · exact absurd h (by simp)
  · split at h
    · obtain rfl := Except.error.inj h
      simp
    · dsimp only at h
      split at h
      · exact absurd h (by simp)
      · obtain rfl := Except.error.inj h
        simp

/-- Reading a reference stops at its ampersand. -/
theorem readReference_within {s : List Char} {stop : Stop} (h : readReference s = .error stop) :
    stop.Within ('&' :: s) := by
  unfold readReference at h
  split at h
  · exact within_of_error h (by simp)
  · split at h
    · exact absurd h (by simp)
    · next cause hcause =>
      exact within_of_error h (decodeReference_ne hcause)

/-- What follows a reference ends the text. -/
theorem readReference_suffix {s rest : List Char} {c : Char} (h : readReference s = .ok (c, rest)) :
    rest <:+ '&' :: s := by
  obtain ⟨t, -, hs⟩ := readReference_eq_ok_iff.1 h
  exact ⟨t, hs.symm⟩

/-- Reading a value stops inside the text. -/
theorem readValue_within {quote : Char} {s : List Char} {stop : Stop}
    (h : readValue quote s = .error stop) : stop.Within s := by
  fun_induction readValue quote s with
  | case1 => exact within_of_error h (by simp)
  | case2 => exact absurd h (by simp)
  | case3 => exact within_of_error h (by simp)
  | case4 r _ hr =>
    obtain rfl := Except.error.inj h
    exact readReference_within hr
  | case5 r d after hr _ hv _ _ ih =>
    obtain rfl := Except.error.inj h
    exact (ih hv).mono (readReference_suffix hr)
  | case6 => exact absurd h (by simp)
  | case7 c r _ _ _ _ hv ih =>
    obtain rfl := Except.error.inj h
    exact (ih hv).mono (List.suffix_cons c r)
  | case8 => exact absurd h (by simp)

/-- Reading a quoted value stops inside the text. -/
theorem readQuoted_within {s : List Char} {stop : Stop} (h : readQuoted s = .error stop) :
    stop.Within s := by
  unfold readQuoted at h
  split at h
  · exact within_of_error h (by simp)
  · next c r =>
    split_ifs at h
    · exact (readValue_within h).mono (List.suffix_cons c r)
    · exact within_of_error h (by simp)

/-! ## Tags -/

/-- Reading an attribute stops inside the text. -/
theorem readAttribute_within {s : List Char} {stop : Stop} (h : readAttribute s = .error stop) :
    stop.Within s := by
  unfold readAttribute at h
  split at h
  · next hn =>
    obtain rfl := Except.error.inj h
    exact readName_within hn
  · next name r hn =>
    obtain ⟨-, -, hs⟩ := readName_eq_ok_iff.1 hn
    have hr : skipSpace r <:+ s := (skipSpace_suffix r).trans ⟨_, hs.symm⟩
    split at h
    · next r' heq =>
      rw [heq] at hr
      have hr' : skipSpace r' <:+ s :=
        (skipSpace_suffix r').trans ((List.suffix_cons _ r').trans hr)
      split at h
      · next hq =>
        obtain rfl := Except.error.inj h
        exact (readQuoted_within hq).mono hr'
      · exact absurd h (by simp)
    · obtain rfl := Except.error.inj h
      exact ⟨hr, by simp⟩

/-- Reading attributes stops inside the text. -/
theorem readAttributes_within {name : String} {before : List RawAttribute} {s : List Char}
    {stop : Stop} (h : readAttributes name before s = .error stop) : stop.Within s := by
  fun_induction readAttributes name before s with
  | case1 => exact absurd h (by simp)
  | case2 => exact absurd h (by simp)
  | case3 =>
    obtain rfl := Except.error.inj h
    exact ⟨List.nil_suffix, by simp⟩
  | case4 => exact within_of_error h (by simp)
  | case5 before s _ _ _ _ _ hr =>
    obtain rfl := Except.error.inj h
    exact (readAttribute_within hr).mono (skipSpace_suffix s)
  | case6 before s =>
    obtain rfl := Except.error.inj h
    exact ⟨skipSpace_suffix s, by simp⟩
  | case7 before s _ _ _ _ a rest hr _ ih =>
    obtain ⟨t, -, hs⟩ := readAttribute_eq_ok_iff.1 hr
    have hrest : rest <:+ skipSpace s := ⟨t, hs.symm⟩
    exact (ih h).mono (hrest.trans (skipSpace_suffix s))

/-- Reading a start tag stops inside the text. -/
theorem readTag_within {s : List Char} {stop : Stop} (h : readTag s = .error stop) :
    stop.Within s := by
  unfold readTag at h
  split at h
  · next hn =>
    obtain rfl := Except.error.inj h
    exact readName_within hn
  · next hn =>
    obtain ⟨-, -, hs⟩ := readName_eq_ok_iff.1 hn
    exact (readAttributes_within h).mono ⟨_, hs.symm⟩

/-- Reading an end tag stops inside the text. -/
theorem readEndTag_within {name : String} {start s : List Char} {stop : Stop} (hs : s <:+ start)
    (h : readEndTag name start s = .error stop) : stop.Within start := by
  unfold readEndTag at h
  split at h
  · next hn =>
    obtain rfl := Except.error.inj h
    exact (readName_within hn).mono hs
  · next found r hn =>
    obtain ⟨-, -, hr⟩ := readName_eq_ok_iff.1 hn
    have hrest : r <:+ s := ⟨_, hr.symm⟩
    split_ifs at h
    · split at h
      · exact absurd h (by simp)
      · obtain rfl := Except.error.inj h
        exact ⟨(skipSpace_suffix r).trans (hrest.trans hs), by simp⟩
    · exact within_of_error h (by simp)

/-! ## Resolving names -/

/-- A declaration that is refused gives no fault of the whole document. -/
theorem declarations_ne {as : List RawAttribute} {cause : Cause}
    (h : declarations as = .error cause) : cause ≠ .contentAfterRoot := by
  fun_induction declarations as with
  | case1 => exact absurd h (by simp)
  | case2 _ _ _ ih => exact ih h
  | case3 =>
    obtain rfl := Except.error.inj h
    simp
  | case4 _ _ _ _ _ hrest _ ih =>
    obtain rfl := Except.error.inj h
    exact ih hrest
  | case5 => exact absurd h (by simp)

/-- A prefix that is not bound gives no fault of the whole document. -/
theorem Scope.resolve_ne {scope : Scope} {pre : Option String} {cause : Cause}
    (h : scope.resolve pre = .error cause) : cause ≠ .contentAfterRoot := by
  unfold resolve at h
  split_ifs at h
  split at h
  · obtain rfl := Except.error.inj h
    simp
  · exact absurd h (by simp)
  · exact absurd h (by simp)

/-- An attribute that does not resolve gives no fault of the whole document. -/
theorem RawAttribute.resolve_ne {scope : Scope} {a : RawAttribute} {cause : Cause}
    (h : a.resolve scope = .error cause) : cause ≠ .contentAfterRoot := by
  unfold resolve at h
  split at h
  · obtain rfl := Except.error.inj h
    simp
  · exact absurd h (by simp)
  · split at h
    · next hscope =>
      obtain rfl := Except.error.inj h
      exact Scope.resolve_ne hscope
    · exact absurd h (by simp)

/-- Attributes that do not resolve give no fault of the whole document. -/
theorem resolveAttributes_ne {scope : Scope} {as : List RawAttribute} {cause : Cause}
    (h : resolveAttributes scope as = .error cause) : cause ≠ .contentAfterRoot := by
  fun_induction resolveAttributes scope as with
  | case1 => exact absurd h (by simp)
  | case2 _ _ _ ih => exact ih h
  | case3 _ _ _ _ ha =>
    obtain rfl := Except.error.inj h
    exact RawAttribute.resolve_ne ha
  | case4 _ _ _ _ _ _ hrest ih =>
    obtain rfl := Except.error.inj h
    exact ih hrest
  | case5 => exact absurd h (by simp)

/-- A tag that does not resolve gives no fault of the whole document. -/
theorem Tag.resolve_ne {tag : Tag} {outer : Scope} {cause : Cause}
    (h : tag.resolve outer = .error cause) : cause ≠ .contentAfterRoot := by
  unfold resolve at h
  split at h
  · next hinner =>
    obtain rfl := Except.error.inj h
    exact declarations_ne hinner
  · dsimp only at h
    split at h
    · obtain rfl := Except.error.inj h
      simp
    · split at h
      · next hname =>
        obtain rfl := Except.error.inj h
        exact Scope.resolve_ne hname
      · split at h
        · next hattributes =>
          obtain rfl := Except.error.inj h
          exact resolveAttributes_ne hattributes
        · exact absurd h (by simp)

/-! ## Markup that leaves nothing behind -/

/-- Reading a comment stops where it begins. -/
theorem readComment_within {start s : List Char} {stop : Stop} (h : readComment start s = .error stop) :
    stop.Within start := by
  unfold readComment at h
  split at h
  · exact within_of_error h (by simp)
  · exact absurd h (by simp)
  · exact within_of_error h (by simp)

/-- Reading an instruction stops inside the text. -/
theorem readInstruction_within {start s : List Char} {stop : Stop} (hs : s <:+ start)
    (h : readInstruction start s = .error stop) : stop.Within start := by
  unfold readInstruction at h
  split at h
  · next hn =>
    obtain rfl := Except.error.inj h
    exact (readName_within hn).mono hs
  · split at h
    · exact within_of_error h (by simp)
    · exact absurd h (by simp)

/-- Reading an instruction that may be no declaration stops inside the text. -/
theorem readPlainInstruction_within {start s : List Char} {stop : Stop} (hs : s <:+ start)
    (h : readPlainInstruction start s = .error stop) : stop.Within start := by
  unfold readPlainInstruction at h
  split at h
  · next hi =>
    obtain rfl := Except.error.inj h
    exact readInstruction_within hs hi
  · split_ifs at h
    exact within_of_error h (by simp)

/-- Reading a document type declaration stops where it begins. -/
theorem readDoctype_within {start s : List Char} {stop : Stop} (h : readDoctype start s = .error stop) :
    stop.Within start := by
  unfold readDoctype at h
  split at h
  · exact within_of_error h (by simp)
  · exact absurd h (by simp)

/-! ## Elements -/

/-- Opening an element stops inside the text. -/
theorem openElement_within {outer : List Frame} {start s : List Char} {stop : Stop}
    (hs : '<' :: s <:+ start) (h : openElement outer start s = .error stop) : stop.Within start := by
  have hs' : s <:+ start := (List.suffix_cons _ s).trans hs
  unfold openElement at h
  split_ifs at h
  · exact within_of_error h (by simp)
  · split at h
    · next ht =>
      obtain rfl := Except.error.inj h
      exact (readTag_within ht).mono hs'
    · next tag rest ht =>
      obtain ⟨t, -, heq⟩ := readTag_eq_ok_iff.1 ht
      have hrest : rest <:+ '<' :: s := ⟨t, heq.symm⟩
      split at h
      · next hresolve =>
        obtain rfl := Except.error.inj h
        exact ⟨hrest.trans hs, Tag.resolve_ne hresolve⟩
      · split_ifs at h

/-- Reading a piece of content stops inside the text. -/
theorem readPiece_within {top : Frame} {outer : List Frame} {s : List Char} {stop : Stop}
    (h : readPiece top outer s = .error stop) : stop.Within s := by
  have hmark : ∀ {lead r}, Lead.of? s = some (lead, r) → r <:+ s := fun hl =>
    ⟨_, (Lead.eq_of_of? hl).symm⟩
  rw [readPiece.eq_def] at h
  split at h
  · next hl => exact readEndTag_within (hmark hl) (map_eq_error.1 h)
  · next hl => exact readComment_within (map_eq_error.1 h)
  · next r hl =>
    split at h
    · obtain rfl := Except.error.inj h
      exact ⟨hmark hl, by simp⟩
    · exact absurd h (by simp)
  · next hl => exact readPlainInstruction_within (hmark hl) (map_eq_error.1 h)
  · exact within_of_error h (by simp)
  · next r hl =>
    obtain rfl : s = '<' :: r := Lead.eq_of_of? hl
    exact openElement_within List.suffix_rfl h
  · next r hl =>
    obtain rfl : s = '&' :: r := Lead.eq_of_of? hl
    exact readReference_within (map_eq_error.1 h)
  · exact within_of_error h (by simp)
  · split at h
    · exact within_of_error h (by simp)
    · exact absurd h (by simp)

/-- What follows a piece of content ends the text. -/
theorem Piece.suffix {top : Frame} {outer : List Frame} {s rest : List Char} {p : Progress}
    (h : Piece top outer s p rest) : rest <:+ s := by
  cases h with
  | char => exact List.suffix_cons _ rest
  | reference | cdata | comment | instruction | startTag | endTag => exact List.suffix_append _ rest

/-- Reading content stops inside the text. -/
theorem readContent_within {progress : Progress} {s : List Char} {stop : Stop}
    (h : readContent progress s = .error stop) : stop.Within s := by
  fun_induction readContent progress s with
  | case1 => exact absurd h (by simp)
  | case2 s top outer stop' hpiece =>
    obtain rfl := Except.error.inj h
    exact readPiece_within hpiece
  | case3 s top outer next rest hpiece ih =>
    exact (ih h).mono (piece_of_readPiece hpiece).suffix

/-- Reading a root element stops inside the text. -/
theorem readElement_within {start s : List Char} {stop : Stop} (hs : '<' :: s <:+ start)
    (h : readElement start s = .error stop) : stop.Within start := by
  unfold readElement at h
  split at h
  · next hopen =>
    obtain rfl := Except.error.inj h
    exact openElement_within hs hopen
  · next hopen =>
    obtain ⟨-, t, -, -, -, -, -, heq, -⟩ := openElement_eq_ok_iff.1 hopen
    exact (readContent_within h).mono (List.IsSuffix.trans ⟨t, heq.symm⟩ hs)

/-! ## Around the root element -/

/-- Skipping what may stand around a root element stops inside the text. -/
theorem skipMisc_within {s : List Char} {stop : Stop} (h : skipMisc s = .error stop) :
    stop.Within s := by
  have hspace := skipSpace_suffix s
  fun_induction skipMisc s with
  | case1 s r hr _ hc =>
    obtain rfl := Except.error.inj h
    exact (readComment_within hc).mono hspace
  | case2 s r hr rest hc ih =>
    obtain ⟨t, -, heq⟩ := readComment_eq_ok_iff.1 hc
    have hrest : rest <:+ skipSpace s := by
      rw [after?_eq_some.1 hr]
      exact ⟨t, heq.symm⟩
    exact (ih h (skipSpace_suffix rest)).mono (hrest.trans hspace)
  | case3 s _ r hr _ hi =>
    obtain rfl := Except.error.inj h
    refine (readPlainInstruction_within ?_ hi).mono hspace
    exact ⟨_, (after?_eq_some.1 hr).symm⟩
  | case4 s _ r hr rest hi ih =>
    obtain ⟨target, t, -, -, heq⟩ := readPlainInstruction_eq_ok_iff.1 hi
    have hrest : rest <:+ skipSpace s := by
      rw [after?_eq_some.1 hr]
      exact ⟨t, heq.symm⟩
    exact (ih h (skipSpace_suffix rest)).mono (hrest.trans hspace)
  | case5 => exact absurd h (by simp)

/-- What follows a byte order mark ends the text. -/
theorem skipMark_suffix (s : List Char) : skipMark s <:+ s := by
  unfold skipMark
  split
  · exact List.suffix_cons _ _
  · exact List.suffix_rfl

/-- Skipping an instruction at the very start stops inside the text. -/
theorem skipDeclaration_within {s : List Char} {stop : Stop} (h : skipDeclaration s = .error stop) :
    stop.Within s := by
  unfold skipDeclaration at h
  split at h
  · exact absurd h (by simp)
  · next r hr => exact readInstruction_within ⟨_, (after?_eq_some.1 hr).symm⟩ (map_eq_error.1 h)

/-- What follows an instruction at the very start ends the text. -/
theorem skipDeclaration_suffix {s rest : List Char} (h : skipDeclaration s = .ok rest) :
    rest <:+ s := by
  unfold skipDeclaration at h
  split at h
  · obtain rfl := Except.ok.inj h
    exact List.suffix_rfl
  · next r hr =>
    obtain ⟨⟨target, rest'⟩, hread, rfl⟩ := map_eq_ok.1 h
    obtain ⟨t, -, heq⟩ := readInstruction_eq_ok_iff.1 hread
    rw [after?_eq_some.1 hr]
    exact ⟨t, heq.symm⟩

/-- Skipping a document type declaration stops inside the text. -/
theorem skipDoctypes_within {s : List Char} {stop : Stop} (h : skipDoctypes s = .error stop) :
    stop.Within s := by
  unfold skipDoctypes at h
  split at h
  · exact absurd h (by simp)
  · next r hr =>
    split at h
    · next hd =>
      obtain rfl := Except.error.inj h
      exact readDoctype_within hd
    · next r' hd =>
      have hr' : r' <:+ s := by
        unfold readDoctype at hd
        split at hd
        · exact absurd hd (by simp)
        · next hskip =>
          obtain rfl := Except.ok.inj hd
          obtain ⟨t, -, heq⟩ := skipDoctype_eq_some_iff.1 hskip
          exact ⟨doctypeMark ++ t ++ ['>'], by rw [after?_eq_some.1 hr, heq]; simp⟩
      split at h
      · next hm =>
        obtain rfl := Except.error.inj h
        exact (skipMisc_within hm).mono hr'
      · next hm =>
        obtain ⟨m, -, -, rfl⟩ := skipMisc_eq_ok_iff.1 hm
        split_ifs at h
        obtain rfl := Except.error.inj h
        exact ⟨(List.suffix_append m _).trans hr', by simp⟩

/-- Skipping what stands before the root element stops inside the text. -/
theorem skipProlog_within {s : List Char} {stop : Stop} (h : skipProlog s = .error stop) :
    stop.Within s := by
  have hmark := skipMark_suffix s
  rw [skipProlog, bind_eq_error] at h
  rcases h with h | ⟨s', hdeclaration, h⟩
  · exact (skipDeclaration_within h).mono hmark
  · have hs' := (skipDeclaration_suffix hdeclaration).trans hmark
    rcases bind_eq_error.1 h with hmisc | ⟨rest, hmisc, hdoctypes⟩
    · exact (skipMisc_within hmisc).mono hs'
    · obtain ⟨m, -, -, rfl⟩ := skipMisc_eq_ok_iff.1 hmisc
      exact (skipDoctypes_within hdoctypes).mono ((List.suffix_append m rest).trans hs')

end ParamClass.Xml
