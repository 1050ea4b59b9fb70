import ParamClass.Proofs.Offsets.Document

/-!
# Offsets and places of a document

Reading a document by offsets comes to the outcome that parsing it has. So every move and every cut of
such a reading is at an offset of the text. Each part of a document that is read takes at least one byte,
and a fault is reported at a place that the text really has (`parse_by_offsets`).
-/

namespace ParamClass.Text

/-- A place is one of a text: the text splits at it, its line is one of the lines of the text, and its
column is in that line or right after it. -/
structure Place.OfText (whole : List Char) (place : Place) : Prop where
  /-- Before the place stand the lines `above` and the part `last` of its own line. -/
  split : ∃ above last after, whole = above ++ last ++ after ∧
    (above = [] ∨ ∃ lines, above = lines ++ ['\n']) ∧ '\n' ∉ last ∧
    place = ⟨(above ++ last).count '\n' + 1, last.length + 1⟩
  /-- There are as many lines. -/
  line_le : place.line ≤ (whole.splitOn '\n').length
  /-- The line is as long, or one character shorter. -/
  column_le : ∃ line, (whole.splitOn '\n')[place.line - 1]? = some line ∧ place.column ≤ line.length + 1

/-! ## Places -/

/-- A text has one line more than it has line ends. -/
theorem length_splitOn (s : List Char) : (s.splitOn '\n').length = s.count '\n' + 1 := by
  induction s with
  | nil => rfl
  | cons c s ih =>
    rw [List.splitOn_cons_eq_if_modifyHead, List.count_cons]
    split
    · rw [List.length_cons, ih]
    · rw [List.length_modifyHead, ih, Nat.add_zero]

/-- Before a place stand whole lines and a part of its own line. -/
theorem Place.exists_after (before : List Char) :
    ∃ above last, before = above ++ last ∧ (above = [] ∨ ∃ lines, above = lines ++ ['\n']) ∧
      '\n' ∉ last ∧ Place.after before = ⟨before.count '\n' + 1, last.length + 1⟩ := by
  induction before using List.reverseRecOn with
  | nil => exact ⟨[], [], rfl, .inl rfl, List.not_mem_nil, rfl⟩
  | append_singleton before c ih =>
    obtain ⟨above, last, hbefore, habove, hlast, hplace⟩ := ih
    by_cases hc : c = '\n'
    · subst hc
      refine ⟨before ++ ['\n'], [], (List.append_nil _).symm, .inr ⟨before, rfl⟩,
        List.not_mem_nil, ?_⟩
      simp [Place.after]
    · refine ⟨above, last ++ [c], by rw [hbefore, List.append_assoc], habove, ?_, ?_⟩
      · simp [hlast, Ne.symm hc]
      · have hcolumn := congrArg Place.column hplace
        simp only [Place.after] at hcolumn
        simp [Place.after, hc, hcolumn]

/-- The line that a place is on starts with what stands on it before the place. -/
theorem exists_line {above last : List Char} (habove : above = [] ∨ ∃ lines, above = lines ++ ['\n'])
    (hlast : '\n' ∉ last) (after : List Char) :
    ∃ tail, ((above ++ last ++ after).splitOn '\n')[above.count '\n']? = some (last ++ tail) := by
  have hfirst : ∃ tail, ((last ++ after).splitOn '\n')[0]? = some (last ++ tail) := by
    by_cases hafter : '\n' ∈ after
    · obtain ⟨tail, more, rfl, htail⟩ := List.eq_append_cons_of_mem hafter
      refine ⟨tail, ?_⟩
      rw [← List.append_assoc, List.splitOn_append_cons_self_of_not_mem (by simp [hlast, htail])]
      rfl
    · refine ⟨after, ?_⟩
      rw [List.splitOn_eq_singleton (by simp [hlast, hafter])]
      rfl
  rcases habove with rfl | ⟨lines, rfl⟩
  · exact hfirst
  · -- The lines above are as many as the line ends in them.
    obtain ⟨tail, htail⟩ := hfirst
    have hwhole : lines ++ ['\n'] ++ last ++ after = lines ++ '\n' :: (last ++ after) := by simp
    have hcount : (lines ++ ['\n']).count '\n' = (lines.splitOn '\n').length := by
      rw [length_splitOn, List.count_append, List.count_singleton_self]
    refine ⟨tail, ?_⟩
    rw [hwhole, List.splitOn_append_cons_self, hcount, List.getElem?_append_right le_rfl, Nat.sub_self]
    exact htail

/-- The place that reading a part of a text reaches is one of the text. -/
theorem Place.ofText_after (before after : List Char) :
    (Place.after before).OfText (before ++ after) := by
  obtain ⟨above, last, rfl, habove, hlast, hplace⟩ := Place.exists_after before
  obtain ⟨tail, htail⟩ := exists_line habove hlast after
  have hcount : (above ++ last).count '\n' = above.count '\n' := by
    rw [List.count_append, List.count_eq_zero_of_not_mem hlast, Nat.add_zero]
  rw [hplace]
  refine ⟨⟨above, last, after, rfl, habove, hlast, rfl⟩, ?_, ⟨last ++ tail, ?_, ?_⟩⟩
  · rw [length_splitOn]
    exact Nat.add_le_add_right ((List.sublist_append_left _ after).count_le '\n') 1
  · rw [Nat.add_sub_cancel, hcount]
    exact htail
  · rw [List.length_append]
    exact Nat.add_le_add_right (Nat.le_add_right _ _) 1

end ParamClass.Text

namespace ParamClass.Xml.Offsets

open Text

variable {α : Type} {whole s t mark : List Char} {pos next : Nat}

/-! ## Offsets -/

/-- Where a part of the text is left, there is an offset. -/
theorem At.isOffset (h : At whole s pos) : IsOffset whole pos := by
  obtain ⟨before, hwhole, hlen⟩ := h
  rw [← isSome_splitBytes?_iff, splitBytes?_eq_some_iff.2 ⟨hwhole, hlen⟩]
  rfl

/-- Where less of the text is left, the offset is greater. -/
theorem At.lt (h : At whole s pos) (h' : At whole t next) (hlt : t.length < s.length) : pos < next := by
  obtain ⟨before, hwhole, rfl⟩ := h
  obtain ⟨before', rfl, rfl⟩ := h'
  -- What has been read between the two places is no empty text, so it has bytes.
  obtain ⟨taken, rfl, hs⟩ | ⟨taken, -, ht⟩ := List.append_eq_append_iff.1 hwhole.symm
  · have hne : String.utf8Len taken ≠ 0 := fun hzero => by
      rw [hs, String.utf8Len_eq_zero.1 hzero, List.nil_append] at hlt
      exact absurd hlt (Nat.lt_irrefl _)
    rw [String.utf8Len_append]
    omega
  · rw [ht, List.length_append] at hlt
    omega

/-- At an offset, a text is cut. -/
theorem exists_runAt_cutAt {n : Nat} (h : IsOffset s n) :
    ∃ parts, (cutAt n s).runAt whole pos = .ok (parts, pos) := by
  obtain ⟨parts, hparts⟩ := Option.isSome_iff_exists.1 (isSome_splitBytes?_iff.2 h)
  refine ⟨parts, ?_⟩
  rw [cutAt, hparts]
  rfl

/-- Where there is no offset, a cut leaves the text. -/
theorem runAt_cutAt_of_not_isOffset {n : Nat} (h : ¬ IsOffset s n) :
    (cutAt n s).runAt whole pos = .error .offText := by
  have hnone : splitBytes? n s = none := by
    rwa [← isSome_splitBytes?_iff, Bool.not_eq_true, Option.isSome_eq_false_iff,
      Option.isNone_iff_eq_none] at h
  rw [cutAt, hnone]
  rfl

/-- A cut leaves the text exactly where there is no offset. -/
theorem runAt_cutAt_eq_offText_iff {n : Nat} :
    (cutAt n s).runAt whole pos = .error .offText ↔ ¬ IsOffset s n := by
  refine ⟨fun hrun hoffset => ?_, runAt_cutAt_of_not_isOffset⟩
  obtain ⟨parts, hparts⟩ : ∃ parts, (cutAt n s).runAt whole pos = .ok (parts, pos) :=
    exists_runAt_cutAt hoffset
  exact absurd (hparts.symm.trans hrun) (by simp)

/-- A move leaves the text exactly where it ends at no offset. -/
theorem runAt_advance_eq_offText_iff {n : Nat} :
    (advance n).runAt whole pos = .error .offText ↔ ¬ IsOffset whole (pos + n) := by
  -- A move is a cut of the whole text where the move ends.
  change (cutAt (pos + n) whole >>= fun _ => set (pos + n)).runAt whole pos = _ ↔ _
  refine ⟨fun hrun hoffset => ?_, fun h => runAt_bind_error (runAt_cutAt_of_not_isOffset h)⟩
  obtain ⟨parts, hparts⟩ : ∃ parts, (cutAt (pos + n) whole).runAt whole pos = .ok (parts, pos) :=
    exists_runAt_cutAt hoffset
  have hset : (set (pos + n) : Reader Unit).runAt whole pos = .ok ((), pos + n) := rfl
  rw [runAt_bind_ok hparts, hset] at hrun
  exact absurd hrun (by simp)

/-! ## Progress -/

/-- From every offset of the text where `mark` is next, a reader comes to a later offset of the text or to
a fault at a place of the text. -/
def Forward (whole mark : List Char) (reader : Reader α) : Prop :=
  ∀ s pos, At whole (mark ++ s) pos →
    (∃ a next, pos < next ∧ IsOffset whole next ∧ reader.runAt whole pos = .ok (a, next)) ∨
      ∃ fault, fault.place.OfText whole ∧ reader.runAt whole pos = .error (.fault fault)

/-- A stop within a text is a fault at a place of it. -/
theorem ofText_of_suffix {stop : Stop} (h : stop.rest <:+ whole) :
    (stop.fault whole).place.OfText whole := by
  obtain ⟨before, rfl⟩ := h
  rw [Stop.fault_append]
  exact Place.ofText_after before stop.rest

/-- A reader that follows another one goes forward if that one takes something of the text. -/
theorem Forward.of_follows {reader : Reader α} {result : List Char → Except Stop (α × List Char)}
    (h : ∀ s, Follows whole (mark ++ s) reader (result s))
    (hshort : ∀ s a left, result s = .ok (a, left) → left.length < (mark ++ s).length) :
    Forward whole mark reader := by
  intro s pos hpos
  have hends := h s pos hpos
  rcases hresult : result s with stop | ⟨a, left⟩
  · rw [hresult] at hends
    obtain ⟨hsuffix, hrun⟩ := hends
    exact .inr ⟨_, ofText_of_suffix hsuffix, hrun⟩
  · rw [hresult] at hends
    obtain ⟨next, hnext, hrun⟩ := hends
    exact .inl ⟨a, next, hpos.lt hnext (hshort s a left hresult), hnext.isOffset, hrun⟩

/-- A reader without a value goes forward if the one that it follows takes something of what stands after
the mark. -/
theorem Forward.of_follows_silently {reader : Reader Unit}
    {result : List Char → Except Stop (List Char)}
    (h : ∀ s, Follows whole (mark ++ s) reader (silently (result s)))
    (hshort : ∀ s left, result s = .ok left → left.length < s.length) :
    Forward whole mark reader := by
  refine .of_follows h fun s a left hok => ?_
  obtain ⟨left', hresult, heq⟩ := map_eq_ok.1 hok
  obtain ⟨-, rfl⟩ := Prod.mk.inj heq
  exact (hshort s _ hresult).trans_le (List.suffix_append mark s).length_le

/-- Comments go forward. -/
theorem forward_comment : Forward whole commentMark comment :=
  .of_follows_silently (fun _ => follows_comment) fun _ _ => readComment_length

/-- Instructions go forward. -/
theorem forward_instruction : Forward whole instructionMark instruction :=
  .of_follows (fun _ => follows_instruction) fun s _ _ hread =>
    (readInstruction_length hread).trans_le (List.suffix_append instructionMark s).length_le

/-- Document type declarations go forward. -/
theorem forward_doctype : Forward whole doctypeMark doctype :=
  .of_follows_silently (fun _ => follows_doctype) fun _ _ => readDoctype_length

/-- Names go forward. -/
theorem forward_name : Forward whole [] name :=
  .of_follows (fun _ => follows_name) fun _ _ _ => readName_length

/-- References go forward. -/
theorem forward_reference : Forward whole ['&'] reference :=
  .of_follows (fun _ => follows_reference) fun s _ _ hread =>
    (readReference_length hread).trans_le (List.suffix_append ['&'] s).length_le

/-- Values of attributes go forward. -/
theorem forward_quoted : Forward whole [] quoted :=
  .of_follows (fun _ => follows_quoted) fun _ _ _ => readQuoted_length

/-- End tags go forward. -/
theorem forward_endTag (opened : String) : Forward whole ['<', '/'] (endTag opened) :=
  .of_follows_silently (fun _ => follows_endTag opened) fun _ _ => readEndTag_length

/-- Elements go forward, whatever is open around them. -/
theorem forward_element (outer : List Frame) :
    Forward whole ['<'] (element outer.length (scopeOf outer)) := by
  choose result hresult _ hshort using fun s => elementFollows whole s outer
  refine .of_follows (fun s => ?_) hshort
  exact follows_rounds fun n hn => hresult s n (Nat.lt_of_succ_lt hn)

/-! ## Documents -/

/-- A document is read by offsets with the outcome that parsing it has. -/
theorem runAt_document (text : String) :
    document.runAt (normalizeLines text.toList) 0 =
      ((parse text).mapError Halt.fault).map (·, String.utf8Len (normalizeLines text.toList)) := by
  generalize hwhole : normalizeLines text.toList = whole
  have hends : Ends whole (document.runAt whole 0) _ := follows_document 0 ⟨[], rfl, rfl⟩
  rw [parse, hwhole]
  rcases hread : readDocument whole with stop | root
  · rw [hread] at hends
    exact hends.2
  · rw [hread] at hends
    obtain ⟨pos, ⟨before, hbefore, rfl⟩, hrun⟩ := hends
    rw [List.append_nil] at hbefore
    rw [hrun, hbefore]
    rfl

/-- Reading a document by offsets comes to the outcome of parsing the text, and to no other one. So no cut
and no move of it leaves the text, since that would end it with `offText`, and no loop is `endless`. Each
part of a document that is read moves the offset on, from wherever in the text it stands. A fault is
reported at a place of the text. -/
theorem parse_by_offsets (text : String) :
    let whole := normalizeLines text.toList
    (∀ n s pos, (cutAt n s).runAt whole pos = .error .offText ↔ ¬ IsOffset s n) ∧
    (∀ n pos, (advance n).runAt whole pos = .error .offText ↔ ¬ IsOffset whole (pos + n)) ∧
    document.runAt whole 0 = ((parse text).mapError Halt.fault).map (·, String.utf8Len whole) ∧
    Forward whole commentMark comment ∧ Forward whole instructionMark instruction ∧
    Forward whole doctypeMark doctype ∧ Forward whole [] name ∧ Forward whole ['&'] reference ∧
    Forward whole [] quoted ∧ (∀ opened, Forward whole ['<', '/'] (endTag opened)) ∧
    (∀ outer, Forward whole ['<'] (element outer.length (scopeOf outer))) ∧
    ∀ fault, parse text = .error fault → fault.place.OfText whole := by
  intro whole
  refine ⟨fun n s pos => runAt_cutAt_eq_offText_iff, fun n pos => runAt_advance_eq_offText_iff,
    runAt_document text, forward_comment, forward_instruction, forward_doctype, forward_name,
    forward_reference, forward_quoted, forward_endTag, forward_element, fun fault hfault => ?_⟩
  obtain ⟨stop, hread, rfl⟩ := parse_eq_error_iff.1 hfault
  have hends : Ends whole (document.runAt whole 0) _ := follows_document 0 ⟨[], rfl, rfl⟩
  rw [hread] at hends
  exact ofText_of_suffix hends.1

/-- A fault behind characters of two bytes is on the second line, and a comment with such a character takes
nine bytes. -/
theorem parse_by_offsets_of_umlaut :
    let text := "<ä><!--ö-->\r\nü</b>"
    let whole := "<ä><!--ö-->\nü</b>".toList
    let fault : Fault := ⟨.mismatchedEnd "ä" "b", ⟨2, 2⟩⟩
    normalizeLines text.toList = whole ∧ parse text = .error fault ∧
      document.runAt whole 0 = .error (.fault fault) ∧ fault.place.OfText whole ∧
      4 < 13 ∧ IsOffset whole 13 ∧ comment.runAt whole 4 = .ok ((), 13) := by
  intro text whole fault
  have hwhole : normalizeLines text.toList = whole := by decide +kernel
  have hparse : parse text = .error fault := by decide +kernel
  have hcomment : comment.runAt whole 4 = .ok ((), 13) := by decide +kernel
  have hpos : At whole (commentMark ++ "ö-->\nü</b>".toList) 4 := ⟨"<ä>".toList, by decide, by decide⟩
  obtain ⟨-, -, hdocument, hforward, -, -, -, -, -, -, -, hplace⟩ := parse_by_offsets text
  rw [hwhole] at hdocument hforward hplace
  rw [hparse] at hdocument
  refine ⟨hwhole, hparse, hdocument, hplace fault hparse, by decide, ?_, hcomment⟩
  rcases hforward _ 4 hpos with ⟨_, next, hlt, hnext, hrun⟩ | ⟨fault', -, hrun⟩
  · rw [hcomment] at hrun
    obtain ⟨-, rfl⟩ := Prod.mk.inj (Except.ok.inj hrun)
    exact hnext
  · rw [hcomment] at hrun
    exact absurd hrun (by simp)

end ParamClass.Xml.Offsets
