import Mathlib.Data.List.Nodup
import ParamClass.Proofs.Grammar.Markup
import ParamClass.Proofs.Grammar.Reference

/-!
# The grammar of tags

A start tag is a name, attributes that each have a space before them, and `>` or `/>`; no two of its
attributes have the same name. A value may hold neither its own quote nor a `<`, and what it
stands for has its references decoded and a space for every tab and line end that is written as
such. An end tag repeats the name of the start tag. Reading each of them succeeds exactly on a text
of the grammar and what follows it.
-/

namespace ParamClass.Xml

open Text

/-! ## Values -/

/-- What may stand between two quotes, and the value it stands for. -/
inductive ValueText (quote : Char) : List Char → List Char → Prop where
  /-- Nothing. -/
  | nil : ValueText quote [] []
  /-- A character. -/
  | char {c s v} (hquote : c ≠ quote) (hlt : c ≠ '<') (hamp : c ≠ '&') (hs : ValueText quote s v) :
      ValueText quote (c :: s) ((if c = '\t' ∨ c = '\n' then ' ' else c) :: v)
  /-- A reference. -/
  | reference {t c s v} (ht : ReferenceText t c) (hs : ValueText quote s v) :
      ValueText quote (t ++ s) (c :: v)

/-- A value between quotes of either kind. -/
def QuotedText (t value : List Char) : Prop :=
  ∃ quote body, (quote = '"' ∨ quote = '\'') ∧ ValueText quote body value ∧
    t = quote :: body ++ [quote]

/-- Reading a value goes past a reference. -/
theorem readValue_reference {quote c : Char} {t s : List Char} (hquote : quote ≠ '&')
    (ht : ReferenceText t c) :
    readValue quote (t ++ s) = (readValue quote s).map fun (v, rest) => (c :: v, rest) := by
  obtain ⟨r, rfl⟩ := ht.exists_eq
  have hread : readReference (r ++ s) = .ok (c, s) := readReference_eq_ok_iff.2 ⟨_, ht, rfl⟩
  rw [List.cons_append, readValue, if_neg hquote.symm, if_neg (by decide), if_pos rfl, hread]
  dsimp only
  rcases readValue quote s with stop | ⟨v, rest⟩ <;> rfl

/-- Reading a value succeeds exactly on a value, its quote and what follows. -/
theorem readValue_eq_ok_iff {quote : Char} {s v rest : List Char} (hquote : quote ≠ '&') :
    readValue quote s = .ok (v, rest) ↔ ∃ t, ValueText quote t v ∧ s = t ++ quote :: rest := by
  constructor
  · intro h
    fun_induction readValue quote s generalizing v with
    | case1 => exact absurd h (by simp)
    | case2 =>
      obtain ⟨rfl, rfl⟩ := Prod.mk.inj (Except.ok.inj h)
      exact ⟨[], .nil, rfl⟩
    | case3 => exact absurd h (by simp)
    | case4 => exact absurd h (by simp)
    | case5 => exact absurd h (by simp)
    | case6 r d after hr v r' hv _ _ ih =>
      obtain ⟨rfl, rfl⟩ := Prod.mk.inj (Except.ok.inj h)
      obtain ⟨t, ht, rfl⟩ := ih hv
      obtain ⟨u, hu, heq⟩ := readReference_eq_ok_iff.1 hr
      exact ⟨u ++ t, .reference hu ht, by rw [heq, List.append_assoc]⟩
    | case7 => exact absurd h (by simp)
    | case8 c r hq hlt hamp v r' hv ih =>
      obtain ⟨rfl, rfl⟩ := Prod.mk.inj (Except.ok.inj h)
      obtain ⟨t, ht, rfl⟩ := ih hv
      exact ⟨c :: t, .char hq hlt hamp ht, rfl⟩
  · rintro ⟨t, ht, rfl⟩
    induction ht with
    | nil => rw [List.nil_append, readValue, if_pos rfl]
    | char hq hlt hamp _ ih =>
      rw [List.cons_append, readValue, if_neg hq, if_neg hlt, if_neg hamp, ih]
    | reference ht _ ih =>
      rw [List.append_assoc, readValue_reference hquote ht, ih]
      rfl

/-- Reading a quoted value succeeds exactly on one and what follows it. -/
theorem readQuoted_eq_ok_iff {s v rest : List Char} :
    readQuoted s = .ok (v, rest) ↔ ∃ t, QuotedText t v ∧ s = t ++ rest := by
  have hne : ∀ {quote : Char}, quote = '"' ∨ quote = '\'' → quote ≠ '&' := by
    rintro quote (rfl | rfl) <;> decide
  constructor
  · intro h
    rcases s with _ | ⟨c, s⟩
    · exact absurd h (by simp [readQuoted])
    · rw [readQuoted] at h
      split_ifs at h with hc
      obtain ⟨t, ht, rfl⟩ := (readValue_eq_ok_iff (hne hc)).1 h
      exact ⟨_, ⟨c, t, hc, ht, rfl⟩, by simp⟩
  · rintro ⟨t, ⟨quote, body, hc, hbody, rfl⟩, rfl⟩
    rw [List.cons_append, List.cons_append, readQuoted, if_pos hc, readValue_eq_ok_iff (hne hc)]
    exact ⟨body, hbody, by simp⟩

/-! ## Attributes -/

/-- An attribute: a name, an equals sign and a quoted value, with spaces around the sign. -/
def AttributeText (t : List Char) (a : RawAttribute) : Prop :=
  ∃ sp sp' quoted, IsName a.name.toList ∧ IsSpaces sp ∧ IsSpaces sp' ∧
    QuotedText quoted a.value.toList ∧ t = a.name.toList ++ sp ++ ['='] ++ sp' ++ quoted

/-- Attributes, each with a space before it. -/
inductive AttributesText : List Char → List RawAttribute → Prop where
  /-- None. -/
  | nil : AttributesText [] []
  /-- One and more. -/
  | cons {sp t a s as} (hsp : IsSpaces sp) (hne : sp ≠ []) (ht : AttributeText t a)
      (hs : AttributesText s as) : AttributesText (sp ++ t ++ s) (a :: as)

/-- A quoted value starts with no space. -/
theorem QuotedText.stops_isSpace {t v : List Char} (h : QuotedText t v) (rest : List Char) :
    Stops isSpace (t ++ rest) := by
  obtain ⟨quote, body, hquote, -, rfl⟩ := h
  rw [List.cons_append, List.cons_append, stops_cons]
  rcases hquote with rfl | rfl <;> decide

/-- Reading an attribute succeeds exactly on one and what follows it. -/
theorem readAttribute_eq_ok_iff {s rest : List Char} {a : RawAttribute} :
    readAttribute s = .ok (a, rest) ↔ ∃ t, AttributeText t a ∧ s = t ++ rest := by
  constructor
  · intro h
    unfold readAttribute at h
    split at h
    · exact absurd h (by simp)
    · next name r hn =>
      obtain ⟨hname, -, rfl⟩ := readName_eq_ok_iff.1 hn
      obtain ⟨sp, hsp, -, hr⟩ := exists_spaces r
      split at h
      · next r' heq =>
        obtain ⟨sp', hsp', -, hr'⟩ := exists_spaces r'
        split at h
        · exact absurd h (by simp)
        · next value r'' hq =>
          obtain ⟨rfl, rfl⟩ := Prod.mk.inj (Except.ok.inj h)
          obtain ⟨t, ht, heq'⟩ := readQuoted_eq_ok_iff.1 hq
          refine ⟨_, ⟨sp, sp', t, hname, hsp, hsp', by rwa [String.toList_ofList], rfl⟩, ?_⟩
          rw [hr, heq, hr', heq']
          simp
      · exact absurd h (by simp)
  · rintro ⟨t, ⟨sp, sp', quoted, hname, hsp, hsp', hq, rfl⟩, rfl⟩
    have heq : Stops isSpace (['='] ++ (sp' ++ (quoted ++ rest))) := stops_cons.2 (by decide)
    have hstop : Stops isNameChar (sp ++ (['='] ++ (sp' ++ (quoted ++ rest)))) :=
      hsp.stops_isNameChar (stops_cons.2 (isNameChar_eq_false (by simp)))
    rw [readAttribute, readName_eq_ok_iff.2 ⟨hname, hstop, by simp⟩]
    dsimp only
    rw [skipSpace_append hsp, skipSpace_of_stops heq]
    -- The equals sign is there, so the other case of the reader is not reached.
    split
    · next r heq' =>
      obtain rfl : sp' ++ (quoted ++ rest) = r := (List.cons.inj heq').2
      rw [skipSpace_append hsp', skipSpace_of_stops (hq.stops_isSpace rest),
        readQuoted_eq_ok_iff.2 ⟨_, hq, rfl⟩]
      dsimp only
      rw [String.ofList_toList]
    · next hne => exact absurd rfl (hne _)

/-! ## Start tags -/

/-- The mark that ends a start tag. -/
def Tag.endMark (tag : Tag) : List Char := if tag.isEmpty then ['/', '>'] else ['>']

/-- A start tag: a name, attributes with names of their own each, and the end mark. -/
def TagText (t : List Char) (tag : Tag) : Prop :=
  ∃ s sp, IsName tag.name.toList ∧ AttributesText s tag.attributes ∧
    (tag.attributes.map (·.name)).Nodup ∧ IsSpaces sp ∧
    t = ['<'] ++ tag.name.toList ++ s ++ sp ++ tag.endMark

/-- A start tag is a `<`, a character that starts a name, and more. -/
theorem TagText.exists_eq {t : List Char} {tag : Tag} (h : TagText t tag) :
    ∃ c r, t = '<' :: c :: r ∧ isNameStart c = true := by
  obtain ⟨_, _, hname, -, -, -, rfl⟩ := h
  obtain ⟨c, r, hr, hc⟩ := hname.exists_cons
  exact ⟨c, _, by rw [hr]; rfl, hc⟩

/-- A value holds no less-than sign. -/
theorem ValueText.not_mem {quote : Char} {s v : List Char} (h : ValueText quote s v) : '<' ∉ s := by
  induction h with
  | nil => exact List.not_mem_nil
  | char _ hlt _ _ ih => exact List.not_mem_cons_of_ne_of_not_mem hlt.symm ih
  | reference ht _ ih => exact List.not_mem_append (ht.not_mem (.inl rfl)) ih

/-- Attributes hold no less-than sign. -/
theorem AttributesText.not_mem {s : List Char} {as : List RawAttribute} (h : AttributesText s as) :
    '<' ∉ s := by
  induction h with
  | nil => exact List.not_mem_nil
  | cons hsp _ ht _ ih =>
    obtain ⟨sp, sp', _, hname, hsp', hsp'', ⟨quote, body, hquote, hbody, rfl⟩, rfl⟩ := ht
    have hne : '<' ≠ quote := by
      rcases hquote with rfl | rfl <;> decide
    have hname' : '<' ∉ _ := hname.not_mem (isNameChar_eq_false (by simp))
    simp [hsp.not_mem, hname', hsp'.not_mem, hsp''.not_mem, hne, hbody.not_mem, ih]

/-- A start tag holds no less-than sign but the first. -/
theorem TagText.exists_not_mem {t : List Char} {tag : Tag} (h : TagText t tag) :
    ∃ r, t = '<' :: r ∧ '<' ∉ r := by
  obtain ⟨s, sp, hname, hs, -, hsp, rfl⟩ := h
  have hend : '<' ∉ tag.endMark := by
    unfold Tag.endMark
    split_ifs <;> decide
  have hname' : '<' ∉ tag.name.toList := hname.not_mem (isNameChar_eq_false (by simp))
  refine ⟨tag.name.toList ++ s ++ sp ++ tag.endMark, by simp, ?_⟩
  simp [hname', hs.not_mem, hsp.not_mem, hend]

/-- The end of a tag is no space and no part of a name. -/
theorem Tag.endMark_stops (tag : Tag) (rest : List Char) :
    Stops isSpace (tag.endMark ++ rest) ∧ Stops isNameChar (tag.endMark ++ rest) := by
  unfold endMark
  split_ifs
  · exact ⟨stops_cons.2 (by decide), stops_cons.2 (isNameChar_eq_false (by simp))⟩
  · exact ⟨stops_cons.2 (by decide), stops_cons.2 (isNameChar_eq_false (by simp))⟩

/-- Reading attributes stops at the end of the tag. -/
theorem readAttributes_endMark {sp : List Char} (hsp : IsSpaces sp) (tag : Tag) (rest : List Char) :
    readAttributes tag.name tag.attributes (sp ++ (tag.endMark ++ rest)) = .ok (tag, rest) := by
  rw [readAttributes, skipSpace_append hsp, skipSpace_of_stops (tag.endMark_stops rest).1]
  obtain ⟨name, as, _ | _⟩ := tag
  · rfl
  · rfl

/-- Reading attributes comes to one that has a space before it, and refuses it if its name is there
already. -/
theorem readAttributes_step {name : String} {before : List RawAttribute} {sp t : List Char}
    {a : RawAttribute} (hsp : IsSpaces sp) (hne : sp ≠ []) (ht : AttributeText t a) (s : List Char) :
    readAttributes name before (sp ++ (t ++ s)) =
      if before.any (·.name == a.name) then .error ⟨.duplicateAttribute a.name, t ++ s⟩
      else readAttributes name (before ++ [a]) s := by
  obtain ⟨c, r, rfl, hc⟩ : ∃ c r, t = c :: r ∧ isNameStart c = true := by
    obtain ⟨_, _, _, hname, -, -, -, rfl⟩ := ht
    obtain ⟨c, r, hr, hc⟩ := hname.exists_cons
    exact ⟨c, _, by rw [hr]; rfl, hc⟩
  have hchar : isNameChar c = true := isNameChar_of_isNameStart hc
  have hskip : skipSpace (sp ++ (c :: r ++ s)) = c :: r ++ s := by
    rw [skipSpace_append hsp]
    apply skipSpace_of_stops
    rw [List.cons_append, stops_cons]
    exact isSpace_of_isNameChar hchar
  have hmark : ∀ m ms, isNameChar m = false → after? (m :: ms) (c :: r ++ s) = none := by
    intro m ms hm
    rw [List.cons_append, after?, if_neg (ne_of_isNameChar hchar hm)]
  have hspace : startsWithSpace (sp ++ (c :: r ++ s)) = true := by
    obtain ⟨d, sp', rfl⟩ := List.exists_cons_of_ne_nil hne
    exact hsp d List.mem_cons_self
  rw [readAttributes, hskip, hmark '/' _ (isNameChar_eq_false (by simp)),
    hmark '>' _ (isNameChar_eq_false (by simp)), hspace]
  dsimp only
  rw [if_neg (by simp), if_neg (by simp), readAttribute_eq_ok_iff.2 ⟨_, ht, rfl⟩]

/-- An attribute is there already exactly when one before it has its name. -/
theorem any_name_eq_iff {before : List RawAttribute} {a : RawAttribute} :
    before.any (·.name == a.name) = true ↔ a.name ∈ before.map (·.name) := by
  rw [List.any_eq_true, List.mem_map]
  exact exists_congr fun b => and_congr_right fun _ => beq_iff_eq

/-- Reading attributes goes past one that has a space before it and a name of its own. -/
theorem readAttributes_cons {name : String} {before : List RawAttribute} {sp t : List Char}
    {a : RawAttribute} (hsp : IsSpaces sp) (hne : sp ≠ []) (ht : AttributeText t a)
    (hnew : a.name ∉ before.map (·.name)) (s : List Char) :
    readAttributes name before (sp ++ (t ++ s)) = readAttributes name (before ++ [a]) s := by
  rw [readAttributes_step hsp hne ht, if_neg (mt any_name_eq_iff.1 hnew)]

/-- One attribute more has a name of its own exactly when none before has it. -/
theorem nodup_names_concat_iff {before : List RawAttribute} {a : RawAttribute} :
    ((before ++ [a]).map (·.name)).Nodup ↔
      a.name ∉ before.map (·.name) ∧ (before.map (·.name)).Nodup := by
  rw [List.map_append, List.map_singleton, ← List.concat_eq_append, List.nodup_concat]

/-- The rest of a start tag that is read is attributes with names of their own among all of the tag,
and the end of the tag. -/
theorem exists_attributesText {name : String} {before : List RawAttribute} {s rest : List Char}
    {tag : Tag} (hbefore : (before.map (·.name)).Nodup)
    (h : readAttributes name before s = .ok (tag, rest)) :
    ∃ as body sp, AttributesText body as ∧ IsSpaces sp ∧ tag.name = name ∧
      tag.attributes = before ++ as ∧ (tag.attributes.map (·.name)).Nodup ∧
      s = body ++ sp ++ tag.endMark ++ rest := by
  -- The two ends of a tag stop the induction; an attribute joins those before it.
  fun_induction readAttributes name before s with
  | case1 before s r hr =>
    obtain ⟨rfl, rfl⟩ := Prod.mk.inj (Except.ok.inj h)
    obtain ⟨sp, hsp, -, hs⟩ := exists_spaces s
    rw [after?_eq_some.1 hr] at hs
    refine ⟨[], [], sp, .nil, hsp, rfl, (List.append_nil _).symm, hbefore, ?_⟩
    rw [hs]
    simp [Tag.endMark]
  | case2 before s _ r hr =>
    obtain ⟨rfl, rfl⟩ := Prod.mk.inj (Except.ok.inj h)
    obtain ⟨sp, hsp, -, hs⟩ := exists_spaces s
    rw [after?_eq_some.1 hr] at hs
    refine ⟨[], [], sp, .nil, hsp, rfl, (List.append_nil _).symm, hbefore, ?_⟩
    rw [hs]
    simp [Tag.endMark]
  | case3 => exact absurd h (by simp)
  | case4 => exact absurd h (by simp)
  | case5 => exact absurd h (by simp)
  | case6 => exact absurd h (by simp)
  | case7 before s _ _ _ hspace a r hr hany ih =>
    have hnew : a.name ∉ before.map (·.name) := by
      intro hmem
      obtain ⟨b, hb, heq⟩ := List.mem_map.1 hmem
      exact hany (List.any_eq_true.2 ⟨b, hb, beq_iff_eq.2 heq⟩)
    obtain ⟨as, body, sp', has, hsp', hname, hattr, hall, rfl⟩ :=
      ih (nodup_names_concat_iff.2 ⟨hnew, hbefore⟩) h
    obtain ⟨t, ht, heq⟩ := readAttribute_eq_ok_iff.1 hr
    obtain ⟨sp, hsp, -, hs⟩ := exists_spaces s
    -- Without a space the attribute would have been refused.
    have hne : sp ≠ [] := by
      rintro rfl
      rw [List.nil_append] at hs
      have hself := skipSpace_eq_self_iff.1 hs.symm
      exact hspace (by simp [hself])
    refine ⟨a :: as, sp ++ t ++ body, sp', .cons hsp hne ht has, hsp', hname, ?_, hall, ?_⟩
    · rw [hattr, List.append_assoc, List.singleton_append]
    · rw [hs, heq]
      simp

/-- Reading goes past attributes with names of their own and the end of their tag. -/
theorem AttributesText.readAttributes_append {before as : List RawAttribute} {body sp : List Char}
    {tag : Tag} (has : AttributesText body as) (hsp : IsSpaces sp)
    (hattr : tag.attributes = before ++ as) (hall : (tag.attributes.map (·.name)).Nodup)
    (rest : List Char) :
    readAttributes tag.name before (body ++ sp ++ tag.endMark ++ rest) = .ok (tag, rest) := by
  -- Each attribute read moves to the end of those before, which keep their names apart.
  induction has generalizing before with
  | nil =>
    rw [List.append_nil] at hattr
    rw [← hattr, List.nil_append, List.append_assoc]
    exact readAttributes_endMark hsp tag rest
  | @cons sp' t a s as hsp' hne ht hs ih =>
    have hsplit : tag.attributes = before ++ [a] ++ as := by
      rw [hattr, List.append_assoc, List.singleton_append]
    have hnodup : ((before ++ [a]).map (·.name)).Nodup := by
      rw [hsplit, List.map_append] at hall
      exact hall.of_append_left
    have hassoc : sp' ++ t ++ s ++ sp ++ tag.endMark ++ rest =
        sp' ++ (t ++ (s ++ sp ++ tag.endMark ++ rest)) := by simp
    rw [hassoc, readAttributes_cons hsp' hne ht (nodup_names_concat_iff.1 hnodup).1]
    exact ih hsplit

/-- Reading fails at the second of two attributes with the same name. -/
theorem AttributesText.exists_readAttributes_eq_error {as : List RawAttribute} {body : List Char}
    (has : AttributesText body as) (name : String) (before : List RawAttribute)
    (hbefore : (before.map (·.name)).Nodup) (hall : ¬ ((before ++ as).map (·.name)).Nodup)
    (rest : List Char) : ∃ stop, readAttributes name before (body ++ rest) = .error stop := by
  induction has generalizing before with
  | nil => exact absurd hbefore (by rwa [List.append_nil] at hall)
  | @cons sp t a s as hsp hne ht _ ih =>
    rw [List.append_assoc, List.append_assoc]
    by_cases hnew : a.name ∈ before.map (·.name)
    · exact ⟨_, by rw [readAttributes_step hsp hne ht, if_pos (any_name_eq_iff.2 hnew)]⟩
    · rw [readAttributes_cons hsp hne ht hnew]
      refine ih (before ++ [a]) (nodup_names_concat_iff.2 ⟨hnew, hbefore⟩) ?_
      rwa [List.append_assoc, List.singleton_append]

/-- Attributes, and after them a text that goes on with no name, go on with no name. -/
theorem AttributesText.stops_isNameChar {s rest : List Char} {as : List RawAttribute}
    (h : AttributesText s as) (hrest : Stops isNameChar rest) : Stops isNameChar (s ++ rest) := by
  rcases h with _ | ⟨hsp, hne, -, -⟩
  · exact hrest
  · obtain ⟨c, sp, rfl⟩ := List.exists_cons_of_ne_nil hne
    exact stops_cons.2 (isNameChar_of_isSpace (hsp c List.mem_cons_self))

/-- Reading a start tag succeeds exactly on one and what follows it. -/
theorem readTag_eq_ok_iff {s rest : List Char} {tag : Tag} :
    readTag s = .ok (tag, rest) ↔ ∃ t, TagText t tag ∧ '<' :: s = t ++ rest := by
  constructor
  · intro h
    unfold readTag at h
    split at h
    · exact absurd h (by simp)
    · next name r hn =>
      obtain ⟨hname, -, rfl⟩ := readName_eq_ok_iff.1 hn
      obtain ⟨as, body, sp, has, hsp, rfl, hattr, hall, rfl⟩ :=
        exists_attributesText (by simp) h
      rw [List.nil_append] at hattr
      exact ⟨_, ⟨body, sp, hname, hattr ▸ has, hall, hsp, rfl⟩, by simp⟩
  · rintro ⟨t, ⟨body, sp, hname, has, hall, hsp, rfl⟩, hs⟩
    have hstop : Stops isNameChar (body ++ (sp ++ (tag.endMark ++ rest))) :=
      has.stops_isNameChar (hsp.stops_isNameChar (tag.endMark_stops rest).2)
    have hs' : s = tag.name.toList ++ (body ++ (sp ++ (tag.endMark ++ rest))) := by
      simpa using hs
    rw [readTag, readName_eq_ok_iff.2 ⟨hname, hstop, hs'⟩]
    dsimp only
    rw [← List.append_assoc, ← List.append_assoc]
    exact has.readAttributes_append hsp (List.nil_append _).symm hall rest

/-! ## End tags -/

/-- The end tag of `name`. -/
def EndTagText (name : String) (t : List Char) : Prop :=
  ∃ sp, IsName name.toList ∧ IsSpaces sp ∧ t = ['<', '/'] ++ name.toList ++ sp ++ ['>']

/-- An end tag is its mark and more. -/
theorem EndTagText.exists_eq {name : String} {t : List Char} (h : EndTagText name t) :
    ∃ r, t = ['<', '/'] ++ r := by
  obtain ⟨sp, -, -, rfl⟩ := h
  exact ⟨name.toList ++ sp ++ ['>'], by simp⟩

/-- Reading the end tag of a name succeeds exactly on one and what follows it. -/
theorem readEndTag_eq_ok_iff {name : String} {start s rest : List Char} :
    readEndTag name start s = .ok rest ↔ ∃ t, EndTagText name t ∧ ['<', '/'] ++ s = t ++ rest := by
  constructor
  · intro h
    unfold readEndTag at h
    split at h
    · exact absurd h (by simp)
    · next found r hn =>
      obtain ⟨hname, -, rfl⟩ := readName_eq_ok_iff.1 hn
      split_ifs at h with hfound
      subst hfound
      obtain ⟨sp, hsp, -, hr⟩ := exists_spaces r
      split at h
      · next r' heq =>
        obtain rfl := Except.ok.inj h
        refine ⟨_, ⟨sp, hname, hsp, rfl⟩, ?_⟩
        rw [hr, heq]
        simp
      · exact absurd h (by simp)
  · rintro ⟨t, ⟨sp, hname, hsp, rfl⟩, hs⟩
    have hgt : Stops isSpace (['>'] ++ rest) := stops_cons.2 (by decide)
    have hstop : Stops isNameChar (sp ++ (['>'] ++ rest)) :=
      hsp.stops_isNameChar (stops_cons.2 (isNameChar_eq_false (by simp)))
    have hs' : s = name.toList ++ (sp ++ (['>'] ++ rest)) := by
      simpa using hs
    rw [readEndTag, readName_eq_ok_iff.2 ⟨hname, hstop, hs'⟩]
    dsimp only
    rw [if_pos rfl, skipSpace_append hsp, skipSpace_of_stops hgt]
    rfl

end ParamClass.Xml
