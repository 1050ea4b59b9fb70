import ParamClass.Proofs.Manifest.Wrapper

/-!
# References by digits and by signed numbers

A reference should name one of five entities, or write a code point in digits: `DigitsName` is the
set of these names. The reader leaves the number to a conversion for general use, which also allows
a sign `+` before the digits: `SignedName` is what that adds. Wherever a reference stands in a
document, the document is parsed exactly when the name of the reference is in one of the two sets, so
nothing but digits is accepted exactly for the names that are not in the second
(`parse_document_reference`).
-/

namespace ParamClass.Xml

open Text

/-! ## Names of references -/

/-- The named entities and their characters. -/
def entities : List (String × Char) :=
  [("lt", '<'), ("gt", '>'), ("amp", '&'), ("quot", '"'), ("apos", '\'')]

/-- The name of a reference with nothing but digits in its number, and the character it stands for. -/
inductive DigitsName : List Char → Char → Prop where
  /-- A named entity. -/
  | entity {name c} (h : (name, c) ∈ entities) : DigitsName name.toList c
  /-- A code point in decimal digits. -/
  | decimal {s n} (hs : IsNumeral 10 s n) (hn : n.isValidChar) : DigitsName ('#' :: s) (.ofNat n)
  /-- A code point in hexadecimal digits. -/
  | hexadecimal {s n} (hs : IsNumeral 16 s n) (hn : n.isValidChar) :
      DigitsName ('#' :: 'x' :: s) (.ofNat n)

/-- The name of a reference with a sign in its number, and the character it stands for. -/
inductive SignedName : List Char → Char → Prop where
  /-- A code point in decimal digits with a sign. -/
  | decimal {s n} (hs : IsNumeral 10 s n) (hn : n.isValidChar) :
      SignedName ('#' :: '+' :: s) (.ofNat n)
  /-- A code point in hexadecimal digits with a sign. -/
  | hexadecimal {s n} (hs : IsNumeral 16 s n) (hn : n.isValidChar) :
      SignedName ('#' :: 'x' :: '+' :: s) (.ofNat n)

/-- The names of references are those with digits and those with a sign. -/
theorem referenceName_iff {name : List Char} {c : Char} :
    ReferenceName name c ↔ DigitsName name c ∨ SignedName name c := by
  constructor
  · intro h
    cases h with
    | lt => exact .inl (.entity (show ("lt", '<') ∈ entities by decide))
    | gt => exact .inl (.entity (show ("gt", '>') ∈ entities by decide))
    | amp => exact .inl (.entity (show ("amp", '&') ∈ entities by decide))
    | quot => exact .inl (.entity (show ("quot", '"') ∈ entities by decide))
    | apos => exact .inl (.entity (show ("apos", '\'') ∈ entities by decide))
    | decimal hs hn =>
      obtain ⟨digits, hdigits, rfl | rfl⟩ := hs
      · exact .inl (.decimal hdigits hn)
      · exact .inr (.decimal hdigits hn)
    | hexadecimal hs hn =>
      obtain ⟨digits, hdigits, rfl | rfl⟩ := hs
      · exact .inl (.hexadecimal hdigits hn)
      · exact .inr (.hexadecimal hdigits hn)
  · rintro (h | h)
    · cases h with
      | @entity name c h =>
        simp only [entities, List.mem_cons, Prod.mk.injEq, List.not_mem_nil, or_false] at h
        rcases h with ⟨rfl, rfl⟩ | ⟨rfl, rfl⟩ | ⟨rfl, rfl⟩ | ⟨rfl, rfl⟩ | ⟨rfl, rfl⟩
        · exact .lt
        · exact .gt
        · exact .amp
        · exact .quot
        · exact .apos
      | decimal hs hn => exact .decimal ⟨_, hs, .inl rfl⟩ hn
      | hexadecimal hs hn => exact .hexadecimal ⟨_, hs, .inl rfl⟩ hn
    · cases h with
      | decimal hs hn => exact .decimal ⟨_, hs, .inr rfl⟩ hn
      | hexadecimal hs hn => exact .hexadecimal ⟨_, hs, .inr rfl⟩ hn

/-- A name with a sign is none with digits alone. -/
theorem SignedName.not_digitsName {name : List Char} {c d : Char} (h : SignedName name c) :
    ¬ DigitsName name d := by
  intro h'
  have hplus : '+' ∈ name := by cases h <;> simp
  have hnone : digitValue? '+' = none := by decide
  cases h' with
  | entity hmem =>
    have hall : ∀ x ∈ entities, '+' ∉ x.1.toList := by decide
    exact hall _ hmem hplus
  | decimal hs => exact hs.not_mem hnone (by simpa using hplus)
  | hexadecimal hs => exact hs.not_mem hnone (by simpa using hplus)

/-- Line ends make no difference to the name of a reference, because it holds none. -/
theorem referenceName_normalizeLines_iff {name : List Char} {c : Char} :
    ReferenceName (normalizeLines name) c ↔ ReferenceName name c := by
  constructor
  · intro h
    have hcr := not_mem_of_normalizeLines (h.not_mem (.inr (.inr rfl)))
    rwa [(Normalizes.of_not_mem hcr).eq] at h
  · intro h
    have hcr := h.not_mem (.inr (.inl rfl))
    rwa [(Normalizes.of_not_mem hcr).eq]

/-- A text without a semicolon has none with its line ends normalized. -/
theorem semicolon_not_mem_normalizeLines {name : List Char} (h : ';' ∉ name) :
    ';' ∉ normalizeLines name := by
  rw [← List.singleton_infix_iff] at h ⊢
  exact fun hinfix => h (infix_of_infix_normalizeLines (by decide) (by decide) hinfix)

/-! ## References in documents -/

/-- Where in a document a reference stands: in the content of its root element, or in the value of an
attribute in quotes of either kind. -/
inductive ReferencePlace where
  /-- In the content. -/
  | content
  /-- In a value between double quotes. -/
  | doubleQuoted
  /-- In a value between single quotes. -/
  | singleQuoted

namespace ReferencePlace

/-- The document in which a reference with this name stands there. -/
def document (name : String) : ReferencePlace → String
  | content => "<r>&" ++ name ++ ";</r>"
  | doubleQuoted => "<r a=\"&" ++ name ++ ";\"/>"
  | singleQuoted => "<r a='&" ++ name ++ ";'/>"

/-- The root element of the document when the reference stands for this character. -/
def root (c : Char) : ReferencePlace → Element
  | content => ⟨⟨"r", none, []⟩, [.text (.singleton c)]⟩
  | doubleQuoted | singleQuoted => ⟨⟨"r", none, [⟨"a", none, .singleton c⟩]⟩, []⟩

end ReferencePlace

/-- Content that is a reference holds the character that it stands for, and no other content starts
like one. -/
theorem ContentText.exists_referenceName {bindings : Bindings} {name : List Char} {nodes : List Node}
    (hname : ';' ∉ name) (h : ContentText bindings ('&' :: (name ++ [';'])) nodes) :
    ∃ c, ReferenceName name c := by
  generalize hs : '&' :: (name ++ [';']) = s at h
  cases h with
  | nil => exact absurd hs (by simp)
  | char _ hamp => exact absurd (List.cons.inj hs).1.symm hamp
  | @reference _ t c s _ ht _ =>
    obtain ⟨r, rfl⟩ := ht.exists_eq
    have hread : readReference (name ++ ';' :: []) = .ok (c, s) :=
      readReference_eq_ok_iff.2 ⟨_, ht, hs⟩
    exact ⟨c, ((readReference_name_eq_ok_iff hname).1 hread).1⟩
  | cdata => exact absurd (List.cons.inj hs).1 (by decide)
  | comment ht =>
    obtain ⟨r, rfl⟩ := ht.exists_eq
    exact absurd (List.cons.inj hs).1 (by decide)
  | instruction ht =>
    obtain ⟨r, rfl⟩ := ht.exists_eq
    exact absurd (List.cons.inj hs).1 (by decide)
  | element ht _ =>
    obtain ⟨c, r, rfl, -⟩ := ht.exists_eq
    exact absurd (List.cons.inj hs).1 (by decide)

/-- Content that is nothing but a reference is parsed exactly when its name stands for a character. -/
theorem parse_content_eq_ok_iff {name : String} (hname : ';' ∉ name.toList) {root : Element} :
    parse (inside "r" ("&" ++ name ++ ";")) = .ok root ↔
      ∃ c, ReferenceName name.toList c ∧ root = ⟨⟨"r", none, []⟩, [.text (.singleton c)]⟩ := by
  have hwrapper : WrapperName "r" := .of_not_suffix (by decide +kernel) (by decide) (by decide)
  have hlines : normalizeLines ("&" ++ name ++ ";").toList =
      '&' :: (normalizeLines name.toList ++ [';']) := by
    have hend : Normalizes (name.toList ++ [';']) (normalizeLines name.toList ++ [';']) :=
      .before _ (by decide) (by decide)
    simpa using ((Normalizes.of_not_mem (s := ['&']) (by decide)).append hend).eq
  have hparse : ∀ c, ReferenceName name.toList c → parse (inside "r" ("&" ++ name ++ ";")) =
      .ok ⟨⟨"r", none, []⟩, [.text (.singleton c)]⟩ := by
    intro c hc
    have htext : ReferenceText ('&' :: (normalizeLines name.toList ++ [';'])) c :=
      ⟨_, semicolon_not_mem_normalizeLines hname, referenceName_normalizeLines_iff.2 hc, rfl⟩
    have hcontent : ContentText noBindings _ (prependText [c] []) := .reference htext .nil
    rw [List.append_nil, ← hlines] at hcontent
    refine (parse_inside_eq_ok_iff hwrapper).2 ⟨rfl, ?_, hcontent⟩
    simp [Element.depth, depthOf, Node.depth, maxDepth]
  constructor
  · intro h
    obtain ⟨-, -, hcontent⟩ := (parse_inside_eq_ok_iff hwrapper).1 h
    rw [hlines] at hcontent
    obtain ⟨c, hc⟩ := hcontent.exists_referenceName (semicolon_not_mem_normalizeLines hname)
    rw [referenceName_normalizeLines_iff] at hc
    exact ⟨c, hc, Except.ok.inj (h.symm.trans (hparse c hc))⟩
  · rintro ⟨c, hc, rfl⟩
    exact hparse c hc

/-- A value that starts with a reference is read only if its name stands for a character. -/
theorem exists_referenceName_of_readValue {quote : Char} (hquote : quote ≠ '&')
    {name s v rest : List Char} (hname : ';' ∉ name)
    (h : readValue quote ('&' :: (name ++ ';' :: s)) = .ok (v, rest)) :
    ∃ c, ReferenceName name c := by
  rw [readValue, if_neg hquote.symm, if_neg (by decide), if_pos rfl] at h
  split at h
  · exact absurd h (by simp)
  · next c after hread => exact ⟨c, ((readReference_name_eq_ok_iff hname).1 hread).1⟩

/-- An attribute whose value starts with a reference is read only if its name stands for a
character. -/
theorem exists_referenceName_of_readAttribute {quote : Char} (hquote : quote = '"' ∨ quote = '\'')
    {name s rest : List Char} {a : RawAttribute} (hname : ';' ∉ name)
    (h : readAttribute ('a' :: '=' :: quote :: '&' :: (name ++ ';' :: s)) = .ok (a, rest)) :
    ∃ c, ReferenceName name c := by
  have hread : ∀ s : List Char, readName ('a' :: '=' :: s) = .ok ("a", '=' :: s) := fun s =>
    readName_eq_ok_iff.2 ⟨by decide +kernel, stops_cons.2 (isNameChar_eq_false (by simp)), rfl⟩
  have hequals : ∀ s : List Char, skipSpace ('=' :: s) = '=' :: s := fun s => rfl
  have hopen : ∀ s : List Char, skipSpace (quote :: s) = quote :: s := fun s =>
    skipSpace_of_stops (stops_cons.2 (by rcases hquote with rfl | rfl <;> decide))
  rw [readAttribute, hread] at h
  simp only [hequals, hopen] at h
  rw [readQuoted, if_pos hquote] at h
  split at h
  · exact absurd h (by simp)
  · next hv =>
    have hamp : quote ≠ '&' := by rcases hquote with rfl | rfl <;> decide
    exact exists_referenceName_of_readValue hamp hname hv

/-- A tag with an attribute whose value is a reference, after its `<`. -/
def valueTag (quote : Char) (name : List Char) : List Char :=
  ['r', ' ', 'a', '=', quote, '&'] ++ (name ++ [';', quote, '/', '>'])

/-- The tag is read only if the name of the reference stands for a character. -/
theorem exists_referenceName_of_readTag {quote : Char} (hquote : quote = '"' ∨ quote = '\'')
    {name rest : List Char} {tag : Tag} (hname : ';' ∉ name)
    (h : readTag (valueTag quote name) = .ok (tag, rest)) : ∃ c, ReferenceName name c := by
  have htag : readName (valueTag quote name) =
      .ok ("r", ' ' :: 'a' :: '=' :: quote :: '&' :: (name ++ [';', quote, '/', '>'])) :=
    readName_eq_ok_iff.2 ⟨by decide +kernel, stops_cons.2 (isNameChar_eq_false (by simp)), rfl⟩
  rw [readTag, htag] at h
  dsimp only at h
  -- The tag does not end before its attribute.
  unfold readAttributes at h
  split at h
  · next hr => exact absurd hr (by simp [skipSpace, isSpace, after?])
  split at h
  · next hr => exact absurd hr (by simp [skipSpace, isSpace, after?])
  split_ifs at h
  split at h
  · exact absurd h (by simp)
  · next hread => exact exists_referenceName_of_readAttribute hquote hname hread

/-- The tag of an element whose attribute has a reference as its value. -/
theorem elementText_valueTag {quote : Char} (hquote : quote = '"' ∨ quote = '\'') {name : List Char}
    {c : Char} (hname : ';' ∉ name) (hc : ReferenceName name c) :
    ElementText noBindings ('<' :: valueTag quote name)
      ⟨⟨"r", none, [⟨"a", none, .singleton c⟩]⟩, []⟩ := by
  have hvalue : ValueText quote ('&' :: name ++ [';'] ++ []) (String.singleton c).toList := by
    rw [String.toList_singleton]
    exact .reference ⟨name, hname, hc, rfl⟩ .nil
  have ha : IsName "a".toList ∧ ':' ∉ "a".toList := by decide +kernel
  have hr : IsName "r".toList ∧ ':' ∉ "r".toList := by decide +kernel
  have hattribute : AttributeText (['a', '=', quote, '&'] ++ (name ++ [';', quote]))
      ⟨"a", .singleton c⟩ :=
    ⟨[], [], _, ha.1, isSpaces_nil, isSpaces_nil, ⟨quote, _, hquote, hvalue, rfl⟩, by simp⟩
  have hattributes := AttributesText.cons isSpaces_space (by simp) hattribute .nil
  have htag : TagText ('<' :: valueTag quote name) ⟨"r", [⟨"a", .singleton c⟩], true⟩ :=
    ⟨_, [], hr.1, hattributes, by simp, isSpaces_nil, by simp [valueTag, Tag.endMark]⟩
  have hplain : ∀ pre, "a" ≠ declarationName pre := bound?_eq_none_iff.1 (by decide +kernel)
  refine .empty htag rfl ⟨?_, ⟨none, .plain hr.2, .unqualified ?_⟩, ?_⟩
  · intro a ha pre hdeclared
    obtain rfl := List.mem_singleton.1 ha
    exact absurd hdeclared (hplain _)
  · simp [bindingsInside, declarationName, noBindings]
  · exact .plain hplain (.plain ha.2) .nil

/-- A document that is a tag with a reference as a value is parsed exactly when the name of the
reference stands for a character. -/
theorem parse_value_eq_ok_iff {quote : Char} (hquote : quote = '"' ∨ quote = '\'')
    {name text : String} (hname : ';' ∉ name.toList)
    (htext : text.toList = '<' :: valueTag quote name.toList) {root : Element} :
    parse text = .ok root ↔ ∃ c, ReferenceName name.toList c ∧
      root = ⟨⟨"r", none, [⟨"a", none, .singleton c⟩]⟩, []⟩ := by
  have hlines : normalizeLines text.toList = '<' :: valueTag quote (normalizeLines name.toList) := by
    have hcr : '\r' ≠ quote := by rcases hquote with rfl | rfl <;> decide
    have hmark : Normalizes ['<', 'r', ' ', 'a', '=', quote, '&'] _ :=
      .of_not_mem (by simp [hcr])
    have hend : Normalizes (name.toList ++ [';', quote, '/', '>']) _ :=
      .before _ (by decide) (by simp [hcr])
    rw [htext]
    exact (hmark.append hend).eq
  have hstart : ∃ c r, normalizeLines text.toList = '<' :: c :: r ∧ isNameStart c = true :=
    ⟨'r', _, hlines, by decide +kernel⟩
  have hparse : ∀ c, ReferenceName name.toList c →
      parse text = .ok ⟨⟨"r", none, [⟨"a", none, .singleton c⟩]⟩, []⟩ := by
    intro c hc
    rw [parse_eq_ok_iff, readDocument_eq_ok_iff_of_start hstart, hlines]
    have helement := elementText_valueTag hquote (semicolon_not_mem_normalizeLines hname)
      (referenceName_normalizeLines_iff.2 hc)
    exact ⟨_, [], helement, .nil, by simp [Element.depth, depthOf, maxDepth], by simp⟩
  constructor
  · intro h
    have hread := h
    rw [parse_eq_ok_iff, readDocument_eq_ok_iff_of_start hstart, hlines] at hread
    obtain ⟨t, m, ht, -, -, heq⟩ := hread
    have htag : ∃ tag rest,
        readTag (valueTag quote (normalizeLines name.toList)) = .ok (tag, rest) := by
      cases ht with
      | empty ht => exact ⟨_, _, readTag_eq_ok_iff.2 ⟨_, ht, heq⟩⟩
      | filled ht =>
        rw [List.append_assoc, List.append_assoc] at heq
        exact ⟨_, _, readTag_eq_ok_iff.2 ⟨_, ht, heq⟩⟩
    obtain ⟨tag, rest, htag⟩ := htag
    obtain ⟨c, hc⟩ :=
      exists_referenceName_of_readTag hquote (semicolon_not_mem_normalizeLines hname) htag
    rw [referenceName_normalizeLines_iff] at hc
    exact ⟨c, hc, Except.ok.inj (h.symm.trans (hparse c hc))⟩
  · rintro ⟨c, hc, rfl⟩
    exact hparse c hc

/-- Wherever a reference stands, a document is parsed exactly when the name of the reference stands for
a character, and holds that character there. -/
theorem ReferencePlace.parse_document_eq_ok_iff {name : String} (hname : ';' ∉ name.toList)
    (place : ReferencePlace) {root : Element} :
    parse (place.document name) = .ok root ↔
      ∃ c, ReferenceName name.toList c ∧ root = place.root c := by
  cases place with
  | content =>
    have htext : document name .content = inside "r" ("&" ++ name ++ ";") := by
      apply String.toList_injective
      simp [document, inside]
    rw [htext, parse_content_eq_ok_iff hname]
    rfl
  | doubleQuoted =>
    have htext : (document name .doubleQuoted).toList = '<' :: valueTag '"' name.toList := by
      simp [document, valueTag]
    rw [parse_value_eq_ok_iff (.inl rfl) hname htext]
    rfl
  | singleQuoted =>
    have htext : (document name .singleQuoted).toList = '<' :: valueTag '\'' name.toList := by
      simp [document, valueTag]
    rw [parse_value_eq_ok_iff (.inr rfl) hname htext]
    rfl

/-- A reference is decoded exactly when it names an entity or writes the code point of a character in
digits, with a sign before them or without one. So nothing but digits is decoded exactly for the
references without a sign. -/
theorem parse_document_reference {name : String} (hname : ';' ∉ name.toList)
    (place : ReferencePlace) :
    (∀ root, parse (place.document name) = .ok root ↔
      ∃ c, (DigitsName name.toList c ∨ SignedName name.toList c) ∧ root = place.root c) ∧
    ((∀ root, parse (place.document name) = .ok root ↔
        ∃ c, DigitsName name.toList c ∧ root = place.root c) ↔
      ∀ c, ¬ SignedName name.toList c) := by
  have hparse : ∀ root, parse (place.document name) = .ok root ↔
      ∃ c, (DigitsName name.toList c ∨ SignedName name.toList c) ∧ root = place.root c := by
    intro root
    simp only [place.parse_document_eq_ok_iff hname, referenceName_iff]
  refine ⟨hparse, ⟨fun h c hc => ?_, fun h root => ?_⟩⟩
  · -- The document with a sign is parsed, but not because of a name with digits alone.
    obtain ⟨d, hd, -⟩ := (h _).1 ((hparse _).2 ⟨c, .inr hc, rfl⟩)
    exact hc.not_digitsName hd
  · rw [hparse]
    exact exists_congr fun c => and_congr_left fun _ => or_iff_left (h c)

/-- A hexadecimal number with leading zeros is decoded between single quotes. -/
theorem parse_document_reference_of_zeros :
    ';' ∉ "#x000041".toList ∧
      parse (ReferencePlace.singleQuoted.document "#x000041") =
        .ok (ReferencePlace.singleQuoted.root 'A') := by
  have hname : ';' ∉ "#x000041".toList := by decide
  have hnumeral : IsNumeral 16 "000041".toList 65 :=
    ⟨[0, 0, 0, 0, 4, 1], by simp, by decide, by simp, by decide⟩
  have hdigits : DigitsName "#x000041".toList 'A' := .hexadecimal hnumeral (by decide)
  exact ⟨hname, ((parse_document_reference hname .singleQuoted).1 _).2 ⟨'A', .inl hdigits, rfl⟩⟩

/-- A decimal number with a sign is decoded in content. -/
theorem not_parse_document_reference_of_sign :
    ¬ ∀ (name : String) (place : ReferencePlace), ';' ∉ name.toList →
      ∀ root, parse (place.document name) = .ok root ↔
        ∃ c, DigitsName name.toList c ∧ root = place.root c := by
  intro h
  have hparse : parse (ReferencePlace.content.document "#+65") =
      .ok (ReferencePlace.content.root 'A') := by decide +kernel
  obtain ⟨c, hc, -⟩ := (h "#+65" .content (by decide) _).1 hparse
  have hnumeral : IsNumeral 10 "65".toList 65 := ⟨[6, 5], by simp, by decide, by simp, by decide⟩
  have hsigned : SignedName "#+65".toList 'A' := .decimal hnumeral (by decide)
  exact hsigned.not_digitsName hc

end ParamClass.Xml
