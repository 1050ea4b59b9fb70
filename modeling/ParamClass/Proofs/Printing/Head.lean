import ParamClass.Proofs.Printing.Escape

/-!
# Printed start tags

A normal head is one that a start tag can say. Its tag declares a prefix for the namespace of the
element, and another one for each qualified attribute, all on the tag itself. So what prefixes stand
for outside does not matter, as long as there is no default namespace (`Head.IsNormal.means_tag`).
-/

namespace ParamClass.Xml

open Text

/-! ## Normal heads -/

/-- A local name: name characters other than the colon, and at least one. -/
structure IsLocalName (name : String) : Prop where
  /-- It is not empty. -/
  nonempty : name ≠ ""
  /-- It has no colon. -/
  plain : ':' ∉ name.toList
  /-- Every character may stand in a name. -/
  chars : ∀ c ∈ name.toList, isNameChar c = true

instance (name : String) : Decidable (IsLocalName name) :=
  decidable_of_iff (name ≠ "" ∧ ':' ∉ name.toList ∧ name.toList.all isNameChar = true) <| by
    rw [List.all_eq_true]
    exact ⟨fun h => ⟨h.1, h.2.1, h.2.2⟩, fun h => ⟨h.nonempty, h.plain, h.chars⟩⟩

/-- The first character starts a name. -/
def StartsName (name : String) : Prop := ∃ c ∈ name.toList.head?, isNameStart c = true

instance (name : String) : Decidable (StartsName name) :=
  decidable_of_iff (name.toList.head?.any isNameStart = true) <| by
    rw [Option.any_eq_true]
    rfl

/-- An attribute that a start tag can have. -/
structure Attribute.IsNormal (a : Attribute) : Prop where
  /-- The name is a local name. -/
  name : IsLocalName a.name
  /-- Without a prefix before it, it starts a name. -/
  start : a.uri = none → StartsName a.name
  /-- An unqualified attribute declares nothing. -/
  xmlns : a.uri = none → a.name ≠ "xmlns"
  /-- The namespace has a URI. -/
  uri : a.uri ≠ some ""

instance (a : Attribute) : Decidable a.IsNormal :=
  decidable_of_iff (IsLocalName a.name ∧ (a.uri = none → StartsName a.name) ∧
      (a.uri = none → a.name ≠ "xmlns") ∧ a.uri ≠ some "")
    ⟨fun h => ⟨h.1, h.2.1, h.2.2.1, h.2.2.2⟩, fun h => ⟨h.name, h.start, h.xmlns, h.uri⟩⟩

/-- The names of the unqualified attributes. -/
def unqualifiedNames (as : List Attribute) : List String :=
  (as.filter (·.uri.isNone)).map (·.name)

/-- A head that a start tag can say. -/
structure Head.IsNormal (head : Head) : Prop where
  /-- The name is a local name. -/
  name : IsLocalName head.name
  /-- Without a prefix before it, it starts a name. -/
  start : head.uri = none → StartsName head.name
  /-- The namespace has a URI. -/
  uri : head.uri ≠ some ""
  /-- Each attribute is one that a tag can have. -/
  attributes : ∀ a ∈ head.attributes, a.IsNormal
  /-- No two unqualified attributes have the same name. -/
  distinct : (unqualifiedNames head.attributes).Nodup

instance (head : Head) : Decidable head.IsNormal :=
  decidable_of_iff (IsLocalName head.name ∧ (head.uri = none → StartsName head.name) ∧
      head.uri ≠ some "" ∧ (∀ a ∈ head.attributes, a.IsNormal) ∧
      (unqualifiedNames head.attributes).Nodup)
    ⟨fun h => ⟨h.1, h.2.1, h.2.2.1, h.2.2.2.1, h.2.2.2.2⟩,
      fun h => ⟨h.name, h.start, h.uri, h.attributes, h.distinct⟩⟩

/-- A local name that starts a name is a name. -/
theorem IsLocalName.isName {name : String} (h : IsLocalName name) (hstart : StartsName name) :
    IsName name.toList :=
  ⟨hstart, h.chars⟩

/-- Behind a prefix that is a name, a local name is a name. -/
theorem IsLocalName.isName_prefixed {pre base : String} (h : IsLocalName base)
    (hpre : IsName pre.toList) : IsName (pre ++ ":" ++ base).toList := by
  obtain ⟨c, r, hr, hc⟩ := hpre.exists_cons
  rw [String.toList_append, String.toList_append]
  constructor
  · rw [hr]
    exact ⟨c, rfl, hc⟩
  · intro d hd
    rw [List.mem_append, List.mem_append] at hd
    rcases hd with (hd | hd) | hd
    · exact hpre.chars d hd
    · rw [List.mem_singleton.1 hd]
      decide
    · exact h.chars d hd

/-! ## Tags -/

/-- The prefix of the qualified attribute with this number. -/
def attributePrefix (i : Nat) : String := "a" ++ toString i

/-- The attributes as they are written, the next qualified one with number `i`: behind a declaration
of its own prefix if it is qualified, and by its name otherwise. -/
def rawAttributes (i : Nat) : List Attribute → List RawAttribute
  | [] => []
  | a :: as =>
    match a.uri with
    | none => ⟨a.name, a.value⟩ :: rawAttributes i as
    | some uri =>
      ⟨declarationName (some (attributePrefix i)), uri⟩ ::
        ⟨attributePrefix i ++ ":" ++ a.name, a.value⟩ :: rawAttributes (i + 1) as

/-- The start tag of a head, with the prefix `e` for the namespace of the element. -/
def Head.tag (head : Head) : Tag where
  name := match head.uri with
    | none => head.name
    | some _ => "e" ++ ":" ++ head.name
  attributes := match head.uri with
    | none => rawAttributes 0 head.attributes
    | some uri => ⟨declarationName (some "e"), uri⟩ :: rawAttributes 0 head.attributes
  isEmpty := false

/-! ## Names of attributes -/

/-- A declaration has a colon. -/
theorem colon_mem_declarationName (pre : String) : ':' ∈ (declarationName (some pre)).toList := by
  rw [declarationName, String.toList_append]
  exact List.mem_append_left _ (by decide)

/-- Different prefixes have different declarations. -/
theorem declarationName_inj {pre pre' : Option String}
    (h : declarationName pre = declarationName pre') : pre = pre' := by
  have hbound : bound? (declarationName pre) = some pre' := bound?_eq_some_iff.2 h
  rw [bound?_eq_some_iff.2 rfl] at hbound
  exact Option.some.inj hbound

/-- A prefix is not declared like the default namespace. -/
theorem declarationName_ne_default (pre : String) :
    declarationName (some pre) ≠ declarationName none :=
  fun heq => absurd (declarationName_inj heq) (by simp)

/-- The characters of a number are digits. -/
theorem isDigit_of_mem_toString {i : Nat} {c : Char} (h : c ∈ (toString i).toList) :
    c.isDigit = true := by
  have hdigits : (toString i).toList = Nat.toDigits 10 i := Nat.toList_repr
  rw [hdigits] at h
  exact Nat.isDigit_of_mem_toDigits (by decide) (by decide) h

/-- A digit may stand in a name, and is no colon. -/
theorem isNameChar_of_isDigit {c : Char} (h : c.isDigit = true) : isNameChar c = true ∧ c ≠ ':' := by
  constructor
  · have hlt : c.toNat < 128 := by
      simp only [Char.isDigit, Bool.and_eq_true, decide_eq_true_eq, ge_iff_le,
        UInt32.le_iff_toNat_le] at h
      exact Nat.lt_of_le_of_lt h.2 (by decide)
    have hnumeric : isNumeric c = true := by rwa [isNumeric, if_pos hlt]
    rw [isNameChar, hnumeric, Bool.or_true, Bool.true_or, Bool.true_or]
  · rintro rfl
    exact absurd h (by decide)

/-- The prefix of an attribute is a letter and a number. -/
theorem toList_attributePrefix (i : Nat) :
    (attributePrefix i).toList = 'a' :: (toString i).toList := by
  rw [attributePrefix, String.toList_append]
  rfl

/-- Different numbers make different prefixes. -/
theorem attributePrefix_injective : Function.Injective attributePrefix := by
  intro i j h
  have hlist := congrArg String.toList h
  rw [toList_attributePrefix, toList_attributePrefix, List.cons.injEq] at hlist
  have hdigits : Nat.toDigits 10 i = Nat.toDigits 10 j := by
    rw [← Nat.toList_repr, ← Nat.toList_repr]
    exact hlist.2
  calc i = Nat.ofDigitChars 10 (Nat.toDigits 10 i) 0 := Nat.ofDigitChars_ten_toDigits.symm
    _ = Nat.ofDigitChars 10 (Nat.toDigits 10 j) 0 := by rw [hdigits]
    _ = j := Nat.ofDigitChars_ten_toDigits

/-- The prefix of an attribute is a name without a colon. -/
theorem isName_attributePrefix (i : Nat) :
    IsName (attributePrefix i).toList ∧ ':' ∉ (attributePrefix i).toList := by
  rw [toList_attributePrefix]
  refine ⟨⟨⟨'a', rfl, by decide⟩, ?_⟩, ?_⟩
  · rw [List.forall_mem_cons]
    exact ⟨by decide, fun c hc => (isNameChar_of_isDigit (isDigit_of_mem_toString hc)).1⟩
  · rw [List.mem_cons, not_or]
    exact ⟨by decide, fun hc => (isNameChar_of_isDigit (isDigit_of_mem_toString hc)).2 rfl⟩

/-- A local name declares no prefix. -/
theorem IsLocalName.ne_declarationName {name : String} (h : IsLocalName name) (pre : String) :
    name ≠ declarationName (some pre) :=
  fun heq => h.plain (heq ▸ colon_mem_declarationName pre)

/-- A qualified name has its prefix before the colon. -/
theorem IsLocalName.nameParts {pre base : String} (h : IsLocalName base) (hpre : IsName pre.toList)
    (hcolon : ':' ∉ pre.toList) : NameParts (pre ++ ":" ++ base) ⟨some pre, base⟩ := by
  obtain ⟨c, r, hr, -⟩ := hpre.exists_cons
  have hne : pre ≠ "" := by
    rintro rfl
    exact absurd hr (by simp)
  exact .prefixed hne h.nonempty hcolon h.plain

/-- A qualified name declares nothing when its prefix starts like that of an attribute. -/
theorem prefixed_ne_declarationName (i : Nat) (base : String) (pre : Option String) :
    attributePrefix i ++ ":" ++ base ≠ declarationName pre := by
  intro h
  have hhead : (declarationName pre).toList.head? = some 'x' := by
    cases pre with
    | none => rfl
    | some pre =>
      rw [declarationName, String.toList_append]
      rfl
  rw [← h, String.toList_append, String.toList_append, toList_attributePrefix] at hhead
  exact absurd hhead (by simp)

/-- What is written for some attributes, the qualified ones with numbers from `i` on. -/
inductive Written (i : Nat) (as : List Attribute) : RawAttribute → Prop where
  /-- An unqualified attribute. -/
  | plain {a} (ha : a ∈ as) (huri : a.uri = none) : Written i as ⟨a.name, a.value⟩
  /-- The declaration of the prefix of a qualified attribute. -/
  | declaration {a j uri} (ha : a ∈ as) (hj : i ≤ j) (huri : a.uri = some uri) :
      Written i as ⟨declarationName (some (attributePrefix j)), uri⟩
  /-- A qualified attribute. -/
  | prefixed {a j uri} (ha : a ∈ as) (hj : i ≤ j) (huri : a.uri = some uri) :
      Written i as ⟨attributePrefix j ++ ":" ++ a.name, a.value⟩

/-- What is written for later attributes is written for all. -/
theorem Written.cons {i k : Nat} {a : Attribute} {as : List Attribute} {r : RawAttribute}
    (h : Written k as r) (hk : i ≤ k) : Written i (a :: as) r := by
  cases h with
  | plain ha huri => exact .plain (List.mem_cons_of_mem a ha) huri
  | declaration ha hj huri => exact .declaration (List.mem_cons_of_mem a ha) (Nat.le_trans hk hj) huri
  | prefixed ha hj huri => exact .prefixed (List.mem_cons_of_mem a ha) (Nat.le_trans hk hj) huri

/-- The attributes of the tag are written for those of the head. -/
theorem written_of_mem {i : Nat} {as : List Attribute} {r : RawAttribute}
    (h : r ∈ rawAttributes i as) : Written i as r := by
  induction as generalizing i with
  | nil => exact absurd h List.not_mem_nil
  | cons a as ih =>
    rw [rawAttributes] at h
    split at h
    · next huri =>
      rcases List.mem_cons.1 h with rfl | h
      · exact .plain List.mem_cons_self huri
      · exact (ih h).cons (Nat.le_refl i)
    · next uri huri =>
      rcases List.mem_cons.1 h with rfl | h
      · exact .declaration List.mem_cons_self (Nat.le_refl i) huri
      · rcases List.mem_cons.1 h with rfl | h
        · exact .prefixed List.mem_cons_self (Nat.le_refl i) huri
        · exact (ih h).cons (Nat.le_succ i)

/-- A declaration of name characters is a name. -/
theorem isName_declarationName {pre : String} (h : ∀ c ∈ pre.toList, isNameChar c = true) :
    IsName (declarationName (some pre)).toList := by
  rw [declarationName, String.toList_append]
  refine ⟨⟨'x', rfl, by decide⟩, ?_⟩
  rw [List.forall_mem_append]
  exact ⟨List.all_eq_true.1 (by decide), h⟩

section

variable {i : Nat} {as : List Attribute} {r : RawAttribute}

/-- A name without a colon is that of an unqualified attribute. -/
theorem Written.mem_unqualifiedNames (h : Written i as r) (hcolon : ':' ∉ r.name.toList) :
    r.name ∈ unqualifiedNames as := by
  cases h with
  | plain ha huri =>
    exact List.mem_map_of_mem (List.mem_filter.2 ⟨ha, by rw [huri]; rfl⟩)
  | declaration => exact absurd (colon_mem_declarationName _) hcolon
  | prefixed ha => exact absurd (by simp) hcolon

variable (hnormal : ∀ a ∈ as, a.IsNormal)
include hnormal

/-- What is written for normal attributes is written with a name. -/
theorem Written.isName (h : Written i as r) : IsName r.name.toList := by
  cases h with
  | plain ha huri => exact (hnormal _ ha).name.isName ((hnormal _ ha).start huri)
  | declaration => exact isName_declarationName (isName_attributePrefix _).1.chars
  | prefixed ha => exact (hnormal _ ha).name.isName_prefixed (isName_attributePrefix _).1

/-- Nothing declares a default namespace. -/
theorem Written.ne_xmlns (h : Written i as r) : r.name ≠ declarationName none := by
  cases h with
  | plain ha huri => exact (hnormal _ ha).xmlns huri
  | declaration => exact declarationName_ne_default _
  | prefixed => exact prefixed_ne_declarationName _ _ none

/-- No prefix is declared to stand for nothing. -/
theorem Written.value_ne_empty (h : Written i as r) {pre : String}
    (hr : r.name = declarationName (some pre)) : r.value ≠ "" := by
  cases h with
  | plain ha => exact absurd hr ((hnormal _ ha).name.ne_declarationName pre)
  | declaration ha hj huri =>
    intro hempty
    exact (hnormal _ ha).uri (huri.trans (congrArg some hempty))
  | prefixed => exact absurd hr (prefixed_ne_declarationName _ _ _)

/-- Only prefixes with numbers from the first one on are declared. -/
theorem Written.le_of_declaration (h : Written i as r) {j : Nat}
    (hr : r.name = declarationName (some (attributePrefix j))) : i ≤ j := by
  cases h with
  | plain ha => exact absurd hr ((hnormal _ ha).name.ne_declarationName _)
  | @declaration a k uri ha hk =>
    have heq : attributePrefix k = attributePrefix j := Option.some.inj (declarationName_inj hr)
    rwa [attributePrefix_injective heq] at hk
  | prefixed => exact absurd hr (prefixed_ne_declarationName _ _ _)

/-- Only prefixes with numbers from the first one on are used. -/
theorem Written.le_of_prefixed (h : Written i as r) {j : Nat} {base : String}
    (hbase : IsLocalName base) (hr : r.name = attributePrefix j ++ ":" ++ base) : i ≤ j := by
  have hparts : ∀ k base, IsLocalName base →
      QName.ofName? (attributePrefix k ++ ":" ++ base) = some ⟨some (attributePrefix k), base⟩ :=
    fun k base hbase =>
      (hbase.nameParts (isName_attributePrefix k).1 (isName_attributePrefix k).2).ofName?_eq
  cases h with
  | @plain a ha =>
    have hname : a.name = attributePrefix j ++ ":" ++ base := hr
    have hcolon : ':' ∈ a.name.toList := by simp [hname]
    exact absurd hcolon (hnormal _ ha).name.plain
  | @declaration a k =>
    have heq : declarationName (some (attributePrefix k)) = attributePrefix j ++ ":" ++ base := hr
    exact absurd heq.symm (prefixed_ne_declarationName j base _)
  | @prefixed a k uri ha hk =>
    -- The two names are one, so their parts are the same.
    have heq : attributePrefix k ++ ":" ++ a.name = attributePrefix j ++ ":" ++ base := hr
    have hsplit := hparts k a.name (hnormal _ ha).name
    rw [heq, hparts j base hbase, Option.some.injEq, QName.mk.injEq, Option.some.injEq] at hsplit
    rwa [← attributePrefix_injective hsplit.1] at hk

end

/-- The attributes of the tag have a name of their own each. -/
theorem nodup_rawAttributes {i : Nat} {as : List Attribute} (hnormal : ∀ a ∈ as, a.IsNormal)
    (hdistinct : (unqualifiedNames as).Nodup) : ((rawAttributes i as).map (·.name)).Nodup := by
  induction as generalizing i with
  | nil => exact List.nodup_nil
  | cons a as ih =>
    rw [List.forall_mem_cons] at hnormal
    rw [rawAttributes]
    split
    · next huri =>
      rw [unqualifiedNames, List.filter_cons_of_pos (by rw [huri]; rfl), List.map_cons,
        List.nodup_cons] at hdistinct
      rw [List.map_cons, List.nodup_cons]
      refine ⟨?_, ih hnormal.2 hdistinct.2⟩
      intro hmem
      obtain ⟨r, hr, heq⟩ := List.mem_map.1 hmem
      -- The name has no colon, so it could only be that of a later unqualified attribute.
      have hcolon : ':' ∉ r.name.toList := heq ▸ hnormal.1.name.plain
      have hname := (written_of_mem hr).mem_unqualifiedNames hcolon
      rw [heq] at hname
      exact hdistinct.1 hname
    · next uri huri =>
      rw [unqualifiedNames, List.filter_cons_of_neg (by simp [huri])] at hdistinct
      rw [List.map_cons, List.map_cons, List.nodup_cons, List.nodup_cons, List.mem_cons, not_or]
      -- The later names have larger numbers in their prefixes.
      refine ⟨⟨?_, ?_⟩, ?_, ih hnormal.2 hdistinct⟩
      · exact (prefixed_ne_declarationName i a.name (some (attributePrefix i))).symm
      · intro hmem
        obtain ⟨r, hr, heq⟩ := List.mem_map.1 hmem
        have hle := (written_of_mem hr).le_of_declaration hnormal.2 heq
        omega
      · intro hmem
        obtain ⟨r, hr, heq⟩ := List.mem_map.1 hmem
        have hle := (written_of_mem hr).le_of_prefixed hnormal.2 hnormal.1.name heq
        omega

/-! ## The text of a tag -/

/-- An attribute with its value between double quotes. -/
def RawAttribute.print (spelling : Spelling) (a : RawAttribute) : List Char :=
  a.name.toList ++ ['='] ++ ('"' :: escape spelling valueSpecials a.value.toList ++ ['"'])

/-- A start tag, with a space before each attribute. -/
def Tag.print (spelling : Spelling) (tag : Tag) : List Char :=
  ['<'] ++ tag.name.toList ++ tag.attributes.flatMap (fun a => ' ' :: a.print spelling) ++ tag.endMark

/-- A printed attribute is one. -/
theorem attributeText_print (spelling : Spelling) {a : RawAttribute} (h : IsName a.name.toList) :
    AttributeText (a.print spelling) a := by
  have hquoted : QuotedText ('"' :: escape spelling valueSpecials a.value.toList ++ ['"'])
      a.value.toList := ⟨'"', _, .inl rfl, valueText_escape spelling _, rfl⟩
  refine ⟨[], [], _, h, List.forall_mem_nil _, List.forall_mem_nil _, hquoted, ?_⟩
  rw [RawAttribute.print, List.append_nil, List.append_nil]

/-- Printed attributes with names that are names are attributes. -/
theorem attributesText_print (spelling : Spelling) {as : List RawAttribute}
    (h : ∀ a ∈ as, IsName a.name.toList) :
    AttributesText (as.flatMap fun a => ' ' :: a.print spelling) as := by
  have hspace : IsSpaces [' '] := by simp [IsSpaces, isSpace]
  induction as with
  | nil => exact .nil
  | cons a as ih =>
    rw [List.forall_mem_cons] at h
    have hall := AttributesText.cons hspace (by simp) (attributeText_print spelling h.1) (ih h.2)
    rwa [List.singleton_append] at hall

/-- A printed tag with names that are names, those of the attributes all different, is the tag. -/
theorem tagText_print (spelling : Spelling) {tag : Tag} (hname : IsName tag.name.toList)
    (hnames : ∀ a ∈ tag.attributes, IsName a.name.toList)
    (hnodup : (tag.attributes.map (·.name)).Nodup) : TagText (tag.print spelling) tag := by
  refine ⟨_, [], hname, attributesText_print spelling hnames, hnodup, List.forall_mem_nil _, ?_⟩
  rw [Tag.print, List.append_nil]

/-! ## The meaning of a tag -/

/-- An attribute that declares a prefix gives it its value, when no other one has its name. -/
theorem bindingsInside_of_mem {outer : Bindings} {as : List RawAttribute} {a : RawAttribute}
    {pre : Option String} (hnodup : (as.map (·.name)).Nodup) (ha : a ∈ as)
    (hname : a.name = declarationName pre) : bindingsInside outer as pre = some a.value := by
  obtain ⟨b, hb⟩ : ∃ b, (as.find? fun a => a.name = declarationName pre) = some b := by
    rw [← Option.isSome_iff_exists, List.find?_isSome]
    exact ⟨a, ha, by simpa using hname⟩
  have hbname : b.name = declarationName pre := by simpa using List.find?_some hb
  have hba : b = a := List.inj_on_of_nodup_map hnodup (List.mem_of_find?_eq_some hb) ha
    (hbname.trans hname.symm)
  rw [bindingsInside, hb, hba]
  rfl

/-- Without a declaration of it, a prefix stands for what it stands for outside. -/
theorem bindingsInside_of_forall_ne {outer : Bindings} {as : List RawAttribute} {pre : Option String}
    (h : ∀ a ∈ as, a.name ≠ declarationName pre) : bindingsInside outer as pre = outer pre := by
  have hnone : (as.find? fun a => a.name = declarationName pre) = none := by
    rw [List.find?_eq_none]
    exact fun a ha => by simpa using h a ha
  rw [bindingsInside, hnone]
  rfl

/-- What a prefix selects depends on what it stands for only. -/
theorem Selects.congr {b b' : Bindings} {pre uri : Option String} (h : Selects b pre uri)
    (heq : b pre = b' pre) : Selects b' pre uri := by
  cases h with
  | xml => exact .xml
  | bound hxml h hne => exact .bound hxml (heq ▸ h) hne
  | emptied hxml h => exact .emptied hxml (heq ▸ h)
  | unqualified h => exact .unqualified (heq ▸ h)

/-- The attributes of the tag stand for those of the head, wherever the prefixes that they declare
stand for the URIs. -/
theorem attributesMean_rawAttributes {bindings : Bindings} {i : Nat} {as : List Attribute}
    (hnormal : ∀ a ∈ as, a.IsNormal)
    (hbound : ∀ r ∈ rawAttributes i as, ∀ pre, r.name = declarationName (some pre) →
      bindings (some pre) = some r.value) : AttributesMean bindings (rawAttributes i as) as := by
  induction as generalizing i with
  | nil => exact .nil
  | cons a as ih =>
    rw [List.forall_mem_cons] at hnormal
    obtain ⟨name, auri, value⟩ := a
    rw [rawAttributes] at hbound ⊢
    split
    · next huri =>
      obtain rfl : auri = none := huri
      rw [List.forall_mem_cons] at hbound
      refine .plain ?_ (.plain hnormal.1.name.plain) (ih hnormal.2 hbound.2)
      intro pre heq
      cases pre with
      | none => exact hnormal.1.xmlns rfl heq
      | some pre => exact hnormal.1.name.ne_declarationName pre heq
    · next uri huri =>
      obtain rfl : auri = some uri := huri
      rw [List.forall_mem_cons, List.forall_mem_cons] at hbound
      have hpre := isName_attributePrefix i
      -- The one prefix that selects its URI without being declared is another one.
      have hxml : some (attributePrefix i) ≠ some "xml" := by
        intro heq
        have hhead := toList_attributePrefix i
        rw [Option.some.inj heq] at hhead
        exact absurd (List.cons.inj hhead).1 (by decide)
      have hselects : Selects bindings (some (attributePrefix i)) (some uri) :=
        .bound hxml (hbound.1 _ rfl) fun heq => hnormal.1.uri (by rw [heq])
      refine .declaration (some (attributePrefix i)) rfl ?_
      exact .prefixed (fun pre => prefixed_ne_declarationName i name pre)
        (hnormal.1.name.nameParts hpre.1 hpre.2) hselects (ih hnormal.2 hbound.2.2)

/-- A tag without a prefix says a head with its name, in the namespace that no prefix selects. -/
theorem means_of_selects {outer : Bindings} {name : String} {uri : Option String}
    {as : List Attribute} (hname : ':' ∉ name.toList) (hnormal : ∀ a ∈ as, a.IsNormal)
    (hdistinct : (unqualifiedNames as).Nodup) (hselects : Selects outer none uri) :
    (⟨name, rawAttributes 0 as, false⟩ : Tag).Means outer ⟨name, uri, as⟩ where
  declared r hr pre := (written_of_mem hr).value_ne_empty hnormal
  name := by
    have hdefault : bindingsInside outer (rawAttributes 0 as) none = outer none :=
      bindingsInside_of_forall_ne fun r hr => (written_of_mem hr).ne_xmlns hnormal
    exact ⟨none, .plain hname, hselects.congr hdefault.symm⟩
  attributes := attributesMean_rawAttributes hnormal fun r hr pre hpre =>
    bindingsInside_of_mem (nodup_rawAttributes hnormal hdistinct) hr hpre

/-- A tag that declares the prefix of its name says a head in the namespace of the prefix. -/
theorem means_of_declaration {outer : Bindings} {name uri : String} {as : List Attribute}
    (hname : IsLocalName name) (huri : uri ≠ "") (hnormal : ∀ a ∈ as, a.IsNormal)
    (hnodup : ((⟨declarationName (some "e"), uri⟩ :: rawAttributes 0 as).map (·.name)).Nodup) :
    (⟨"e" ++ ":" ++ name, ⟨declarationName (some "e"), uri⟩ :: rawAttributes 0 as, false⟩ : Tag).Means
      outer ⟨name, some uri, as⟩ where
  declared := by
    rw [List.forall_mem_cons]
    exact ⟨fun _ _ => huri, fun r hr pre => (written_of_mem hr).value_ne_empty hnormal⟩
  name := by
    have hbound : bindingsInside outer (⟨declarationName (some "e"), uri⟩ :: rawAttributes 0 as)
        (some "e") = some uri := bindingsInside_of_mem hnodup List.mem_cons_self rfl
    exact ⟨some "e", hname.nameParts (by decide) (by decide), .bound (by decide) hbound huri⟩
  attributes := .declaration (some "e") rfl <| attributesMean_rawAttributes hnormal fun r hr pre hpre =>
    bindingsInside_of_mem hnodup (List.mem_cons_of_mem _ hr) hpre

/-- The prefix of the element is not declared by an attribute. -/
theorem nodup_declaration {as : List Attribute} {uri : String} (hnormal : ∀ a ∈ as, a.IsNormal)
    (hdistinct : (unqualifiedNames as).Nodup) :
    ((⟨declarationName (some "e"), uri⟩ :: rawAttributes 0 as).map (·.name)).Nodup := by
  rw [List.map_cons, List.nodup_cons]
  refine ⟨?_, nodup_rawAttributes hnormal hdistinct⟩
  intro hmem
  obtain ⟨r, hr, heq⟩ := List.mem_map.1 hmem
  have hname : r.name = declarationName (some "e") := heq
  cases written_of_mem hr with
  | plain ha => exact absurd hname ((hnormal _ ha).name.ne_declarationName "e")
  | @declaration a j uri' =>
    have heq : attributePrefix j = "e" := Option.some.inj (declarationName_inj hname)
    have hlist := toList_attributePrefix j
    rw [heq] at hlist
    exact absurd (List.cons.inj hlist).1 (by decide)
  | prefixed => exact absurd hname (prefixed_ne_declarationName _ _ _)

/-- The tag of a normal head says it, where there is no default namespace. -/
theorem Head.IsNormal.means_tag {head : Head} (h : head.IsNormal) {outer : Bindings}
    (houter : outer none = none) : head.tag.Means outer head := by
  obtain ⟨name, uri, as⟩ := head
  cases uri with
  | none => exact means_of_selects h.name.plain h.attributes h.distinct (.unqualified houter)
  | some uri =>
    have huri : uri ≠ "" := fun heq => h.uri (congrArg some heq)
    exact means_of_declaration h.name huri h.attributes (nodup_declaration h.attributes h.distinct)

/-- Inside an element with this tag the default namespace is that outside. -/
theorem Head.IsNormal.bindingsInside_tag {head : Head} (h : head.IsNormal) (outer : Bindings) :
    bindingsInside outer head.tag.attributes none = outer none := by
  have hattributes : ∀ r ∈ rawAttributes 0 head.attributes, r.name ≠ declarationName none :=
    fun r hr => (written_of_mem hr).ne_xmlns h.attributes
  apply bindingsInside_of_forall_ne
  obtain ⟨name, uri, as⟩ := head
  cases uri with
  | none => exact hattributes
  | some uri =>
    rw [Head.tag, List.forall_mem_cons]
    exact ⟨declarationName_ne_default "e", hattributes⟩

/-- The tag of a normal head has a name. -/
theorem Head.IsNormal.isName_tag {head : Head} (h : head.IsNormal) : IsName head.tag.name.toList := by
  obtain ⟨name, uri, as⟩ := head
  cases uri with
  | none => exact h.name.isName (h.start rfl)
  | some uri => exact h.name.isName_prefixed (by decide)

/-- The attributes of its tag have names. -/
theorem Head.IsNormal.isName_attributes {head : Head} (h : head.IsNormal) :
    ∀ a ∈ head.tag.attributes, IsName a.name.toList := by
  have hnames : ∀ r ∈ rawAttributes 0 head.attributes, IsName r.name.toList :=
    fun r hr => (written_of_mem hr).isName h.attributes
  obtain ⟨name, uri, as⟩ := head
  cases uri with
  | none => exact hnames
  | some uri =>
    rw [Head.tag, List.forall_mem_cons]
    have hname : IsName "e".toList := by decide
    exact ⟨isName_declarationName hname.chars, hnames⟩

/-- The attributes of its tag have a name of their own each. -/
theorem Head.IsNormal.nodup_attributes {head : Head} (h : head.IsNormal) :
    (head.tag.attributes.map (·.name)).Nodup := by
  obtain ⟨name, uri, as⟩ := head
  cases uri with
  | none => exact nodup_rawAttributes h.attributes h.distinct
  | some uri => exact nodup_declaration h.attributes h.distinct

/-- The printed tag of a normal head is its tag. -/
theorem Head.IsNormal.tagText_tag (spelling : Spelling) {head : Head} (h : head.IsNormal) :
    TagText (head.tag.print spelling) head.tag :=
  tagText_print spelling h.isName_tag h.isName_attributes h.nodup_attributes

/-! ## Line ends -/

/-- There is no CR in a name. -/
theorem IsName.cr_not_mem {s : List Char} (h : IsName s) : '\r' ∉ s :=
  h.not_mem (isNameChar_eq_false (by simp))

/-- There is no CR in a printed tag with names that are names. -/
theorem Tag.cr_not_mem_print (spelling : Spelling) {tag : Tag} (hname : IsName tag.name.toList)
    (hnames : ∀ a ∈ tag.attributes, IsName a.name.toList) : '\r' ∉ tag.print spelling := by
  have hattribute : ∀ a ∈ tag.attributes, '\r' ∉ ' ' :: a.print spelling := by
    intro a ha
    have hvalue := cr_not_mem_escape spelling (by decide) valueSpecials_subset a.value.toList
    simp [RawAttribute.print, hvalue, (hnames a ha).cr_not_mem]
  have hend : '\r' ∉ tag.endMark := by
    rw [Tag.endMark]
    split <;> decide
  rw [Tag.print]
  simp only [List.mem_append, List.mem_flatMap, not_or, not_exists, not_and]
  exact ⟨⟨⟨by decide, hname.cr_not_mem⟩, hattribute⟩, hend⟩

end ParamClass.Xml
