import Mathlib.Data.List.Infix
import ParamClass.Proofs.Marks
import ParamClass.Xml.Tag

/-!
# What the names in a tag stand for

A name has at most one colon, inside it. The prefix before the colon stands for the URI that the
innermost declaration gives it; the declarations of a tag hold for the tag itself. What a prefix
stands for is written down here as a function of the prefix, `Bindings`, with no list to search, and
`Tag.resolve` is shown to find exactly the names of this meaning.
-/

namespace ParamClass.Xml

open Text

/-- The URI that each prefix stands for, and at `none` the URI of the default namespace. -/
abbrev Bindings := Option String → Option String

/-- No prefix stands for anything. -/
def noBindings : Bindings := fun _ => none

/-- The name of the attribute that declares a prefix, or the default namespace. -/
def declarationName : Option String → String
  | none => "xmlns"
  | some pre => "xmlns:" ++ pre

/-- What prefixes stand for in a tag and inside its element: what its attributes declare, and for a
prefix that they do not declare what it stands for outside. -/
def bindingsInside (outer : Bindings) (attributes : List RawAttribute) : Bindings := fun pre =>
  ((attributes.find? fun a => a.name = declarationName pre).map (·.value)).or (outer pre)

/-- The two parts of a name: it has no colon, or one with something on both sides. -/
inductive NameParts : String → QName → Prop where
  /-- A name without a prefix. -/
  | plain {name : String} (h : ':' ∉ name.toList) : NameParts name ⟨none, name⟩
  /-- A name with a prefix. -/
  | prefixed {pre base : String} (hpre : pre ≠ "") (hbase : base ≠ "") (h : ':' ∉ pre.toList)
      (h' : ':' ∉ base.toList) : NameParts (pre ++ ":" ++ base) ⟨some pre, base⟩

/-- The namespace that a prefix selects, or no prefix on the name of an element. -/
inductive Selects (bindings : Bindings) : Option String → Option String → Prop where
  /-- The prefix `xml` stands for the same URI everywhere. -/
  | xml : Selects bindings (some "xml") (some xmlUri)
  /-- A bound prefix stands for its URI. -/
  | bound {pre uri} (hxml : pre ≠ some "xml") (h : bindings pre = some uri) (hne : uri ≠ "") :
      Selects bindings pre (some uri)
  /-- What is bound to nothing selects no namespace. -/
  | emptied {pre} (hxml : pre ≠ some "xml") (h : bindings pre = some "") : Selects bindings pre none
  /-- Without a default namespace a plain name is unqualified. -/
  | unqualified (h : bindings none = none) : Selects bindings none none

/-- The attributes that the raw attributes of a tag stand for. -/
inductive AttributesMean (bindings : Bindings) : List RawAttribute → List Attribute → Prop where
  /-- None. -/
  | nil : AttributesMean bindings [] []
  /-- A declaration leaves no attribute. -/
  | declaration {a as bs} (pre : Option String) (h : a.name = declarationName pre)
      (hs : AttributesMean bindings as bs) : AttributesMean bindings (a :: as) bs
  /-- An attribute without a prefix is unqualified. -/
  | plain {a as bs base} (h : ∀ pre, a.name ≠ declarationName pre)
      (hname : NameParts a.name ⟨none, base⟩) (hs : AttributesMean bindings as bs) :
      AttributesMean bindings (a :: as) (⟨base, none, a.value⟩ :: bs)
  /-- A prefix selects the namespace of an attribute. -/
  | prefixed {a as bs pre base uri} (h : ∀ pre, a.name ≠ declarationName pre)
      (hname : NameParts a.name ⟨some pre, base⟩) (huri : Selects bindings (some pre) uri)
      (hs : AttributesMean bindings as bs) :
      AttributesMean bindings (a :: as) (⟨base, uri, a.value⟩ :: bs)

/-- What a tag says inside given bindings. -/
structure Tag.Means (tag : Tag) (outer : Bindings) (head : Head) : Prop where
  /-- No prefix is declared to stand for nothing. -/
  declared : ∀ a ∈ tag.attributes, ∀ pre, a.name = declarationName (some pre) → a.value ≠ ""
  /-- The name of the element and its namespace. -/
  name : ∃ pre, NameParts tag.name ⟨pre, head.name⟩ ∧
    Selects (bindingsInside outer tag.attributes) pre head.uri
  /-- The attributes. -/
  attributes : AttributesMean (bindingsInside outer tag.attributes) tag.attributes head.attributes

/-! ## Parts of a name -/

/-- A run of characters other than the colon is a text without it. -/
theorem forall_bne_colon_iff {t : List Char} : (∀ c ∈ t, (c != ':') = true) ↔ ':' ∉ t := by
  constructor
  · intro h hmem
    exact absurd (h _ hmem) (by simp)
  · intro h c hc
    rw [bne_iff_ne]
    rintro rfl
    exact h hc

/-- The split of a name has its parts. -/
theorem nameParts_of_ofName? {name : String} {q : QName} (h : QName.ofName? name = some q) :
    NameParts name q := by
  -- The longest run without a colon ends at the first colon, or is the whole name.
  obtain ⟨hs, hall, hstop⟩ :=
    takeWhile_dropWhile_eq_iff.1 ⟨rfl, (rfl : name.toList.dropWhile (· != ':') = _)⟩
  rw [forall_bne_colon_iff] at hall
  unfold QName.ofName? at h
  split at h
  · next hdrop =>
    obtain rfl := Option.some.inj h
    rw [hdrop, List.append_nil] at hs
    exact .plain (hs ▸ hall)
  · next c base hdrop =>
    rw [hdrop, stops_cons] at hstop
    obtain rfl : c = ':' := by simpa using hstop
    rw [hdrop] at hs
    generalize name.toList.takeWhile (· != ':') = pre at *
    dsimp only at h
    split_ifs at h with hbad
    obtain rfl := Option.some.inj h
    rw [Bool.or_eq_true, Bool.or_eq_true, not_or, not_or, List.isEmpty_iff, List.isEmpty_iff,
      List.contains_iff_mem] at hbad
    have hname : name = String.ofList pre ++ ":" ++ String.ofList base := by
      apply String.toList_injective
      rw [hs]
      simp
    rw [hname]
    refine .prefixed ?_ ?_ ?_ ?_
    · exact fun he => hbad.1.1 (by simpa using congrArg String.toList he)
    · exact fun he => hbad.1.2 (by simpa using congrArg String.toList he)
    · rwa [String.toList_ofList]
    · rw [String.toList_ofList]
      exact hbad.2

/-- A name is split into its parts. -/
theorem NameParts.ofName?_eq {name : String} {q : QName} (h : NameParts name q) :
    QName.ofName? name = some q := by
  rcases h with h | ⟨hpre, hbase, h, h'⟩
  · obtain ⟨-, hdrop⟩ := takeWhile_dropWhile_eq_iff.2
      ⟨(List.append_nil name.toList).symm, forall_bne_colon_iff.2 h, stops_nil⟩
    rw [QName.ofName?, hdrop]
  · next pre base =>
    have hs : (pre ++ ":" ++ base).toList = pre.toList ++ ':' :: base.toList := by simp
    have hstop : Stops (· != ':') (':' :: base.toList) := stops_cons.2 (by simp)
    obtain ⟨htake, hdrop⟩ := takeWhile_dropWhile_eq_iff.2 ⟨hs, forall_bne_colon_iff.2 h, hstop⟩
    have hpre' : pre.toList ≠ [] := by simpa using hpre
    have hbase' : base.toList ≠ [] := by simpa using hbase
    rw [QName.ofName?, hdrop]
    dsimp only
    rw [htake, if_neg, String.ofList_toList, String.ofList_toList]
    simp [hpre', hbase', h']

/-- The parts of a name are the ones at its colon. -/
theorem QName.ofName?_eq_some_iff {name : String} {q : QName} :
    QName.ofName? name = some q ↔ NameParts name q :=
  ⟨nameParts_of_ofName?, NameParts.ofName?_eq⟩

/-! ## Declarations -/

/-- An attribute binds what its name declares. -/
theorem bound?_eq_some_iff {name : String} {pre : Option String} :
    bound? name = some pre ↔ name = declarationName pre := by
  have hafter : ∀ p : String, after? ['x', 'm', 'l', 'n', 's', ':'] name.toList = some p.toList ↔
      name = "xmlns:" ++ p := by
    intro p
    rw [after?_eq_some, ← String.toList_inj, String.toList_append]
    rfl
  rw [bound?]
  constructor
  · intro h
    split_ifs at h with hname
    · obtain rfl := Option.some.inj h
      exact hname
    · obtain ⟨s, hs, rfl⟩ := Option.map_eq_some_iff.1 h
      rw [← String.toList_ofList (l := s)] at hs
      exact (hafter _).1 hs
  · rintro rfl
    rcases pre with _ | pre
    · rfl
    · -- The name that declares a prefix is longer than the one that declares none.
      have hne : declarationName (some pre) ≠ "xmlns" := by
        intro heq
        have hlen := congrArg String.length heq
        rw [declarationName, String.length_append] at hlen
        have : "xmlns:".length = 6 := rfl
        have : "xmlns".length = 5 := rfl
        omega
      rw [if_neg hne, (hafter pre).2 rfl, Option.map_some, String.ofList_toList]

/-- No attribute declares a prefix exactly when its name binds nothing. -/
theorem bound?_eq_none_iff {name : String} :
    bound? name = none ↔ ∀ pre, name ≠ declarationName pre := by
  rw [Option.eq_none_iff_forall_ne_some]
  exact forall_congr' fun pre => not_congr bound?_eq_some_iff

/-- The declarations of a tag succeed exactly when none of them binds a prefix to nothing, and then
each prefix stands for what the first attribute with its name says. -/
theorem exists_declarations {as : List RawAttribute}
    (h : ∀ a ∈ as, ∀ pre, a.name = declarationName (some pre) → a.value ≠ "") :
    ∃ scope : Scope, declarations as = .ok scope ∧ ∀ pre,
      scope.uri? pre = (as.find? fun a => a.name = declarationName pre).map (·.value) := by
  induction as with
  | nil => exact ⟨[], rfl, fun _ => rfl⟩
  | cons a as ih =>
    rw [List.forall_mem_cons] at h
    obtain ⟨scope, hscope, huri⟩ := ih h.2
    rcases hb : bound? a.name with _ | pre
    · refine ⟨scope, by rw [declarations, hb]; exact hscope, fun pre => ?_⟩
      have hne := bound?_eq_none_iff.1 hb pre
      rw [huri, List.find?_cons_of_neg (by simpa using hne)]
    · -- The attribute binds `pre` and hides what the attributes after it say about it.
      have hname := bound?_eq_some_iff.1 hb
      refine ⟨⟨pre, a.value⟩ :: scope, ?_, fun p => ?_⟩
      · rw [declarations, hb]
        dsimp only
        split
        · next p hval => exact absurd hval (h.1 p hname)
        · rw [hscope]
      · by_cases hp : pre = p
        · subst hp
          rw [List.find?_cons_of_pos (by simpa using hname), Scope.uri?,
            List.find?_cons_of_pos (by simp)]
          rfl
        · have hne : a.name ≠ declarationName p := by
            intro heq
            rw [← bound?_eq_some_iff, hb] at heq
            exact hp (Option.some.inj heq)
          rw [List.find?_cons_of_neg (by simpa using hne), ← huri, Scope.uri?,
            List.find?_cons_of_neg (by simpa using hp)]
          rfl

/-- When the declarations of a tag succeed, none of them binds a prefix to nothing. -/
theorem declared_of_declarations {as : List RawAttribute} {scope : Scope}
    (h : declarations as = .ok scope) :
    ∀ a ∈ as, ∀ pre, a.name = declarationName (some pre) → a.value ≠ "" := by
  induction as generalizing scope with
  | nil => simp
  | cons a as ih =>
    rw [List.forall_mem_cons]
    rw [declarations] at h
    split at h
    · next hb =>
      exact ⟨fun p hp => absurd hp (bound?_eq_none_iff.1 hb _), ih h⟩
    · next pre hb =>
      split at h
      · exact absurd h (by simp)
      · next hval =>
        split at h
        · exact absurd h (by simp)
        · next inner hinner =>
          refine ⟨fun p hp hempty => ?_, ih hinner⟩
          rw [← bound?_eq_some_iff, hb] at hp
          exact hval p (Option.some.inj hp) hempty

/-- The declarations of a tag hide those around it. -/
theorem uri?_append {inner outer : Scope} {as : List RawAttribute}
    (h : ∀ pre, inner.uri? pre = (as.find? fun a => a.name = declarationName pre).map (·.value)) :
    Scope.uri? (inner ++ outer) = bindingsInside outer.uri? as := by
  funext pre
  rw [bindingsInside, ← h, Scope.uri?, Scope.uri?, Scope.uri?, List.find?_append, Option.map_or]

/-! ## Namespaces -/

/-- A scope resolves a prefix exactly to what its bindings select. -/
theorem Scope.resolve_eq_ok_iff {scope : Scope} {pre uri : Option String} :
    scope.resolve pre = .ok uri ↔ Selects scope.uri? pre uri := by
  constructor
  · intro h
    unfold Scope.resolve at h
    split_ifs at h with hxml
    · obtain rfl := Except.ok.inj h
      subst hxml
      exact .xml
    · split at h
      · exact absurd h (by simp)
      · next hu =>
        obtain rfl := Except.ok.inj h
        exact .unqualified hu
      · next u hu =>
        split_ifs at h with he
        · obtain rfl := Except.ok.inj h
          subst he
          exact .emptied hxml hu
        · obtain rfl := Except.ok.inj h
          exact .bound hxml hu he
  · intro h
    unfold Scope.resolve
    rcases h with _ | ⟨hxml, h, hne⟩ | ⟨hxml, h⟩ | ⟨h⟩
    · rfl
    · rw [if_neg hxml, h]
      dsimp only
      rw [if_neg hne]
    · rw [if_neg hxml, h]
      rfl
    · rw [if_neg (by simp), h]

/-- Raw attributes that resolve stand for the attributes that they resolve to. -/
theorem attributesMean_of_resolveAttributes {scope : Scope} {as : List RawAttribute}
    {bs : List Attribute} (h : resolveAttributes scope as = .ok bs) :
    AttributesMean scope.uri? as bs := by
  induction as generalizing bs with
  | nil =>
    obtain rfl := Except.ok.inj h
    exact .nil
  | cons a as ih =>
    rw [resolveAttributes] at h
    split_ifs at h with hb
    · obtain ⟨pre, hpre⟩ := Option.isSome_iff_exists.1 hb
      exact .declaration pre (bound?_eq_some_iff.1 hpre) (ih h)
    · have hne := bound?_eq_none_iff.1 (Option.not_isSome_iff_eq_none.1 hb)
      split at h
      · exact absurd h (by simp)
      · next b hres =>
        split at h
        · exact absurd h (by simp)
        · next others hothers =>
          obtain rfl := Except.ok.inj h
          -- An attribute without a prefix is in no namespace, whatever the default one is.
          unfold RawAttribute.resolve at hres
          split at hres
          · exact absurd hres (by simp)
          · next base hq =>
            obtain rfl := Except.ok.inj hres
            exact .plain hne (QName.ofName?_eq_some_iff.1 hq) (ih hothers)
          · next pre base hq =>
            split at hres
            · exact absurd hres (by simp)
            · next uri huri =>
              obtain rfl := Except.ok.inj hres
              exact .prefixed hne (QName.ofName?_eq_some_iff.1 hq)
                (Scope.resolve_eq_ok_iff.1 huri) (ih hothers)

/-- Raw attributes resolve to the attributes that they stand for. -/
theorem AttributesMean.resolveAttributes_eq {scope : Scope} {as : List RawAttribute}
    {bs : List Attribute} (h : AttributesMean scope.uri? as bs) :
    resolveAttributes scope as = .ok bs := by
  induction h with
  | nil => rfl
  | declaration pre h _ ih =>
    rw [resolveAttributes, bound?_eq_some_iff.2 h, if_pos Option.isSome_some, ih]
  | plain h hname _ ih =>
    rw [resolveAttributes, bound?_eq_none_iff.2 h, if_neg (by simp), RawAttribute.resolve,
      QName.ofName?_eq_some_iff.2 hname]
    dsimp only
    rw [ih]
  | prefixed h hname huri _ ih =>
    rw [resolveAttributes, bound?_eq_none_iff.2 h, if_neg (by simp), RawAttribute.resolve,
      QName.ofName?_eq_some_iff.2 hname]
    dsimp only
    rw [Scope.resolve_eq_ok_iff.2 huri]
    dsimp only
    rw [ih]

/-! ## Tags -/

/-- A tag that is resolved means its head, and its scope has the bindings inside it. -/
theorem Tag.means_of_resolve {tag : Tag} {outer inner : Scope} {head : Head}
    (h : tag.resolve outer = .ok (head, inner)) :
    tag.Means outer.uri? head ∧ inner.uri? = bindingsInside outer.uri? tag.attributes := by
  unfold Tag.resolve at h
  split at h
  · exact absurd h (by simp)
  · next own hown =>
    -- What the tag declares holds for its own name and attributes too.
    have hdeclared := declared_of_declarations hown
    obtain ⟨own', hown', huri⟩ := exists_declarations hdeclared
    obtain rfl := Except.ok.inj (hown.symm.trans hown')
    have hinside := @uri?_append own outer _ huri
    dsimp only at h
    split at h
    · exact absurd h (by simp)
    · next q hq =>
      split at h
      · exact absurd h (by simp)
      · next u hu =>
        split at h
        · exact absurd h (by simp)
        · next bs hbs =>
          obtain ⟨rfl, rfl⟩ := Prod.mk.inj (Except.ok.inj h)
          refine ⟨⟨hdeclared, ⟨q.pre, QName.ofName?_eq_some_iff.1 hq, ?_⟩, ?_⟩, hinside⟩
          · rw [← hinside]
            exact Scope.resolve_eq_ok_iff.1 hu
          · rw [← hinside]
            exact attributesMean_of_resolveAttributes hbs

/-- A tag that means a head is resolved to it. -/
theorem Tag.Means.exists_resolve {tag : Tag} {outer : Scope} {head : Head}
    (h : tag.Means outer.uri? head) :
    ∃ inner : Scope, tag.resolve outer = .ok (head, inner) ∧
      inner.uri? = bindingsInside outer.uri? tag.attributes := by
  obtain ⟨own, hown, huri⟩ := exists_declarations h.declared
  have hinside := @uri?_append own outer _ huri
  obtain ⟨pre, hparts, hselects⟩ := h.name
  have hattributes := h.attributes
  rw [← hinside] at hselects hattributes
  refine ⟨own ++ outer, ?_, hinside⟩
  rw [Tag.resolve, hown]
  dsimp only
  rw [QName.ofName?_eq_some_iff.2 hparts]
  dsimp only
  rw [Scope.resolve_eq_ok_iff.2 hselects]
  dsimp only
  rw [hattributes.resolveAttributes_eq]

end ParamClass.Xml
