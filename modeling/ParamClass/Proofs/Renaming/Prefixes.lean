import Mathlib.Logic.Equiv.Basic
import ParamClass.Proofs.Renaming.Outcome
import ParamClass.Proofs.Renaming.Written

/-!
# Other prefixes

The prefixes of a tree are replaced by others, different ones by different ones: on the names of
elements and attributes and in the declarations. The prefix `xml` and the name `xmlns` stay. Then the
tree denotes what it did (`SourceElement.denote_rename`). What makes it so is that the two scopes
agree at every place: each prefix stands in the one for what its replacement stands for in the other,
and this is kept by the declarations of a tag, however they hide and repeat those around them.
-/

namespace ParamClass.Xml

open Text

/-! ## Names -/

/-- A replacement for every prefix. -/
structure Renaming where
  /-- The prefix that replaces another. -/
  map : LocalName → LocalName
  /-- What may stand before a colon is replaced by what may. -/
  isName : ∀ p : LocalName, IsName p.text.toList → IsName (map p).text.toList
  /-- Different prefixes are replaced by different ones. -/
  injective : Function.Injective map
  /-- The prefix `xml` stays. -/
  xml : map NCName.xml.toLocalName = NCName.xml.toLocalName
  /-- What declares stays. -/
  xmlns : map NCName.xmlns.toLocalName = NCName.xmlns.toLocalName

namespace Renaming

variable (f : Renaming)

/-- The replacement of a prefix that stands before a colon. -/
def name (p : NCName) : NCName := ⟨f.map p.toLocalName, f.isName _ p.isName⟩

/-- It is written as the prefix that replaces the other. -/
theorem toLocalName_name (p : NCName) : (f.name p).toLocalName = f.map p.toLocalName := rfl

/-- Two replacements are written alike only if the prefixes are. -/
theorem text_inj {p q : LocalName} : (f.map p).text = (f.map q).text ↔ p.text = q.text := by
  rw [LocalName.text_inj, LocalName.text_inj, f.injective.eq_iff]

/-- A prefix other than `xmlns` is replaced by one other than `xmlns`. -/
theorem ne_xmlns {p : NCName} (h : p ≠ .xmlns) : f.name p ≠ .xmlns := by
  intro heq
  have hmap : f.map p.toLocalName = f.map NCName.xmlns.toLocalName :=
    (congrArg NCName.toLocalName heq).trans f.xmlns.symm
  exact h (NCName.toLocalName_inj.1 (f.injective hmap))

/-- Only the prefix `xml` is replaced by `xml`. -/
theorem text_eq_xml_iff {p : LocalName} : (f.map p).text = "xml" ↔ p.text = "xml" := by
  have h := f.text_inj (p := p) (q := NCName.xml.toLocalName)
  rwa [f.xml] at h

/-- Two prefixes are replaced by each other. -/
def swap (p q : NCName) (hp : p ≠ .xml ∧ p ≠ .xmlns) (hq : q ≠ .xml ∧ q ≠ .xmlns) : Renaming where
  map := Equiv.swap p.toLocalName q.toLocalName
  isName r hr := by
    rw [Equiv.swap_apply_def]
    split_ifs
    · exact q.isName
    · exact p.isName
    · exact hr
  injective := Equiv.injective _
  xml := Equiv.swap_apply_of_ne_of_ne (mt NCName.toLocalName_inj.1 hp.1.symm)
    (mt NCName.toLocalName_inj.1 hq.1.symm)
  xmlns := Equiv.swap_apply_of_ne_of_ne (mt NCName.toLocalName_inj.1 hp.2.symm)
    (mt NCName.toLocalName_inj.1 hq.2.symm)

end Renaming

/-- The name with its prefix replaced. -/
def SourceName.rename (f : Renaming) : SourceName → SourceName
  | plain name => plain name
  | prefixed pre base => prefixed (f.name pre) base

/-- The attribute with its prefix replaced, or the prefix that it declares. -/
def SourceAttribute.rename (f : Renaming) : SourceAttribute → SourceAttribute
  | default uri => default uri
  | declaration pre uri => declaration (f.map pre) uri
  | plain name h value => plain name h value
  | prefixed pre h base value => prefixed (f.name pre) (f.ne_xmlns h) base value

mutual

/-- The node with all prefixes in it replaced. -/
def SourceNode.rename (f : Renaming) : SourceNode → SourceNode
  | .element name attributes children =>
    .element (name.rename f) (attributes.map (·.rename f)) (renameSources f children)
  | .text content => .text content

/-- The nodes with all prefixes in them replaced. -/
def renameSources (f : Renaming) : List SourceNode → List SourceNode
  | [] => []
  | n :: ns => n.rename f :: renameSources f ns

end

/-- The element with all prefixes in it replaced. -/
def SourceElement.rename (f : Renaming) (e : SourceElement) : SourceElement :=
  ⟨e.name.rename f, e.attributes.map (·.rename f), renameSources f e.children⟩

/-- The parts of a name as they are written. -/
def QName.text (q : QName) : String :=
  match q.pre with
  | none => q.base
  | some pre => pre ++ ":" ++ q.base

namespace SourceAttribute

/-- The two parts of the name of an attribute. -/
def parts : SourceAttribute → QName
  | default _ => ⟨none, "xmlns"⟩
  | declaration pre _ => ⟨some "xmlns", pre.text⟩
  | plain name _ _ => ⟨none, name.text⟩
  | prefixed pre _ base _ => ⟨some pre.text, base.text⟩

/-- What is written for an attribute has the parts of its name. -/
theorem ofName?_raw (a : SourceAttribute) : QName.ofName? a.raw.name = some a.parts := by
  cases a with
  | default uri => exact (NameParts.plain NCName.xmlns.plain).ofName?_eq
  | declaration pre uri =>
    exact (pre.isLocalName.nameParts NCName.xmlns.isName NCName.xmlns.plain).ofName?_eq
  | plain name h value => exact (NameParts.plain name.plain).ofName?_eq
  | prefixed pre h base value =>
    exact (base.isLocalName.nameParts pre.isName pre.plain).ofName?_eq

/-- What is written for an attribute is its parts, with a colon between them if there is a prefix. -/
theorem name_raw (a : SourceAttribute) : a.raw.name = a.parts.text := by
  cases a <;> rfl

/-- Two attributes are written with the same name exactly when its parts are the same. -/
theorem name_raw_inj {a b : SourceAttribute} : a.raw.name = b.raw.name ↔ a.parts = b.parts := by
  constructor
  · intro h
    have hparts := a.ofName?_raw
    rw [h, b.ofName?_raw] at hparts
    exact (Option.some.inj hparts).symm
  · intro h
    rw [name_raw, name_raw, h]

/-- Two attributes have the same name after their prefixes are replaced exactly when they had
before. -/
theorem parts_rename_inj (f : Renaming) {a b : SourceAttribute} :
    (a.rename f).parts = (b.rename f).parts ↔ a.parts = b.parts := by
  have hne : ∀ p : NCName, p ≠ .xmlns → p.text ≠ "xmlns" :=
    fun p hp heq => hp (NCName.text_inj.1 heq)
  cases a with
  | default | plain =>
    cases b with
    | default | plain => exact Iff.rfl
    | declaration | prefixed => simp [rename, parts]
  | declaration pre uri =>
    cases b with
    | default | plain => simp [rename, parts]
    | declaration => simp [rename, parts, f.text_inj]
    | prefixed pre' h => simp [rename, parts, (hne _ h).symm, (hne _ (f.ne_xmlns h)).symm]
  | prefixed pre h base value =>
    cases b with
    | default | plain => simp [rename, parts]
    | declaration => simp [rename, parts, hne _ h, hne _ (f.ne_xmlns h)]
    | prefixed => simp [rename, parts, f.toLocalName_name, f.text_inj]

/-- What an attribute declares: nothing, the default namespace, or a prefix. -/
def declared : SourceAttribute → Option (Option String)
  | default _ => some none
  | declaration pre _ => some (some pre.text)
  | plain _ _ _ => none
  | prefixed _ _ _ _ => none

/-- An attribute binds what it declares. -/
theorem bound?_raw (a : SourceAttribute) : bound? a.raw.name = a.declared := by
  cases a with
  | default uri => exact bound?_eq_some_iff.2 rfl
  | declaration pre uri => exact bound?_eq_some_iff.2 rfl
  | plain name h value =>
    refine bound?_eq_none_iff.2 fun pre heq => ?_
    cases pre with
    | none => exact h (NCName.text_inj.1 heq)
    | some pre => exact name.isLocalName.ne_declarationName pre heq
  | prefixed pre h base value =>
    refine bound?_eq_none_iff.2 fun pre' heq => ?_
    -- What declares a prefix is `xmlns` before its first colon.
    have hlist := congrArg String.toList heq
    have hsplit : (pre.text ++ ":" ++ base.text).toList =
        pre.text.toList ++ ':' :: base.text.toList := by simp
    have hstop : ∀ s, Stops (· != ':') (':' :: s) := fun s => stops_cons.2 (by decide)
    obtain ⟨htake, -⟩ := takeWhile_dropWhile_eq_iff.2
      ⟨hsplit, forall_bne_colon_iff.2 pre.plain, hstop base.text.toList⟩
    have hxmlns : pre.text.toList = "xmlns".toList := by
      rw [← htake, show (pre.text ++ ":" ++ base.text).toList = (declarationName pre').toList from hlist]
      cases pre' with
      | none => decide
      | some pre' => rw [declarationName, String.toList_append]; rfl
    exact h (NCName.text_inj.1 (String.toList_injective hxmlns))

end SourceAttribute

/-! ## Scopes -/

/-- Each prefix stands in the first scope for what its replacement stands for in the second, and the
default namespace is the same. -/
structure Agrees (f : Renaming) (scope scope' : Scope) : Prop where
  /-- The default namespace. -/
  default : scope'.uri? none = scope.uri? none
  /-- The prefixes. -/
  prefixed : ∀ p : LocalName, scope'.uri? (some (f.map p).text) = scope.uri? (some p.text)

/-- What a binding in front of a scope makes of it. -/
theorem Scope.uri?_cons (pre : Option String) (uri : String) (scope : Scope) (p : Option String) :
    Scope.uri? (⟨pre, uri⟩ :: scope) p = if p = pre then some uri else scope.uri? p := by
  rw [Scope.uri?, List.find?_cons]
  by_cases h : p = pre
  · rw [if_pos h, h, beq_self_eq_true]
    rfl
  · rw [if_neg h, beq_eq_false_iff_ne.2 (Ne.symm h)]
    rfl

namespace Agrees

variable {f : Renaming} {scope scope' : Scope}

/-- Empty scopes agree. -/
theorem nil (f : Renaming) : Agrees f [] [] := ⟨rfl, fun _ => rfl⟩

/-- Scopes that declare the same default namespace agree. -/
theorem consDefault (h : Agrees f scope scope') (uri : String) :
    Agrees f (⟨none, uri⟩ :: scope) (⟨none, uri⟩ :: scope') where
  default := by rw [Scope.uri?_cons, Scope.uri?_cons, if_pos rfl, if_pos rfl]
  prefixed p := by
    rw [Scope.uri?_cons, Scope.uri?_cons, if_neg (by simp), if_neg (by simp), h.prefixed]

/-- Scopes that declare a prefix and its replacement for the same agree. -/
theorem consPrefix (h : Agrees f scope scope') (pre : LocalName) (uri : String) :
    Agrees f (⟨some pre.text, uri⟩ :: scope) (⟨some (f.map pre).text, uri⟩ :: scope') where
  default := by
    rw [Scope.uri?_cons, Scope.uri?_cons, if_neg (by simp), if_neg (by simp), h.default]
  prefixed p := by
    rw [Scope.uri?_cons, Scope.uri?_cons, h.prefixed]
    simp only [Option.some.injEq, f.text_inj]

/-- Scopes that agree inside scopes that agree do so together. -/
theorem append (h : Agrees f scope scope') {outer outer' : Scope} (houter : Agrees f outer outer') :
    Agrees f (scope ++ outer) (scope' ++ outer') where
  default := by rw [Scope.uri?_append, Scope.uri?_append, h.default, houter.default]
  prefixed p := by rw [Scope.uri?_append, Scope.uri?_append, h.prefixed, houter.prefixed]

/-- No prefix is resolved as before. -/
theorem resolve_none (h : Agrees f scope scope') : scope'.resolve none = scope.resolve none := by
  unfold Scope.resolve
  rw [h.default]

/-- A replacement is resolved as the prefix was. -/
theorem resolve_some (h : Agrees f scope scope') (p : LocalName) :
    (scope'.resolve (some (f.map p).text)).toOption = (scope.resolve (some p.text)).toOption := by
  unfold Scope.resolve
  rw [h.prefixed]
  by_cases hxml : p.text = "xml"
  · rw [if_pos (congrArg some hxml), if_pos (congrArg some (f.text_eq_xml_iff.2 hxml))]
  · have hxml' : ¬ (f.map p).text = "xml" := mt f.text_eq_xml_iff.1 hxml
    rw [if_neg (by simpa using hxml'), if_neg (by simpa using hxml)]
    cases scope.uri? (some p.text) <;> rfl

/-- The declarations of a tag agree with those of the tag with replaced prefixes, or both are
refused. -/
theorem declarations (f : Renaming) (as : List SourceAttribute) :
    Option.Rel (Agrees f) (Xml.declarations (as.map (·.raw))).toOption
      (Xml.declarations ((as.map (·.rename f)).map (·.raw))).toOption := by
  induction as with
  | nil => exact .some (.nil f)
  | cons a as ih =>
    rw [List.map_cons, List.map_cons, List.map_cons]
    have hbound := a.bound?_raw
    have hbound' := (a.rename f).bound?_raw
    cases a with
    | plain | prefixed =>
      rw [declarations_cons_of_none hbound, declarations_cons_of_none hbound']
      exact ih
    | default uri =>
      rw [toOption_declarations_cons hbound nofun, toOption_declarations_cons hbound' nofun]
      exact rel_map ih fun _ _ h => h.consDefault uri
    | declaration pre uri =>
      by_cases hempty : uri = ""
      · rw [toOption_declarations_cons_empty hbound hempty,
          toOption_declarations_cons_empty hbound' hempty]
        exact .none
      · rw [toOption_declarations_cons hbound fun _ => hempty,
          toOption_declarations_cons hbound' fun _ => hempty]
        exact rel_map ih fun _ _ h => h.consPrefix pre uri

/-- An attribute with a replaced prefix is resolved as the attribute was, unless it declares. -/
theorem toOption_resolve_raw (h : Agrees f scope scope') {a : SourceAttribute}
    (hnone : a.declared = none) :
    ((a.rename f).raw.resolve scope').toOption = (a.raw.resolve scope).toOption := by
  have hparts := a.ofName?_raw
  have hparts' := (a.rename f).ofName?_raw
  cases a with
  | default | declaration => exact absurd hnone (by simp [SourceAttribute.declared])
  | plain =>
    rw [RawAttribute.resolve, RawAttribute.resolve, hparts, hparts']
    rfl
  | prefixed pre hpre base value =>
    rw [toOption_resolve_prefixed hparts, toOption_resolve_prefixed hparts', f.toLocalName_name,
      h.resolve_some]
    rfl

/-- Attributes with replaced prefixes are resolved as the attributes were. -/
theorem toOption_resolveAttributes (h : Agrees f scope scope') (as : List SourceAttribute) :
    (resolveAttributes scope' ((as.map (·.rename f)).map (·.raw))).toOption =
      (resolveAttributes scope (as.map (·.raw))).toOption := by
  induction as with
  | nil => rfl
  | cons a as ih =>
    rw [List.map_cons, List.map_cons, List.map_cons]
    have hdeclared : (a.rename f).declared = none ↔ a.declared = none := by
      cases a <;> simp [SourceAttribute.rename, SourceAttribute.declared]
    by_cases hnone : a.declared = none
    · have hbound := a.bound?_raw.trans hnone
      have hbound' := (a.rename f).bound?_raw.trans (hdeclared.2 hnone)
      rw [toOption_resolveAttributes_cons hbound, toOption_resolveAttributes_cons hbound', ih,
        h.toOption_resolve_raw hnone]
    · have hbound := a.bound?_raw.trans_ne hnone
      have hbound' := (a.rename f).bound?_raw.trans_ne (mt hdeclared.1 hnone)
      rw [resolveAttributes_cons_of_bound hbound, resolveAttributes_cons_of_bound hbound', ih]

/-- A tag with replaced prefixes is resolved to the same head, with a scope that agrees. -/
theorem resolve_sourceTag (h : Agrees f scope scope') (name : SourceName)
    (attributes : List SourceAttribute) :
    Option.Rel (fun x y => x.1 = y.1 ∧ Agrees f x.2 y.2)
      ((sourceTag name attributes).resolve scope).toOption
      ((sourceTag (name.rename f) (attributes.map (·.rename f))).resolve scope').toOption := by
  rw [Tag.toOption_resolve (ofName?_sourceTag name attributes),
    Tag.toOption_resolve (ofName?_sourceTag (name.rename f) (attributes.map (·.rename f)))]
  refine rel_bind (declarations f attributes) fun inner inner' hinner => ?_
  have hscope := hinner.append h
  have hname : ((inner' ++ scope').resolve (name.rename f).parts.pre).toOption =
      ((inner ++ scope).resolve name.parts.pre).toOption := by
    cases name with
    | plain name => exact congrArg Except.toOption hscope.resolve_none
    | prefixed pre base => exact hscope.resolve_some pre.toLocalName
  have hbase : (name.rename f).parts.base = name.parts.base := by cases name <;> rfl
  have hattributes := hscope.toOption_resolveAttributes attributes
  rw [hname, hbase]
  refine rel_bind (rel_refl _) fun uri _ huri => ?_
  subst huri
  rw [show (sourceTag (name.rename f) (attributes.map (·.rename f))).attributes =
    (attributes.map (·.rename f)).map (·.raw) from rfl, hattributes]
  refine rel_map (rel_refl _) fun bs _ hbs => ?_
  subst hbs
  exact ⟨rfl, hscope⟩

end Agrees

/-! ## Trees -/

/-- The names of attributes are all different after their prefixes are replaced exactly when they were
before. -/
theorem nodup_rename_iff (f : Renaming) (as : List SourceAttribute) :
    (((as.map (·.rename f)).map (·.raw)).map (·.name)).Nodup ↔ ((as.map (·.raw)).map (·.name)).Nodup := by
  simp only [List.Nodup, List.pairwise_map]
  refine List.Pairwise.iff fun a b => not_congr ?_
  rw [SourceAttribute.name_raw_inj, SourceAttribute.name_raw_inj, SourceAttribute.parts_rename_inj]

/-- A tag with replaced prefixes denotes the same element, if its content does in scopes that agree. -/
theorem Agrees.denote_sourceTag {f : Renaming} {scope scope' : Scope} (h : Agrees f scope scope') (name : SourceName)
    (attributes : List SourceAttribute) (depth : Nat) {content content' : Scope → Option (List Node)}
    (hcontent : ∀ inner inner', Agrees f inner inner' → content' inner' = content inner) :
    (sourceTag (name.rename f) (attributes.map (·.rename f))).denote scope' depth content' =
      (sourceTag name attributes).denote scope depth content := by
  have hnodup : ((sourceTag (name.rename f) (attributes.map (·.rename f))).attributes.map
      (·.name)).Nodup ↔ ((sourceTag name attributes).attributes.map (·.name)).Nodup :=
    nodup_rename_iff f attributes
  unfold Tag.denote
  simp only [hnodup]
  split
  · rfl
  · refine (eq_of_rel (rel_bind (h.resolve_sourceTag name attributes) fun x y hxy => ?_)).symm
    rw [hxy.1, hcontent _ _ hxy.2]
    exact rel_refl _

mutual

/-- A node with replaced prefixes denotes what it did, in scopes that agree. -/
theorem SourceNode.denote_rename {f : Renaming} (n : SourceNode) {scope scope' : Scope}
    (h : Agrees f scope scope') (depth : Nat) :
    (n.rename f).denote scope' depth = n.denote scope depth := by
  match n with
  | .element name attributes children =>
    rw [SourceNode.rename, SourceNode.denote, SourceNode.denote, h.denote_sourceTag name attributes depth
      fun inner inner' hinner => denoteSources_rename children hinner (depth + 1)]
  | .text content => rfl

/-- Nodes with replaced prefixes denote what they did, in scopes that agree. -/
theorem denoteSources_rename {f : Renaming} (ns : List SourceNode) {scope scope' : Scope}
    (h : Agrees f scope scope') (depth : Nat) :
    denoteSources scope' depth (renameSources f ns) = denoteSources scope depth ns := by
  match ns with
  | [] => rfl
  | n :: ns =>
    rw [renameSources, denoteSources, denoteSources, n.denote_rename h, denoteSources_rename ns h]

end

/-- An element with replaced prefixes denotes the document that it did. -/
theorem SourceElement.denote_rename (f : Renaming) (e : SourceElement) :
    (e.rename f).denote = e.denote :=
  (Agrees.nil f).denote_sourceTag e.name e.attributes 0
    fun _ _ hinner => denoteSources_rename e.children hinner 1

end ParamClass.Xml
