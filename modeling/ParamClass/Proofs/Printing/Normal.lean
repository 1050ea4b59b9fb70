import Mathlib.Data.List.Find
import ParamClass.Proofs.Printing.Tree

/-!
# Parsed trees

Every tree that parsing gives is a normal one (`isNormal_of_parse`). What makes it so is that no
prefix ever stands for nothing, whichever tag around a name declared it: only a name without a prefix
is left without a namespace, and such a name is what its tag says, character by character. Texts meet
nowhere because content denotes merged nodes. So whoever reads a tree may rely on the shape of each
of its elements, and need not mind the order of attributes (`descendants_of_parse`).
-/

namespace ParamClass.Xml

open Text

/-! ## Names -/

/-- No prefix stands for nothing. Only the default namespace can be emptied. -/
def NoneEmptied (bindings : Bindings) : Prop := ∀ pre : String, bindings (some pre) ≠ some ""

/-- Outside of all elements no prefix stands for anything. -/
theorem noneEmptied_noBindings : NoneEmptied noBindings := fun _ => nofun

/-- A tag that means something empties no prefix for what is inside its element. -/
theorem Tag.Means.noneEmptied {tag : Tag} {outer : Bindings} {head : Head} (h : tag.Means outer head)
    (houter : NoneEmptied outer) : NoneEmptied (bindingsInside outer tag.attributes) := by
  intro pre
  rw [bindingsInside]
  cases hfind : tag.attributes.find? fun a => a.name = declarationName (some pre) with
  | none => exact houter pre
  | some a =>
    have hname : a.name = declarationName (some pre) := by simpa using List.find?_some hfind
    exact fun heq => h.declared a (List.mem_of_find?_eq_some hfind) pre hname (Option.some.inj heq)

/-- The namespace that is selected has a URI. -/
theorem Selects.ne_empty {bindings : Bindings} {pre uri : Option String}
    (h : Selects bindings pre uri) : uri ≠ some "" := by
  cases h with
  | xml => decide
  | bound _ _ hne => exact fun heq => hne (Option.some.inj heq)
  | emptied => nofun
  | unqualified => nofun

/-- Only without a prefix is no namespace selected. -/
theorem Selects.pre_eq_none {bindings : Bindings} {pre uri : Option String}
    (h : Selects bindings pre uri) (hbindings : NoneEmptied bindings) (huri : uri = none) :
    pre = none := by
  cases h with
  | xml => exact absurd huri nofun
  | bound => exact absurd huri nofun
  | unqualified => rfl
  | emptied _ hempty =>
    cases pre with
    | none => rfl
    | some pre => exact absurd hempty (hbindings pre)

/-- The part of a name that is not its prefix is a local name. -/
theorem NameParts.isLocalName {name : String} {q : QName} (h : NameParts name q)
    (hname : IsName name.toList) : IsLocalName q.base := by
  cases h with
  | plain hcolon =>
    obtain ⟨c, r, hr, -⟩ := hname.exists_cons
    refine ⟨?_, hcolon, hname.chars⟩
    rintro rfl
    exact absurd hr (by simp)
  | @prefixed pre base _ hbase _ hcolon =>
    refine ⟨hbase, hcolon, fun c hc => hname.chars c ?_⟩
    rw [String.toList_append]
    exact List.mem_append_right _ hc

/-- Without a prefix, a name is its only part. -/
theorem NameParts.base_eq {name base : String} (h : NameParts name ⟨none, base⟩) : base = name := by
  cases h with
  | plain => rfl

/-! ## Tags -/

/-- The attributes of a tag have names. -/
theorem AttributesText.isName {s : List Char} {as : List RawAttribute} (h : AttributesText s as) :
    ∀ a ∈ as, IsName a.name.toList := by
  induction h with
  | nil => exact List.forall_mem_nil _
  | cons _ _ ht _ ih =>
    obtain ⟨_, _, _, hname, -⟩ := ht
    exact List.forall_mem_cons.2 ⟨hname, ih⟩

/-- What attributes of a tag stand for is normal. -/
theorem AttributesMean.isNormal {bindings : Bindings} {as : List RawAttribute} {bs : List Attribute}
    (h : AttributesMean bindings as bs) (hbindings : NoneEmptied bindings)
    (hnames : ∀ a ∈ as, IsName a.name.toList) : ∀ b ∈ bs, b.IsNormal := by
  induction h with
  | nil => exact List.forall_mem_nil _
  | declaration _ _ _ ih => exact ih (List.forall_mem_cons.1 hnames).2
  | plain hdeclares hparts _ ih =>
    obtain ⟨hname, hrest⟩ := List.forall_mem_cons.1 hnames
    obtain rfl := hparts.base_eq
    exact List.forall_mem_cons.2
      ⟨⟨hparts.isLocalName hname, fun _ => hname.start, fun _ => hdeclares none, nofun⟩, ih hrest⟩
  | prefixed _ hparts huri _ ih =>
    obtain ⟨hname, hrest⟩ := List.forall_mem_cons.1 hnames
    -- The prefix is there, so the attribute is qualified.
    have hqualified := mt (huri.pre_eq_none hbindings) nofun
    exact List.forall_mem_cons.2 ⟨⟨hparts.isLocalName hname, fun hnone => absurd hnone hqualified,
      fun hnone => absurd hnone hqualified, huri.ne_empty⟩, ih hrest⟩

/-- Unqualified attributes have in order the names that some attributes of the tag have. -/
theorem AttributesMean.sublist {bindings : Bindings} {as : List RawAttribute} {bs : List Attribute}
    (h : AttributesMean bindings as bs) (hbindings : NoneEmptied bindings) :
    (unqualifiedNames bs).Sublist (as.map (·.name)) := by
  induction h with
  | nil => exact .slnil
  | declaration _ _ _ ih => exact ih.cons _
  | plain _ hparts _ ih =>
    obtain rfl := hparts.base_eq
    exact ih.cons_cons _
  | @prefixed a as bs pre base uri _ _ huri _ ih =>
    have hqualified := mt (huri.pre_eq_none hbindings) nofun
    rw [unqualifiedNames, List.filter_cons_of_neg (by simpa using hqualified)]
    exact ih.cons _

/-- What a tag means is a normal head. -/
theorem Tag.Means.isNormal {tag : Tag} {outer : Bindings} {head : Head} {t : List Char}
    (h : tag.Means outer head) (ht : TagText t tag) (houter : NoneEmptied outer) : head.IsNormal := by
  have hinside := h.noneEmptied houter
  obtain ⟨_, _, hname, hattributes, hnodup, -, -⟩ := ht
  obtain ⟨pre, hparts, hselects⟩ := h.name
  refine ⟨hparts.isLocalName hname, fun huri => ?_, hselects.ne_empty,
    h.attributes.isNormal hinside hattributes.isName, hnodup.sublist (h.attributes.sublist hinside)⟩
  obtain rfl := hselects.pre_eq_none hinside huri
  rw [hparts.base_eq]
  exact hname.start

/-! ## Trees -/

/-- A text in front of normal nodes leaves them normal. -/
theorem AllNormal.prependText {nodes : List Node} (h : AllNormal nodes) (text : List Char) :
    AllNormal (prependText text nodes) := by
  rcases prependText_eq text nodes with ⟨content, rest, rfl, heq⟩ | ⟨-, heq⟩
  · rw [heq]
    exact ⟨trivial, h.2⟩
  · rw [heq]
    split_ifs
    · exact h
    · exact ⟨trivial, h⟩

mutual

/-- An element denotes a normal node, where no prefix stands for nothing. -/
theorem ElementText.isNormal {bindings : Bindings} {t : List Char} {e : Element}
    (h : ElementText bindings t e) (hbindings : NoneEmptied bindings) : e.node.IsNormal := by
  match h with
  | .empty ht _ hmeans => exact ⟨hmeans.isNormal ht hbindings, trivial, trivial⟩
  | .filled ht _ hmeans hs _ =>
    exact ⟨hmeans.isNormal ht hbindings, hs.merged, hs.allNormal (hmeans.noneEmptied hbindings)⟩

/-- Content denotes normal nodes, where no prefix stands for nothing. -/
theorem ContentText.allNormal {bindings : Bindings} {s : List Char} {nodes : List Node}
    (h : ContentText bindings s nodes) (hbindings : NoneEmptied bindings) : AllNormal nodes := by
  match h with
  | .nil => exact trivial
  | .char _ _ _ hs => exact (hs.allNormal hbindings).prependText _
  | .reference _ hs => exact (hs.allNormal hbindings).prependText _
  | .cdata _ hs => exact (hs.allNormal hbindings).prependText _
  | .comment _ hs => exact hs.allNormal hbindings
  | .instruction _ _ hs => exact hs.allNormal hbindings
  | .element ht hs => exact ⟨ht.isNormal hbindings, hs.allNormal hbindings⟩

end

/-- Parsing gives normal trees only. -/
theorem isNormal_of_parse {text : String} {root : Element} (h : parse text = .ok root) :
    root.IsNormal := by
  obtain ⟨t, m, ht, -, hdepth, -⟩ := readDocument_eq_ok_iff.1 (parse_eq_ok_iff.1 h)
  exact ⟨ht.isNormal noneEmptied_noBindings, hdepth⟩

mutual

/-- All elements of a normal node are normal. -/
theorem Node.IsNormal.elements {n : Node} (h : n.IsNormal) : ∀ e ∈ n.elements, e.node.IsNormal := by
  match n with
  | .element head children => exact List.forall_mem_cons.2 ⟨h, h.2.2.elementsOf⟩
  | .text _ => exact List.forall_mem_nil _

/-- All elements of normal nodes are normal. -/
theorem AllNormal.elementsOf {ns : List Node} (h : AllNormal ns) :
    ∀ e ∈ elementsOf ns, e.node.IsNormal := by
  match ns with
  | [] => exact List.forall_mem_nil _
  | n :: ns => exact List.forall_mem_append.2 ⟨h.1.elements, h.2.elementsOf⟩

end

/-- Every element of a normal tree is normal. -/
theorem Element.IsNormal.descendants {root : Element} (h : root.IsNormal) :
    ∀ e ∈ root.descendants, e.node.IsNormal :=
  h.node.elements

/-! ## What may be relied on -/

/-- Among merged nodes no text is empty. -/
theorem Merged.empty_not_mem {nodes : List Node} (h : Merged nodes) : .text "" ∉ nodes := by
  induction nodes with
  | nil => exact List.not_mem_nil
  | cons n nodes ih =>
    rw [List.mem_cons, not_or]
    cases n with
    | element head children => exact ⟨by simp, ih h⟩
    | text content => exact ⟨fun heq => h.1 (Node.text.inj heq).symm, ih h.2.2⟩

/-- Among merged nodes no two texts meet. -/
theorem Merged.not_infix {nodes : List Node} (h : Merged nodes) (s t : String) :
    ¬ [.text s, .text t] <:+: nodes := by
  induction nodes with
  | nil => exact fun hi => absurd (List.eq_nil_of_infix_nil hi) (List.cons_ne_nil _ _)
  | cons n nodes ih =>
    rw [List.infix_cons_iff, not_or]
    cases n with
    | element head children => exact ⟨fun hp => absurd (List.cons_prefix_cons.1 hp).1 (by simp), ih h⟩
    | text content =>
      refine ⟨fun hp => ?_, ih h.2.2⟩
      -- The second text would be the first of the nodes after this one.
      obtain ⟨r, rfl⟩ := (List.cons_prefix_cons.1 hp).2
      exact h.2.1 t rfl

/-- If no two unqualified attributes have the same name, a look for one finds it in any order. -/
theorem find?_unqualified_eq_of_perm {as as' : List Attribute} (h : as.Perm as')
    (hdistinct : (unqualifiedNames as).Nodup) (name : String) :
    (as.find? fun a => a.uri.isNone && a.name == name) =
      as'.find? fun a => a.uri.isNone && a.name == name := by
  refine List.find?_eq_find?_of_perm h ?_
  rintro a ⟨ha, hfound⟩ b ⟨hb, hfound'⟩
  rw [Bool.and_eq_true, beq_iff_eq] at hfound hfound'
  refine List.inj_on_of_nodup_map hdistinct (List.mem_filter.2 ⟨ha, hfound.1⟩)
    (List.mem_filter.2 ⟨hb, hfound'.1⟩) ?_
  rw [hfound.2, hfound'.2]

/-- A parsed tree is at most 256 elements deep. Each of its elements has a normal head, holds no empty
text and no two texts side by side, and has the same unqualified attributes in whatever order its
attributes are put. -/
theorem descendants_of_parse {text : String} {root : Element} (h : parse text = .ok root) :
    root.depth ≤ 256 ∧ ∀ e ∈ root.descendants,
      e.head.IsNormal ∧ .text "" ∉ e.children ∧ (∀ s t, ¬ [.text s, .text t] <:+: e.children) ∧
      ∀ as, as.Perm e.head.attributes → ∀ name,
        (⟨{ e.head with attributes := as }, e.children⟩ : Element).attribute? name =
          e.attribute? name := by
  have hroot := isNormal_of_parse h
  refine ⟨hroot.depth, fun e he => ?_⟩
  obtain ⟨hhead, hmerged, -⟩ := hroot.descendants e he
  refine ⟨hhead, hmerged.empty_not_mem, hmerged.not_infix, fun as has name => ?_⟩
  have hfind := find?_unqualified_eq_of_perm has.symm hhead.distinct name
  exact congrArg (·.map Attribute.value) hfind.symm

/-- Elements with and without a namespace, one of them with a name that only a prefix lets start with
a digit, a value of the same name under two prefixes, an emptied default namespace, and texts that
meet across a comment, a reference and empty character data. -/
theorem descendants_of_parse_of_prefixed :
    let text := "<p:1 xmlns:p='u' xmlns:q='u' p:a='1' q:a='2' a='3'>x<!---->&#121;<![CDATA[]]>" ++
      "<b xmlns='v'><c xmlns=''/></b>z</p:1>"
    let root : Element :=
      ⟨⟨"1", some "u", [⟨"a", some "u", "1"⟩, ⟨"a", some "u", "2"⟩, ⟨"a", none, "3"⟩]⟩,
        [.text "xy", .element ⟨"b", some "v", []⟩ [.element ⟨"c", none, []⟩ []], .text "z"]⟩
    parse text = .ok root ∧ root.depth ≤ 256 ∧ root.head.IsNormal ∧
      (⟨{ root.head with attributes := root.head.attributes.reverse }, root.children⟩ :
        Element).attribute? "a" = root.attribute? "a" := by
  intro text root
  have hparse : parse text = .ok root := by decide +kernel
  obtain ⟨hdepth, hall⟩ := descendants_of_parse hparse
  obtain ⟨hhead, -, -, hattribute⟩ := hall root List.mem_cons_self
  exact ⟨hparse, hdepth, hhead, hattribute _ (List.reverse_perm _) "a"⟩

end ParamClass.Xml
