import Mathlib.Data.List.Find
import ParamClass.Proofs.Renaming.Outcome
import ParamClass.Proofs.Renaming.Written

/-!
# Attributes in another order

The attributes of each tag are put into another order, declarations among them. The tree then denotes
a document that is the same but for the order of attributes, or none if it denoted none
(`SourceElement.Reordered.rel_denote`). The names in a tag that denotes something are all different, so it
does not matter which of its attributes is found first.
-/

namespace ParamClass.Xml

open Text

/-! ## Trees that differ in the order of attributes -/

mutual

/-- The same node as it is written, but for the order of attributes in its tags. -/
inductive SourceNode.Reordered : SourceNode → SourceNode → Prop where
  /-- An element. -/
  | element {name as as' ns ns'} (has : as.Perm as') (hns : ReorderedAll ns ns') :
      SourceNode.Reordered (.element name as ns) (.element name as' ns')
  /-- A text. -/
  | text (content : String) : SourceNode.Reordered (.text content) (.text content)

/-- The same nodes as they are written, but for the order of attributes in their tags. -/
inductive ReorderedAll : List SourceNode → List SourceNode → Prop where
  /-- None. -/
  | nil : ReorderedAll [] []
  /-- One and more. -/
  | cons {n n' ns ns'} (hn : n.Reordered n') (hns : ReorderedAll ns ns') :
      ReorderedAll (n :: ns) (n' :: ns')

end

/-- The same element as it is written, but for the order of attributes in its tags. -/
def SourceElement.Reordered (e e' : SourceElement) : Prop := e.node.Reordered e'.node

/-- The same head but for the order of attributes. -/
structure Head.Similar (head head' : Head) : Prop where
  /-- The name. -/
  name : head.name = head'.name
  /-- The namespace. -/
  uri : head.uri = head'.uri
  /-- The attributes. -/
  attributes : head.attributes.Perm head'.attributes

mutual

/-- The same node but for the order of attributes. -/
inductive Node.Similar : Node → Node → Prop where
  /-- An element. -/
  | element {head head' ns ns'} (hhead : head.Similar head') (hns : AllSimilar ns ns') :
      Node.Similar (.element head ns) (.element head' ns')
  /-- A text. -/
  | text (content : String) : Node.Similar (.text content) (.text content)

/-- The same nodes but for the order of attributes. -/
inductive AllSimilar : List Node → List Node → Prop where
  /-- None. -/
  | nil : AllSimilar [] []
  /-- One and more. -/
  | cons {n n' ns ns'} (hn : n.Similar n') (hns : AllSimilar ns ns') :
      AllSimilar (n :: ns) (n' :: ns')

end

/-- The same element but for the order of attributes. -/
structure Element.Similar (e e' : Element) : Prop where
  /-- The start tag. -/
  head : e.head.Similar e'.head
  /-- What it holds. -/
  children : AllSimilar e.children e'.children

/-- A text in front of similar nodes leaves them similar. -/
theorem AllSimilar.prependText {ns ns' : List Node} (h : AllSimilar ns ns') (text : List Char) :
    AllSimilar (prependText text ns) (prependText text ns') := by
  by_cases htext : text = []
  · rw [htext, prependText_nil, prependText_nil]
    exact h
  cases h with
  | nil =>
    have hnil : Xml.prependText text [] = [.text (.ofList text)] := if_neg htext
    rw [hnil]
    exact .cons (.text _) .nil
  | cons hn hns =>
    cases hn with
    | text content => exact .cons (.text _) hns
    | element hhead hchildren =>
      have hnew : ∀ head ns ms, Xml.prependText text (.element head ns :: ms) =
          .text (.ofList text) :: .element head ns :: ms := fun _ _ _ => if_neg htext
      rw [hnew, hnew]
      exact .cons (.text _) (.cons (.element hhead hchildren) hns)

/-! ## What is found in another order -/

/-- The declarations of a tag declare the same in any order, or are refused in any order. -/
theorem rel_declarations_of_perm {as as' : List RawAttribute} (h : as.Perm as')
    (hnodup : (as.map (·.name)).Nodup) :
    Option.Rel (fun scope scope' => scope.uri? = scope'.uri?) (declarations as).toOption
      (declarations as').toOption := by
  by_cases hdeclared : ∀ a ∈ as, ∀ pre, a.name = declarationName (some pre) → a.value ≠ ""
  · obtain ⟨scope, hscope, huri⟩ := exists_declarations hdeclared
    obtain ⟨scope', hscope', huri'⟩ :=
      exists_declarations fun a ha => hdeclared a (h.mem_iff.2 ha)
    rw [hscope, hscope']
    refine .some (funext fun pre => ?_)
    rw [huri, huri', List.find?_eq_find?_of_perm h]
    rintro a ⟨ha, hpa⟩ b ⟨hb, hpb⟩
    refine List.inj_on_of_nodup_map hnodup ha hb ?_
    rw [of_decide_eq_true hpa, of_decide_eq_true hpb]
  · have hdeclared' : ¬ ∀ a ∈ as', ∀ pre, a.name = declarationName (some pre) → a.value ≠ "" :=
      fun hall => hdeclared fun a ha => hall a (h.mem_iff.1 ha)
    have hnone : ∀ as : List RawAttribute, (¬ ∀ a ∈ as, ∀ pre,
        a.name = declarationName (some pre) → a.value ≠ "") → (declarations as).toOption = none := by
      intro as has
      cases hscope : declarations as with
      | error cause => rfl
      | ok scope => exact absurd (declared_of_declarations hscope) has
    rw [hnone as hdeclared, hnone as' hdeclared']
    exact .none

/-- What a prefix is resolved to depends on the bindings only. -/
theorem Scope.resolve_congr {scope scope' : Scope} (h : scope.uri? = scope'.uri?) :
    scope.resolve = scope'.resolve := by
  funext pre
  unfold Scope.resolve
  rw [h]

/-- What attributes are resolved to depends on the bindings only. -/
theorem resolveAttributes_congr {scope scope' : Scope} (h : scope.uri? = scope'.uri?)
    (as : List RawAttribute) : resolveAttributes scope as = resolveAttributes scope' as := by
  have hresolve : ∀ a : RawAttribute, a.resolve scope = a.resolve scope' := by
    intro a
    unfold RawAttribute.resolve
    rw [Scope.resolve_congr h]
  induction as with
  | nil => rfl
  | cons a as ih => rw [resolveAttributes, resolveAttributes, ih, hresolve]

/-- The first two attributes change places when the attributes that are resolved do. -/
theorem rel_resolveAttributes_swap (scope : Scope) (a b : RawAttribute) (as : List RawAttribute) :
    Option.Rel List.Perm (resolveAttributes scope (b :: a :: as)).toOption
      (resolveAttributes scope (a :: b :: as)).toOption := by
  by_cases ha : bound? a.name = none
  · by_cases hb : bound? b.name = none
    · rw [toOption_resolveAttributes_cons hb, toOption_resolveAttributes_cons ha,
        toOption_resolveAttributes_cons ha, toOption_resolveAttributes_cons hb]
      cases (a.resolve scope).toOption with
      | none => cases (b.resolve scope).toOption <;> exact .none
      | some a' =>
        cases (b.resolve scope).toOption with
        | none => exact .none
        | some b' =>
          cases (resolveAttributes scope as).toOption with
          | none => exact .none
          | some bs => exact .some (.swap a' b' bs)
    · rw [resolveAttributes_cons_of_bound hb, toOption_resolveAttributes_cons ha,
        toOption_resolveAttributes_cons ha, resolveAttributes_cons_of_bound hb]
      exact rel_of_refl .refl _
  · rw [resolveAttributes_cons_of_bound ha, resolveAttributes, resolveAttributes_cons_of_bound ha,
      ← resolveAttributes]
    exact rel_of_refl .refl _

/-- Attributes are resolved to the same in another order, or refused in any order. -/
theorem rel_resolveAttributes_of_perm {scope : Scope} {as as' : List RawAttribute}
    (h : as.Perm as') :
    Option.Rel List.Perm (resolveAttributes scope as).toOption
      (resolveAttributes scope as').toOption := by
  induction h with
  | nil => exact .some .nil
  | @cons a as as' _ ih =>
    by_cases hbound : bound? a.name = none
    · rw [toOption_resolveAttributes_cons hbound, toOption_resolveAttributes_cons hbound]
      refine rel_bind (rel_refl _) fun b _ hb => ?_
      subst hb
      exact rel_map ih fun _ _ h => h.cons b
    · rw [resolveAttributes_cons_of_bound hbound, resolveAttributes_cons_of_bound hbound]
      exact ih
  | swap a b as => exact rel_resolveAttributes_swap scope a b as
  | trans _ _ ih ih' => exact rel_trans ih ih' fun _ _ _ => List.Perm.trans

/-- A tag with its attributes in another order is resolved to a similar head, with the same bindings,
or refused as it was. -/
theorem rel_resolve_sourceTag (name : SourceName) {as as' : List SourceAttribute} (h : as.Perm as')
    (hnodup : ((as.map (·.raw)).map (·.name)).Nodup) {scope scope' : Scope}
    (hscope : scope.uri? = scope'.uri?) :
    Option.Rel (fun x y => x.1.Similar y.1 ∧ x.2.uri? = y.2.uri?)
      ((sourceTag name as).resolve scope).toOption ((sourceTag name as').resolve scope').toOption := by
  have hraw : (as.map (·.raw)).Perm (as'.map (·.raw)) := h.map _
  rw [Tag.toOption_resolve (ofName?_sourceTag name as), Tag.toOption_resolve (ofName?_sourceTag name as')]
  refine rel_bind (rel_declarations_of_perm hraw hnodup) fun inner inner' hinner => ?_
  have hinside : Scope.uri? (inner ++ scope) = Scope.uri? (inner' ++ scope') := by
    funext pre
    rw [Scope.uri?_append, Scope.uri?_append, hinner, hscope]
  rw [Scope.resolve_congr hinside, resolveAttributes_congr hinside]
  refine rel_bind (rel_refl _) fun uri uri' huri => ?_
  refine rel_map (rel_resolveAttributes_of_perm hraw) fun bs bs' hbs => ?_
  exact ⟨⟨rfl, huri, hbs⟩, hinside⟩

/-! ## Trees -/

/-- A tag with its attributes in another order denotes a similar element, or nothing as it did, if its
content does in scopes with the same bindings. -/
theorem rel_denote_sourceTag (name : SourceName) {as as' : List SourceAttribute} (h : as.Perm as')
    {scope scope' : Scope} (hscope : scope.uri? = scope'.uri?) (depth : Nat)
    {content content' : Scope → Option (List Node)}
    (hcontent : ∀ inner inner' : Scope, inner.uri? = inner'.uri? →
      Option.Rel AllSimilar (content inner) (content' inner')) :
    Option.Rel Element.Similar ((sourceTag name as).denote scope depth content)
      ((sourceTag name as').denote scope' depth content') := by
  have hnodup : ((sourceTag name as).attributes.map (·.name)).Nodup ↔
      ((sourceTag name as').attributes.map (·.name)).Nodup := ((h.map _).map _).nodup_iff
  unfold Tag.denote
  simp only [hnodup]
  split
  · exact .none
  · next hfine =>
    have hnodup' := hnodup.2 (not_not.1 (not_or.1 hfine).2)
    refine rel_bind (rel_resolve_sourceTag name h hnodup' hscope) fun x y hxy => ?_
    exact rel_map (hcontent _ _ hxy.2) fun _ _ hns => ⟨hxy.1, hns⟩

mutual

/-- Nodes that differ in the order of attributes denote similar nodes, or both nothing. -/
theorem SourceNode.Reordered.rel_denote {n n' : SourceNode} (h : n.Reordered n')
    {scope scope' : Scope} (hscope : scope.uri? = scope'.uri?) (depth : Nat) :
    Option.Rel (fun add add' => ∀ ns ns', AllSimilar ns ns' → AllSimilar (add ns) (add' ns'))
      (n.denote scope depth) (n'.denote scope' depth) := by
  match h with
  | .text content => exact .some fun _ _ h => h.prependText _
  | .element has hns =>
    refine rel_map (rel_denote_sourceTag _ has hscope depth fun inner inner' hinner =>
      hns.rel_denote hinner (depth + 1)) fun e e' he ns ns' hothers => ?_
    exact .cons (.element he.head he.children) hothers

/-- Lists of nodes that differ in the order of attributes denote similar nodes, or both nothing. -/
theorem ReorderedAll.rel_denote {ns ns' : List SourceNode} (h : ReorderedAll ns ns')
    {scope scope' : Scope} (hscope : scope.uri? = scope'.uri?) (depth : Nat) :
    Option.Rel AllSimilar (denoteSources scope depth ns) (denoteSources scope' depth ns') := by
  match h with
  | .nil => exact .some .nil
  | .cons hn hns =>
    refine rel_bind (hn.rel_denote hscope depth) fun add add' hadd => ?_
    exact rel_map (hns.rel_denote hscope depth) hadd

end

/-- Elements that differ in the order of attributes denote similar documents, or both none. -/
theorem SourceElement.Reordered.rel_denote {e e' : SourceElement} (h : e.Reordered e') :
    Option.Rel Element.Similar e.denote e'.denote := by
  obtain ⟨name, as, ns⟩ := e
  obtain ⟨name', as', ns'⟩ := e'
  cases h with
  | element has hns =>
    exact rel_denote_sourceTag name has rfl 0 fun inner inner' hinner => hns.rel_denote hinner 1

end ParamClass.Xml
