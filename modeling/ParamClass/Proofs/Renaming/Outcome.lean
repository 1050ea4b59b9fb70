import Mathlib.Data.Option.Basic
import ParamClass.Except
import ParamClass.Proofs.Grammar.Naming

/-!
# Outcomes without their faults

A fault names what it was found at, so it is not the same after prefixes are replaced or attributes
are put into another order. What is compared is whether there is a fault, and the value if there is
none: an `Except` as an `Option`. A tag is resolved here in this view, step by step, and two outcomes
are compared with `Option.Rel`.
-/

namespace ParamClass.Xml

/-! ## Outcomes that are related -/

/-- What is related stays so under maps that keep the relation. -/
theorem rel_map {α β α' β' : Type} {r : α → β → Prop} {r' : α' → β' → Prop} {x : Option α}
    {y : Option β} {g : α → α'} {g' : β → β'} (h : Option.Rel r x y)
    (hg : ∀ a b, r a b → r' (g a) (g' b)) : Option.Rel r' (x.map g) (y.map g') := by
  cases h with
  | some h => exact .some (hg _ _ h)
  | none => exact .none

/-- What is related stays so when it goes on to something related. -/
theorem rel_bind {α β α' β' : Type} {r : α → β → Prop} {r' : α' → β' → Prop} {x : Option α}
    {y : Option β} {g : α → Option α'} {g' : β → Option β'} (h : Option.Rel r x y)
    (hg : ∀ a b, r a b → Option.Rel r' (g a) (g' b)) : Option.Rel r' (x.bind g) (y.bind g') := by
  cases h with
  | some h => exact hg _ _ h
  | none => exact .none

/-- What is related stays so when it is replaced, where there is nothing, by what is related. -/
theorem rel_or {α β : Type} {r : α → β → Prop} {x x' : Option α} {y y' : Option β}
    (h : Option.Rel r x y) (h' : Option.Rel r x' y') : Option.Rel r (x.or x') (y.or y') := by
  cases h with
  | some h => exact .some h
  | none => exact h'

/-- Related results are related across a third one. -/
theorem rel_trans {α : Type} {r : α → α → Prop} {x y z : Option α} (h : Option.Rel r x y)
    (h' : Option.Rel r y z) (htrans : ∀ a b c, r a b → r b c → r a c) : Option.Rel r x z := by
  cases h with
  | none => exact h'
  | some hab =>
    cases h' with
    | some hbc => exact .some (htrans _ _ _ hab hbc)

/-- Results that are related by equality are equal. -/
theorem eq_of_rel {α : Type} {x y : Option α} (h : Option.Rel (· = ·) x y) : x = y := by
  cases h with
  | some h => rw [h]
  | none => rfl

/-- A result is related to itself where all values are. -/
theorem rel_of_refl {α : Type} {r : α → α → Prop} (hr : ∀ a, r a a) (x : Option α) :
    Option.Rel r x x := by
  cases x with
  | some a => exact .some (hr a)
  | none => exact .none

/-- Every result equals itself. -/
theorem rel_refl {α : Type} (x : Option α) : Option.Rel (· = ·) x x := rel_of_refl (fun _ => rfl) x

/-! ## Tags -/

/-- What stands for nothing in one scope may stand for something in the scope around it. -/
theorem Scope.uri?_append (inner outer : Scope) (p : Option String) :
    Scope.uri? (inner ++ outer) p = (inner.uri? p).or (outer.uri? p) := by
  rw [Scope.uri?, List.find?_append, Option.map_or]
  rfl

/-- An attribute that declares nothing leaves the declarations to the others. -/
theorem declarations_cons_of_none {a : RawAttribute} (h : bound? a.name = none)
    (as : List RawAttribute) : declarations (a :: as) = declarations as := by
  rw [declarations, h]

/-- An attribute that gives a prefix a URI declares it before what the others declare. -/
theorem toOption_declarations_cons {a : RawAttribute} {pre : Option String}
    (h : bound? a.name = some pre) (hvalue : pre.isSome → a.value ≠ "") (as : List RawAttribute) :
    (declarations (a :: as)).toOption = (declarations as).toOption.map (⟨pre, a.value⟩ :: ·) := by
  rw [declarations, h]
  dsimp only
  split
  · next hempty => exact absurd hempty (hvalue rfl)
  · cases declarations as <;> rfl

/-- An attribute that gives a prefix nothing is refused. -/
theorem toOption_declarations_cons_empty {a : RawAttribute} {pre : String}
    (h : bound? a.name = some (some pre)) (hvalue : a.value = "") (as : List RawAttribute) :
    (declarations (a :: as)).toOption = none := by
  rw [declarations, h]
  dsimp only
  rw [hvalue]
  rfl

/-- A declaration is left out of the attributes. -/
theorem resolveAttributes_cons_of_bound {scope : Scope} {a : RawAttribute}
    (h : bound? a.name ≠ none) (as : List RawAttribute) :
    resolveAttributes scope (a :: as) = resolveAttributes scope as := by
  rw [resolveAttributes, if_pos (Option.isSome_iff_ne_none.2 h)]

/-- Another attribute is resolved before those after it. -/
theorem toOption_resolveAttributes_cons {scope : Scope} {a : RawAttribute}
    (h : bound? a.name = none) (as : List RawAttribute) :
    (resolveAttributes scope (a :: as)).toOption =
      (a.resolve scope).toOption.bind fun b => (resolveAttributes scope as).toOption.map (b :: ·) := by
  rw [resolveAttributes, h, if_neg (by simp)]
  cases a.resolve scope with
  | error cause => rfl
  | ok b => cases resolveAttributes scope as <;> rfl

/-- An attribute with a prefix is resolved as its prefix is. -/
theorem toOption_resolve_prefixed {scope : Scope} {a : RawAttribute} {pre base : String}
    (h : QName.ofName? a.name = some ⟨some pre, base⟩) :
    (a.resolve scope).toOption = (scope.resolve (some pre)).toOption.map (⟨base, ·, a.value⟩) := by
  rw [RawAttribute.resolve, h]
  dsimp only
  cases scope.resolve (some pre) <;> rfl

/-- A tag is resolved in four steps, and each of them may fail. -/
theorem Tag.toOption_resolve {tag : Tag} {name : QName} (h : QName.ofName? tag.name = some name)
    (outer : Scope) :
    (tag.resolve outer).toOption =
      (declarations tag.attributes).toOption.bind fun inner =>
        ((inner ++ outer).resolve name.pre).toOption.bind fun uri =>
          (resolveAttributes (inner ++ outer) tag.attributes).toOption.map fun attributes =>
            (⟨name.base, uri, attributes⟩, inner ++ outer) := by
  rw [Tag.resolve]
  cases declarations tag.attributes with
  | error cause => rfl
  | ok inner =>
    dsimp only
    rw [h]
    dsimp only
    rw [Except.toOption, Option.bind_some]
    cases (inner ++ outer).resolve name.pre with
    | error cause => rfl
    | ok uri =>
      dsimp only
      rw [Except.toOption, Option.bind_some]
      cases resolveAttributes (inner ++ outer) tag.attributes <;> rfl

end ParamClass.Xml
