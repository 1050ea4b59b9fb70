import ParamClass.Proofs.Grammar.Markup
import ParamClass.Proofs.Json.Strings

/-!
# The grammar of JSON

A JSON text is a value with spaces around it. `ValueText` is the set of the texts of a value: spaces
may stand around every element, key and value of a list or an object, a string may be spelled in
any way that `StringText` allows, and a number is its own literal. A list or an object keeps its
elements and entries in order, and an object may have a key twice.
-/

namespace ParamClass.Json

open Text
open Xml (IsSpaces)

/-- A JSON value. -/
inductive Data where
  /-- The value `null`. -/
  | null
  /-- A truth value. -/
  | bool (value : Bool)
  /-- A number, as it is written. -/
  | number (literal : String)
  /-- A string. -/
  | string (content : String)
  /-- A list. -/
  | list (elements : List Data)
  /-- An object, with its entries in order. -/
  | object (entries : List (String × Data))

/-! ## Numbers -/

/-- One digit or more. -/
def isDigits (t : List Char) : Bool := t ≠ [] && t.all Char.isDigit

/-- What follows the sign of an exponent, if there is one. -/
def skipSign : List Char → List Char
  | '+' :: t => t
  | '-' :: t => t
  | t => t

/-- An exponent, or nothing. -/
def isExponent : List Char → Bool
  | [] => true
  | c :: t => (c == 'e' || c == 'E') && isDigits (skipSign t)

/-- A fraction and an exponent, each of which may be missing. -/
def isFraction : List Char → Bool
  | '.' :: t => isDigits (t.takeWhile Char.isDigit) && isExponent (t.dropWhile Char.isDigit)
  | t => isExponent t

/-- A number without a sign: its whole part has no superfluous zero in front. -/
def isMagnitude (t : List Char) : Bool :=
  let whole := t.takeWhile Char.isDigit
  isDigits whole && (whole == ['0'] || whole.head? != some '0') && isFraction (t.dropWhile Char.isDigit)

/-- A number. -/
def isNumber : List Char → Bool
  | '-' :: t => isMagnitude t
  | t => isMagnitude t

/-- A character that a number may hold. -/
def isNumberChar (c : Char) : Bool :=
  c.isDigit || ['-', '+', '.', 'e', 'E'].contains c

/-! ## Values -/

/-- A key of an object, with spaces around it. -/
def KeyText (t : List Char) (key : String) : Prop :=
  ∃ sp s sp', IsSpaces sp ∧ IsSpaces sp' ∧ StringText s key.toList ∧
    t = sp ++ '"' :: (s ++ '"' :: sp')

mutual

/-- The text of a value. -/
inductive ValueText : List Char → Data → Prop where
  /-- The value `null`. -/
  | null : ValueText ['n', 'u', 'l', 'l'] .null
  /-- The value `true`. -/
  | yes : ValueText ['t', 'r', 'u', 'e'] (.bool true)
  /-- The value `false`. -/
  | no : ValueText ['f', 'a', 'l', 's', 'e'] (.bool false)
  /-- A number. -/
  | number {t} (ht : isNumber t = true) : ValueText t (.number (.ofList t))
  /-- A string. -/
  | string {t s} (ht : StringText t s) : ValueText ('"' :: (t ++ ['"'])) (.string (.ofList s))
  /-- A list without elements. -/
  | emptyList {sp} (hsp : IsSpaces sp) : ValueText ('[' :: (sp ++ [']'])) (.list [])
  /-- A list. -/
  | list {t vs} (ht : ElementsText t vs) : ValueText ('[' :: (t ++ [']'])) (.list vs)
  /-- An object without entries. -/
  | emptyObject {sp} (hsp : IsSpaces sp) : ValueText ('{' :: (sp ++ ['}'])) (.object [])
  /-- An object. -/
  | object {t es} (ht : EntriesText t es) : ValueText ('{' :: (t ++ ['}'])) (.object es)

/-- The text of a value with spaces around it. -/
inductive SpacedText : List Char → Data → Prop where
  /-- The spaces before it, the value and the spaces after it. -/
  | mk {sp t sp' v} (hsp : IsSpaces sp) (ht : ValueText t v) (hsp' : IsSpaces sp') :
      SpacedText (sp ++ (t ++ sp')) v

/-- The text of one element and more, with commas between them. -/
inductive ElementsText : List Char → List Data → Prop where
  /-- One element. -/
  | single {t v} (ht : SpacedText t v) : ElementsText t [v]
  /-- An element and more. -/
  | cons {t v s vs} (ht : SpacedText t v) (hs : ElementsText s vs) :
      ElementsText (t ++ ',' :: s) (v :: vs)

/-- The text of one entry and more, with commas between them. -/
inductive EntriesText : List Char → List (String × Data) → Prop where
  /-- One entry. -/
  | single {k key t v} (hk : KeyText k key) (ht : SpacedText t v) :
      EntriesText (k ++ ':' :: t) [(key, v)]
  /-- An entry and more. -/
  | cons {k key t v s es} (hk : KeyText k key) (ht : SpacedText t v) (hs : EntriesText s es) :
      EntriesText (k ++ ':' :: (t ++ ',' :: s)) ((key, v) :: es)

end

/-- A text is a JSON text of a value: nothing but spaces stands around it. -/
def DocumentText (text : String) (v : Data) : Prop := SpacedText text.toList v

/-! ## What values hold -/

/-- Digits are characters of numbers. -/
theorem all_isNumberChar_of_isDigits {t : List Char} (h : isDigits t = true) :
    t.all isNumberChar = true := by
  rw [isDigits, Bool.and_eq_true, List.all_eq_true] at h
  rw [List.all_eq_true]
  intro c hc
  rw [isNumberChar, h.2 c hc, Bool.true_or]

/-- An exponent is characters of numbers. -/
theorem all_isNumberChar_of_isExponent {t : List Char} (h : isExponent t = true) :
    t.all isNumberChar = true := by
  rcases t with _ | ⟨c, t⟩
  · rfl
  · rw [isExponent, Bool.and_eq_true, Bool.or_eq_true, beq_iff_eq, beq_iff_eq] at h
    obtain ⟨hc, hdigits⟩ := h
    have hc' : isNumberChar c = true := by rcases hc with rfl | rfl <;> decide
    have hall := all_isNumberChar_of_isDigits hdigits
    rw [List.all_cons, hc', Bool.true_and]
    unfold skipSign at hall
    split at hall
    · rw [List.all_cons, hall]
      decide
    · rw [List.all_cons, hall]
      decide
    · exact hall

/-- A fraction with its exponent is characters of numbers. -/
theorem all_isNumberChar_of_isFraction {t : List Char} (h : isFraction t = true) :
    t.all isNumberChar = true := by
  unfold isFraction at h
  split at h
  · next t =>
    rw [Bool.and_eq_true] at h
    rw [← List.takeWhile_append_dropWhile (p := Char.isDigit) (l := t), List.all_cons,
      List.all_append, all_isNumberChar_of_isDigits h.1, all_isNumberChar_of_isExponent h.2]
    rfl
  · exact all_isNumberChar_of_isExponent h

/-- A number is one character of numbers and more. -/
theorem exists_of_isNumber {t : List Char} (h : isNumber t = true) :
    t.all isNumberChar = true ∧ t ≠ [] := by
  have hmagnitude : ∀ {t : List Char}, isMagnitude t = true → t.all isNumberChar = true ∧ t ≠ [] := by
    intro t h
    rw [isMagnitude, Bool.and_eq_true, Bool.and_eq_true] at h
    obtain ⟨⟨hwhole, -⟩, hfraction⟩ := h
    constructor
    · rw [← List.takeWhile_append_dropWhile (p := Char.isDigit) (l := t), List.all_append,
        all_isNumberChar_of_isDigits hwhole, all_isNumberChar_of_isFraction hfraction]
      rfl
    · rintro rfl
      exact absurd hwhole (by decide)
  unfold isNumber at h
  split at h
  · next t =>
    rw [List.all_cons, (hmagnitude h).1]
    exact ⟨by decide, by simp⟩
  · exact hmagnitude h

/-- A character of a number is none of those that stand around values or start other ones. -/
theorem ne_of_isNumberChar {c d : Char} (hc : isNumberChar c = true)
    (hd : d ∈ ['"', '[', ']', '{', '}', 'n', 't', 'f', ' ', '\t', '\r', '\n']) : c ≠ d := by
  have hall : ['"', '[', ']', '{', '}', 'n', 't', 'f', ' ', '\t', '\r', '\n'].all
      (!isNumberChar ·) = true := by
    decide
  rintro rfl
  have hno := List.all_eq_true.1 hall c hd
  rw [hc] at hno
  exact absurd hno (by decide)

/-- A number starts with a character of numbers. -/
theorem exists_cons_of_isNumber {t : List Char} (h : isNumber t = true) :
    ∃ c r, t = c :: r ∧ isNumberChar c = true := by
  obtain ⟨hall, hne⟩ := exists_of_isNumber h
  obtain ⟨c, r, rfl⟩ := List.exists_cons_of_ne_nil hne
  rw [List.all_cons, Bool.and_eq_true] at hall
  exact ⟨c, r, rfl, hall.1⟩

/-- A character of a number is no space. -/
theorem isSpace_of_isNumberChar {c : Char} (h : isNumberChar c = true) : isSpace c = false := by
  have hspace : ∀ d ∈ [' ', '\t', '\r', '\n'], (c == d) = false := by
    intro d hd
    exact beq_eq_false_iff_ne.2 (ne_of_isNumberChar h (by revert d; simp))
  rw [isSpace, hspace ' ' (by simp), hspace '\t' (by simp), hspace '\r' (by simp),
    hspace '\n' (by simp)]
  rfl

/-- A value starts with a character that is no space and closes neither a list nor an object. -/
theorem ValueText.exists_cons {t : List Char} {v : Data} (h : ValueText t v) :
    ∃ c r, t = c :: r ∧ isSpace c = false ∧ c ≠ ']' ∧ c ≠ '}' := by
  cases h with
  | number ht =>
    obtain ⟨c, r, rfl, hc⟩ := exists_cons_of_isNumber ht
    exact ⟨c, r, rfl, isSpace_of_isNumberChar hc, ne_of_isNumberChar hc (by simp),
      ne_of_isNumberChar hc (by simp)⟩
  | _ => exact ⟨_, _, rfl, by decide, by decide, by decide⟩

end ParamClass.Json
