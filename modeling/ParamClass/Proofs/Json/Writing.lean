import ParamClass.Json.Value
import ParamClass.Proofs.Json.Decoding

/-!
# Written values are read back

A written value is a JSON text of that value in both layouts, so it is read back as it was. The two
layouts differ in nothing but spaces between tokens: `withoutSpaces` takes out the spaces that stand in
no string, and leaves the compact layout of the indented one (`Value.leaves_compact`).
-/

namespace ParamClass.Json

open Text
open Xml (IsSpaces isSpaces_nil isSpaces_space)

mutual

/-- A written value as a value of JSON. -/
def Value.data : Value → Data
  | .null => .null
  | .string content => .string content
  | .list elements => .list (dataOfElements elements)
  | .object entries => .object (dataOfEntries entries)

/-- Written elements as values of JSON. -/
def dataOfElements : List Value → List Data
  | [] => []
  | v :: vs => v.data :: dataOfElements vs

/-- Written entries as entries of JSON. -/
def dataOfEntries : List (String × Value) → List (String × Data)
  | [] => []
  | (key, v) :: es => (key, v.data) :: dataOfEntries es

end

/-! ## Written values are JSON texts -/

/-- The start of a line is spaces. -/
theorem isSpaces_newLine (depth : Nat) : IsSpaces (newLine depth).toList := by
  intro c hc
  rw [newLine, String.toList_ofList, List.mem_cons] at hc
  rcases hc with rfl | hc
  · decide
  · obtain rfl := List.eq_of_mem_replicate hc
    decide

/-- A written string is a text of it. -/
theorem valueText_writeString (s : String) : ValueText (writeString s).toList (.string s) := by
  have htext := ValueText.string (stringText_flatMap_writeChar s.toList)
  rw [String.ofList_toList] at htext
  rwa [writeString, String.toList_ofList]

/-- A written string is a text of it as a key. -/
theorem keyText_writeString {sp : List Char} (hsp : IsSpaces sp) (key : String) :
    KeyText (sp ++ (writeString key).toList) key := by
  refine ⟨sp, _, [], hsp, isSpaces_nil, stringText_flatMap_writeChar key.toList, ?_⟩
  rw [writeString, String.toList_ofList]
  rfl

/-- A value with spaces before it alone. -/
theorem ValueText.spacedText {t : List Char} {v : Data} (h : ValueText t v) {sp : List Char}
    (hsp : IsSpaces sp) : SpacedText (sp ++ t) v := by
  have hspaced := SpacedText.mk hsp h isSpaces_nil
  rwa [List.append_nil] at hspaced

/-- More spaces may follow a value. -/
theorem SpacedText.append_spaces {t : List Char} {v : Data} (h : SpacedText t v) {sp : List Char}
    (hsp : IsSpaces sp) : SpacedText (t ++ sp) v := by
  obtain ⟨hsp₁, ht, hsp₂⟩ := h
  rw [List.append_assoc, List.append_assoc]
  exact .mk hsp₁ ht fun c hc => (List.mem_append.1 hc).elim (hsp₂ c) (hsp c)

/-- More spaces may follow the last element of a list. -/
theorem ElementsText.append_spaces {t : List Char} {vs : List Data} (h : ElementsText t vs)
    {sp : List Char} (hsp : IsSpaces sp) : ElementsText (t ++ sp) vs := by
  match h with
  | .single ht => exact .single (ht.append_spaces hsp)
  | .cons ht hs =>
    rw [List.append_assoc, List.cons_append]
    exact .cons ht (hs.append_spaces hsp)

/-- More spaces may follow the last entry of an object. -/
theorem EntriesText.append_spaces {t : List Char} {es : List (String × Data)} (h : EntriesText t es)
    {sp : List Char} (hsp : IsSpaces sp) : EntriesText (t ++ sp) es := by
  match h with
  | .single hk ht =>
    rw [List.append_assoc, List.cons_append]
    exact .single hk (ht.append_spaces hsp)
  | .cons hk ht hs =>
    rw [List.append_assoc, List.cons_append, List.append_assoc, List.cons_append]
    exact .cons hk ht (hs.append_spaces hsp)

mutual

/-- A value in the compact layout is a text of it. -/
theorem Value.valueText_compact : (v : Value) → ValueText v.compact.toList v.data
  | .null => .null
  | .string content => valueText_writeString content
  | .list [] => .emptyList isSpaces_nil
  | .list (v :: vs) => by
    have hlist := ValueText.list (elementsText_compact (v :: vs) (by simp))
    simpa [Value.compact, Value.data] using hlist
  | .object [] => .emptyObject isSpaces_nil
  | .object (e :: es) => by
    have hobject := ValueText.object (entriesText_compact (e :: es) (by simp))
    simpa [Value.compact, Value.data] using hobject

/-- Elements in the compact layout are a text of them. -/
theorem elementsText_compact : (vs : List Value) → vs ≠ [] →
    ElementsText (compactElements vs).toList (dataOfElements vs)
  | [], h => absurd rfl h
  | [v], _ => .single (v.valueText_compact.spacedText isSpaces_nil)
  | v :: w :: vs, _ => by
    have hmore := elementsText_compact (w :: vs) (by simp)
    have helements := ElementsText.cons (v.valueText_compact.spacedText isSpaces_nil) hmore
    simpa [compactElements, dataOfElements] using helements

/-- Entries in the compact layout are a text of them. -/
theorem entriesText_compact : (es : List (String × Value)) → es ≠ [] →
    EntriesText (compactEntries es).toList (dataOfEntries es)
  | [], h => absurd rfl h
  | [(key, v)], _ => by
    have hentry := EntriesText.single (keyText_writeString isSpaces_nil key)
      (v.valueText_compact.spacedText isSpaces_nil)
    simpa [compactEntries, dataOfEntries] using hentry
  | (key, v) :: e :: es, _ => by
    have hmore := entriesText_compact (e :: es) (by simp)
    have hentries := EntriesText.cons (keyText_writeString isSpaces_nil key)
      (v.valueText_compact.spacedText isSpaces_nil) hmore
    simpa [compactEntries, dataOfEntries] using hentries

end

mutual

/-- A value in the indented layout is a text of it, at every depth. -/
theorem Value.valueText_indented (depth : Nat) : (v : Value) →
    ValueText (v.indented depth).toList v.data
  | .null => by
    rw [Value.indented]
    exact .null
  | .string content => by
    rw [Value.indented]
    exact valueText_writeString content
  | .list [] => by
    rw [Value.indented]
    exact .emptyList isSpaces_nil
  | .list (v :: vs) => by
    have helements := elementsText_indented (depth + 1) (v :: vs) (by simp)
    have hlist := ValueText.list (helements.append_spaces (isSpaces_newLine depth))
    simpa [Value.indented, Value.data] using hlist
  | .object [] => by
    rw [Value.indented]
    exact .emptyObject isSpaces_nil
  | .object (e :: es) => by
    have hentries := entriesText_indented (depth + 1) (e :: es) (by simp)
    have hobject := ValueText.object (hentries.append_spaces (isSpaces_newLine depth))
    simpa [Value.indented, Value.data] using hobject

/-- Elements in the indented layout are a text of them. -/
theorem elementsText_indented (depth : Nat) : (vs : List Value) → vs ≠ [] →
    ElementsText (indentedElements depth vs).toList (dataOfElements vs)
  | [], h => absurd rfl h
  | [v], _ => by
    have helement := (v.valueText_indented depth).spacedText (isSpaces_newLine depth)
    simpa [indentedElements, dataOfElements] using ElementsText.single helement
  | v :: w :: vs, _ => by
    have helement := (v.valueText_indented depth).spacedText (isSpaces_newLine depth)
    have hmore := elementsText_indented depth (w :: vs) (by simp)
    simpa [indentedElements, dataOfElements] using ElementsText.cons helement hmore

/-- Entries in the indented layout are a text of them. -/
theorem entriesText_indented (depth : Nat) : (es : List (String × Value)) → es ≠ [] →
    EntriesText (indentedEntries depth es).toList (dataOfEntries es)
  | [], h => absurd rfl h
  | [(key, v)], _ => by
    have hkey := keyText_writeString (isSpaces_newLine depth) key
    have hvalue := (v.valueText_indented depth).spacedText isSpaces_space
    simpa [indentedEntries, dataOfEntries] using EntriesText.single hkey hvalue
  | (key, v) :: e :: es, _ => by
    have hkey := keyText_writeString (isSpaces_newLine depth) key
    have hvalue := (v.valueText_indented depth).spacedText isSpaces_space
    have hmore := entriesText_indented depth (e :: es) (by simp)
    simpa [indentedEntries, dataOfEntries] using EntriesText.cons hkey hvalue hmore

end

/-- A value in the compact layout is a JSON text of it. -/
theorem Value.documentText_compact (v : Value) : DocumentText v.compact v.data :=
  v.valueText_compact.spacedText isSpaces_nil

/-- A value in the indented layout is a JSON text of it. -/
theorem Value.documentText_indented (v : Value) : DocumentText (v.indented 0) v.data :=
  (v.valueText_indented 0).spacedText isSpaces_nil

/-! ## Layouts differ in spaces -/

/-- Where a character of a JSON text stands. -/
inductive Position where
  /-- Between strings. -/
  | outside
  /-- In a string. -/
  | inString
  /-- In a string, after a backslash. -/
  | escaped

/-- The text without the spaces that stand in no string. -/
def withoutSpaces : Position → List Char → List Char
  | _, [] => []
  | .outside, c :: s =>
    if isSpace c then withoutSpaces .outside s
    else c :: withoutSpaces (if c = '"' then .inString else .outside) s
  | .inString, c :: s =>
    c :: withoutSpaces
      (if c = '"' then .outside else if c = '\\' then .escaped else .inString) s
  | .escaped, c :: s => c :: withoutSpaces .inString s

/-- Taking spaces out leaves `t'` of the part `t`, whatever follows it. -/
def Leaves (t t' : List Char) : Prop :=
  ∀ rest, withoutSpaces .outside (t ++ rest) = t' ++ withoutSpaces .outside rest

/-- Two parts leave what each of them leaves. -/
theorem Leaves.append {t t' u u' : List Char} (h : Leaves t t') (hu : Leaves u u') :
    Leaves (t ++ u) (t' ++ u') := by
  intro rest
  rw [List.append_assoc, h, hu, List.append_assoc]

/-- Spaces leave nothing. -/
theorem leaves_of_isSpaces {sp : List Char} (h : IsSpaces sp) : Leaves sp [] := by
  intro rest
  induction sp with
  | nil => rfl
  | cons c sp ih =>
    rw [IsSpaces, List.forall_mem_cons] at h
    rw [List.cons_append, withoutSpaces, if_pos h.1]
    exact ih h.2

/-- Characters that are neither spaces nor quotes stay. -/
theorem leaves_plain {t : List Char} (h : t.all fun c => !isSpace c && c != '"') : Leaves t t := by
  intro rest
  induction t with
  | nil => rfl
  | cons c t ih =>
    rw [List.all_cons, Bool.and_eq_true, Bool.and_eq_true, Bool.not_eq_true', bne_iff_ne] at h
    obtain ⟨⟨hspace, hquote⟩, ht⟩ := h
    rw [List.cons_append, withoutSpaces, hspace, if_neg (by simp), if_neg hquote, ih ht]
    rfl

/-- A digit ends neither a string nor starts an escaped character. -/
theorem UnitText.withoutSpaces_append {t : List Char} {unit : Nat} (h : UnitText t unit)
    (rest : List Char) :
    withoutSpaces .inString (t ++ rest) = t ++ withoutSpaces .inString rest := by
  have hdigit : ∀ c ∈ t, c ≠ '"' ∧ c ≠ '\\' := by
    obtain ⟨a, b, c, d, hd, -⟩ := h
    intro e he
    have hvalue : digitValue? e ∈ [some a, some b, some c, some d] := hd ▸ List.mem_map_of_mem he
    constructor
    · rintro rfl
      have hnone : digitValue? '"' = none := by decide
      simp [hnone] at hvalue
    · rintro rfl
      have hnone : digitValue? '\\' = none := by decide
      simp [hnone] at hvalue
  clear h
  induction t with
  | nil => rfl
  | cons c t ih =>
    rw [List.forall_mem_cons] at hdigit
    rw [List.cons_append, withoutSpaces, if_neg hdigit.1.1, if_neg hdigit.1.2, ih hdigit.2]
    rfl

/-- An escaped character stays as it is written, and the string goes on behind it. -/
theorem EscapeText.withoutSpaces_append {t : List Char} {c : Char} (h : EscapeText t c)
    (rest : List Char) : withoutSpaces .escaped (t ++ rest) = t ++ withoutSpaces .inString rest := by
  cases h with
  | letter => rfl
  | unit ht =>
    rw [List.cons_append, withoutSpaces, ht.withoutSpaces_append]
    rfl
  | @pair t t' n n' ht _ ht' _ =>
    have hsecond : withoutSpaces .inString ('\\' :: 'u' :: (t' ++ rest)) =
        '\\' :: 'u' :: (t' ++ withoutSpaces .inString rest) := by
      rw [withoutSpaces, if_neg (by decide), if_pos rfl, withoutSpaces, ht'.withoutSpaces_append]
    rw [List.append_assoc, List.cons_append, List.cons_append, withoutSpaces, List.cons_append,
      ht.withoutSpaces_append, hsecond]
    simp

/-- A string stays as it is written. -/
theorem StringText.withoutSpaces_append {t s : List Char} (h : StringText t s) (rest : List Char) :
    withoutSpaces .inString (t ++ '"' :: rest) = t ++ '"' :: withoutSpaces .outside rest := by
  induction h with
  | nil => rfl
  | char hquote hbackslash _ _ ih =>
    rw [List.cons_append, withoutSpaces, if_neg hquote, if_neg hbackslash, ih]
    rfl
  | escape he _ ih =>
    rw [List.cons_append, List.cons_append, List.append_assoc, withoutSpaces, if_neg (by decide),
      if_pos rfl, he.withoutSpaces_append, ih]
    simp

/-- A written string stays as it is. -/
theorem leaves_writeString (s : String) : Leaves (writeString s).toList (writeString s).toList := by
  intro rest
  have hstring := (stringText_flatMap_writeChar s.toList).withoutSpaces_append rest
  rw [writeString, String.toList_ofList, List.cons_append, List.cons_append, List.append_assoc,
    List.singleton_append, withoutSpaces, if_neg (by decide), if_pos rfl, hstring]
  simp

/-- Spaces before a part leave what the part does. -/
theorem Leaves.spaces_append {sp t t' : List Char} (hsp : IsSpaces sp) (h : Leaves t t') :
    Leaves (sp ++ t) t' := (leaves_of_isSpaces hsp).append h

/-- An entry is left with its key, the colon and what is left of its value. -/
theorem leaves_entry {sp t t' : List Char} (hsp : IsSpaces sp) (key : String) (h : Leaves t t') :
    Leaves (sp ++ ((writeString key).toList ++ ':' :: ' ' :: t))
      ((writeString key).toList ++ ':' :: t') := by
  have hcolon : Leaves [':'] [':'] := leaves_plain (by decide)
  have hvalue : Leaves (':' :: ' ' :: t) (':' :: t') := hcolon.append (h.spaces_append isSpaces_space)
  exact ((leaves_writeString key).append hvalue).spaces_append hsp

/-- What is left of a whole text. -/
theorem Leaves.withoutSpaces_eq {t t' : List Char} (h : Leaves t t') :
    withoutSpaces .outside t = t' := by
  have heq := h []
  rwa [List.append_nil, withoutSpaces, List.append_nil] at heq

mutual

/-- The compact layout is left of a value in the indented one. -/
theorem Value.leaves_compact (depth : Nat) : (v : Value) →
    Leaves (v.indented depth).toList v.compact.toList
  | .null => by
    rw [Value.indented, Value.compact]
    exact leaves_plain (by decide)
  | .string content => by
    rw [Value.indented, Value.compact]
    exact leaves_writeString content
  | .list [] => by
    rw [Value.indented, Value.compact]
    exact leaves_plain (by decide)
  | .list (v :: vs) => by
    have helements := leaves_compactElements (depth + 1) (v :: vs)
    have hlist := (leaves_plain (t := ['[']) (by decide)).append
      ((helements.append (leaves_of_isSpaces (isSpaces_newLine depth))).append
        (leaves_plain (t := [']']) (by decide)))
    simpa [Value.indented, Value.compact] using hlist
  | .object [] => by
    rw [Value.indented, Value.compact]
    exact leaves_plain (by decide)
  | .object (e :: es) => by
    have hentries := leaves_compactEntries (depth + 1) (e :: es)
    have hobject := (leaves_plain (t := ['{']) (by decide)).append
      ((hentries.append (leaves_of_isSpaces (isSpaces_newLine depth))).append
        (leaves_plain (t := ['}']) (by decide)))
    simpa [Value.indented, Value.compact] using hobject

/-- The compact layout is left of elements in the indented one. -/
theorem leaves_compactElements (depth : Nat) : (vs : List Value) →
    Leaves (indentedElements depth vs).toList (compactElements vs).toList
  | [] => by
    rw [indentedElements, compactElements]
    exact leaves_plain (by decide)
  | [v] => by
    have helement := (v.leaves_compact depth).spaces_append (isSpaces_newLine depth)
    simpa [indentedElements, compactElements] using helement
  | v :: w :: vs => by
    have helement := (v.leaves_compact depth).spaces_append (isSpaces_newLine depth)
    have helements := helement.append ((leaves_plain (t := [',']) (by decide)).append
      (leaves_compactElements depth (w :: vs)))
    simpa [indentedElements, compactElements] using helements

/-- The compact layout is left of entries in the indented one. -/
theorem leaves_compactEntries (depth : Nat) : (es : List (String × Value)) →
    Leaves (indentedEntries depth es).toList (compactEntries es).toList
  | [] => by
    rw [indentedEntries, compactEntries]
    exact leaves_plain (by decide)
  | [(key, v)] => by
    have hentry := leaves_entry (isSpaces_newLine depth) key (v.leaves_compact depth)
    simpa [indentedEntries, compactEntries] using hentry
  | (key, v) :: e :: es => by
    have hentry := leaves_entry (isSpaces_newLine depth) key (v.leaves_compact depth)
    have hentries := hentry.append ((leaves_plain (t := [',']) (by decide)).append
      (leaves_compactEntries depth (e :: es)))
    simpa [indentedEntries, compactEntries] using hentries

end

end ParamClass.Json
