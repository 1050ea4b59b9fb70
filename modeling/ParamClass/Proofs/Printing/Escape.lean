import ParamClass.Proofs.Grammar.Content

/-!
# Escaped text

A character that would not be read as itself is written as a reference, which ones depending on the
place: between the quotes of a value, or in content. Any reference to the character will do, so the
choice is left to a `Spelling`. A value escaped in this way is read as it was (`valueText_escape`),
and so is a text in front of any content in which no `>` ends a `]]` of the text
(`writesText_escape`).
-/

namespace ParamClass.Xml

open Text

/-! ## References -/

/-- The characters that are written as references somewhere. -/
def specialChars : List Char := ['&', '<', '>', '"', '\t', '\n', '\r']

/-- The characters that are written as references in a value between double quotes. -/
def valueSpecials : List Char := ['&', '<', '"', '\t', '\n', '\r']

/-- The characters that are written as references in content. -/
def textSpecials : List Char := ['&', '<', '>', '\r']

/-- What is special in a value is special. -/
theorem valueSpecials_subset : valueSpecials ⊆ specialChars := by
  have hsublist : valueSpecials.Sublist specialChars := by decide
  exact hsublist.subset

/-- What is special in content is special. -/
theorem textSpecials_subset : textSpecials ⊆ specialChars := by
  have hsublist : textSpecials.Sublist specialChars := by decide
  exact hsublist.subset

/-- A reference for each character that is written as one. -/
structure Spelling where
  /-- What stands between the `&` and the `;`. -/
  name : Char → List Char
  /-- The reference ends at its `;`. -/
  ends : ∀ c ∈ specialChars, ';' ∉ name c
  /-- It refers to the character. -/
  refers : ∀ c ∈ specialChars, ReferenceName (name c) c

/-- Names where there are names, and code points for spaces. -/
def Spelling.named : Spelling where
  name
    | '&' => ['a', 'm', 'p']
    | '<' => ['l', 't']
    | '>' => ['g', 't']
    | '"' => ['q', 'u', 'o', 't']
    | '\t' => ['#', '9']
    | '\n' => ['#', 'x', 'A']
    | _ => ['#', '1', '3']
  ends := by simp [specialChars]
  refers := by
    intro c hc
    apply referenceName_of_decodeReference
    revert c
    simp only [specialChars, List.forall_mem_cons]
    exact ⟨rfl, rfl, rfl, rfl, rfl, rfl, rfl, List.forall_mem_nil _⟩

/-- The reference that is written for a character. -/
def Spelling.reference (spelling : Spelling) (c : Char) : List Char :=
  '&' :: spelling.name c ++ [';']

/-- A special character is written as a reference to it. -/
theorem Spelling.referenceText (spelling : Spelling) {c : Char} (h : c ∈ specialChars) :
    ReferenceText (spelling.reference c) c :=
  ⟨spelling.name c, spelling.ends c h, spelling.refers c h, rfl⟩

/-! ## Escaping -/

/-- A text with its special characters written as references. -/
def escape (spelling : Spelling) (specials s : List Char) : List Char :=
  s.flatMap fun c => if c ∈ specials then spelling.reference c else [c]

/-- A special character is escaped first. -/
theorem escape_cons_of_mem (spelling : Spelling) {specials : List Char} {c : Char} (h : c ∈ specials)
    (s : List Char) :
    escape spelling specials (c :: s) = spelling.reference c ++ escape spelling specials s := by
  rw [escape, List.flatMap_cons, if_pos h]
  rfl

/-- Another character stays in front. -/
theorem escape_cons_of_not_mem (spelling : Spelling) {specials : List Char} {c : Char}
    (h : c ∉ specials) (s : List Char) :
    escape spelling specials (c :: s) = c :: escape spelling specials s := by
  rw [escape, List.flatMap_cons, if_neg h]
  rfl

/-- Where CR is special, none is left. -/
theorem cr_not_mem_escape (spelling : Spelling) {specials : List Char} (hcr : '\r' ∈ specials)
    (hspecial : specials ⊆ specialChars) (s : List Char) :
    '\r' ∉ escape spelling specials s := by
  induction s with
  | nil => exact List.not_mem_nil
  | cons c s ih =>
    by_cases hc : c ∈ specials
    · rw [escape_cons_of_mem spelling hc, List.mem_append, not_or]
      exact ⟨(spelling.referenceText (hspecial hc)).not_mem (.inr rfl), ih⟩
    · rw [escape_cons_of_not_mem spelling hc, List.mem_cons, not_or]
      exact ⟨fun heq => hc (heq ▸ hcr), ih⟩

/-- An escaped value is read as it was. -/
theorem valueText_escape (spelling : Spelling) (v : List Char) :
    ValueText '"' (escape spelling valueSpecials v) v := by
  induction v with
  | nil => exact .nil
  | cons c v ih =>
    by_cases hc : c ∈ valueSpecials
    · rw [escape_cons_of_mem spelling hc]
      exact .reference (spelling.referenceText (valueSpecials_subset hc)) ih
    · rw [escape_cons_of_not_mem spelling hc]
      simp only [valueSpecials, List.mem_cons, List.not_mem_nil, or_false, not_or] at hc
      obtain ⟨hamp, hlt, hquot, htab, hlf, -⟩ := hc
      have hchar := ValueText.char hquot hlt hamp ih
      rwa [if_neg (not_or.2 ⟨htab, hlf⟩)] at hchar

/-! ## Text in content -/

/-- A `>` does not come first, nor first after a number of `]`. So no `]]` in front ends character
data. -/
def Guarded (s : List Char) : Prop := Stops (· == '>') (s.dropWhile (· == ']'))

/-- A text that starts with something else is guarded. -/
theorem guarded_cons {c : Char} (hbracket : c ≠ ']') (hgt : c ≠ '>') (s : List Char) :
    Guarded (c :: s) := by
  rw [Guarded, List.dropWhile_cons_of_neg (by simpa using hbracket), stops_cons]
  simpa using hgt

/-- Nothing is guarded. -/
theorem guarded_nil : Guarded [] := stops_nil

/-- Another character in front of a guarded text leaves it guarded. -/
theorem Guarded.cons {c : Char} {s : List Char} (h : Guarded s) (hgt : c ≠ '>') : Guarded (c :: s) := by
  by_cases hbracket : c = ']'
  · rwa [Guarded, List.dropWhile_cons_of_pos (by simpa using hbracket)]
  · exact guarded_cons hbracket hgt s

/-- A guarded text does not start with the end of character data. -/
theorem Guarded.not_cdataEnd {s : List Char} (h : Guarded s) : ¬ cdataEnd <+: s := by
  rintro ⟨rest, rfl⟩
  have hstop : Stops (· == '>') ('>' :: rest) := h
  rw [stops_cons] at hstop
  exact absurd hstop (by decide)

/-- In front of any content that is guarded, `t` is read as `text` before the nodes of the content,
and the whole is guarded again. -/
def WritesText (t text : List Char) : Prop :=
  ∀ (bindings : Bindings) (s : List Char) (nodes : List Node), ContentText bindings s nodes →
    Guarded s → ContentText bindings (t ++ s) (prependText text nodes) ∧ Guarded (t ++ s)

/-- A text in front of a text joins it. -/
theorem prependText_append (s t : List Char) (nodes : List Node) :
    prependText (s ++ t) nodes = prependText s (prependText t nodes) := by
  -- In front of nodes that start with no text, a text is a node of its own.
  have hfresh : (∀ u, prependText u nodes = if u = [] then nodes else .text (.ofList u) :: nodes) →
      prependText (s ++ t) nodes = prependText s (prependText t nodes) := by
    intro h
    by_cases ht : t = []
    · rw [ht, List.append_nil, h [], if_pos rfl]
    · rw [h t, if_neg ht, h, if_neg (by simp [ht]), prependText, String.ofList_append]
  rcases nodes with _ | ⟨_ | content, nodes⟩
  · exact hfresh fun _ => rfl
  · exact hfresh fun _ => rfl
  · rw [prependText, prependText, prependText, String.ofList_append, String.append_assoc]

/-- No text in front changes nothing. -/
theorem prependText_nil (nodes : List Node) : prependText [] nodes = nodes := by
  rcases nodes with _ | ⟨_ | content, nodes⟩
  · rfl
  · rfl
  · rw [prependText, String.ofList_nil, String.empty_append]

/-- Nothing writes no text. -/
theorem writesText_nil : WritesText [] [] := by
  intro bindings s nodes hs hguarded
  rw [prependText_nil]
  exact ⟨hs, hguarded⟩

/-- Two texts are written one after the other. -/
theorem WritesText.append {t u text text' : List Char} (h : WritesText t text)
    (h' : WritesText u text') : WritesText (t ++ u) (text ++ text') := by
  intro bindings s nodes hs hguarded
  obtain ⟨hinner, hguarded⟩ := h' bindings s nodes hs hguarded
  rw [List.append_assoc, prependText_append]
  exact h _ _ _ hinner hguarded

/-- A plain character is written as it is. -/
theorem writesText_char {c : Char} (h : c ∉ textSpecials) : WritesText [c] [c] := by
  simp only [textSpecials, List.mem_cons, List.not_mem_nil, or_false, not_or] at h
  obtain ⟨hamp, hlt, hgt, -⟩ := h
  intro bindings s nodes hs hguarded
  have hguarded' : Guarded (c :: s) := hguarded.cons hgt
  exact ⟨.char hlt hamp hguarded'.not_cdataEnd hs, hguarded'⟩

/-- A character is written by a reference to it. -/
theorem ReferenceText.writesText {t : List Char} {c : Char} (h : ReferenceText t c) :
    WritesText t [c] := by
  intro bindings s nodes hs hguarded
  obtain ⟨r, rfl⟩ := h.exists_eq
  exact ⟨.reference h hs, guarded_cons (by decide) (by decide) (r ++ s)⟩

/-- A section of character data writes the text in it. -/
theorem writesText_cdata {text : List Char} (h : ¬ cdataEnd <:+: text) :
    WritesText (cdataMark ++ text ++ cdataEnd) text := by
  intro bindings s nodes hs hguarded
  exact ⟨.cdata h hs, guarded_cons (by decide) (by decide) _⟩

/-- A comment writes no text. -/
theorem CommentText.writesText {t : List Char} (h : CommentText t) : WritesText t [] := by
  intro bindings s nodes hs hguarded
  rw [prependText_nil]
  obtain ⟨r, rfl⟩ := h.exists_eq
  exact ⟨.comment h hs, guarded_cons (by decide) (by decide) _⟩

/-- An escaped text is read as it was. -/
theorem writesText_escape (spelling : Spelling) (text : List Char) :
    WritesText (escape spelling textSpecials text) text := by
  induction text with
  | nil => exact writesText_nil
  | cons c text ih =>
    by_cases hc : c ∈ textSpecials
    · rw [escape_cons_of_mem spelling hc]
      exact (spelling.referenceText (textSpecials_subset hc)).writesText.append ih
    · rw [escape_cons_of_not_mem spelling hc]
      exact (writesText_char hc).append ih

end ParamClass.Xml
