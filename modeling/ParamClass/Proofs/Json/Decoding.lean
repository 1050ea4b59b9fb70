import ParamClass.Proofs.Json.Grammar

/-!
# A reader for all of JSON

`decode` reads a JSON text, in at most as many steps as are needed for its length. It succeeds
exactly on the texts of the grammar, with the value that the text is one of (`decode_eq_some_iff`), so
no text is one of two values.
-/

namespace ParamClass.Json

open Text
open Xml (IsSpaces exists_spaces skipSpace_eq_nil skipSpace_spaces_cons)

/-- Reads a key and the colon after it. -/
def decodeKey (s : List Char) : Option (String × List Char) :=
  match after? ['"'] (skipSpace s) with
  | none => none
  | some r =>
    match readString r with
    | .error _ => none
    | .ok (key, r) => (after? [':'] (skipSpace r)).map (.ofList key, ·)

mutual

/-- Reads a value after spaces. -/
def decodeValue : Nat → List Char → Option (Data × List Char)
  | 0, _ => none
  | steps + 1, s =>
    match skipSpace s with
    | 'n' :: r => (after? ['u', 'l', 'l'] r).map (.null, ·)
    | 't' :: r => (after? ['r', 'u', 'e'] r).map (.bool true, ·)
    | 'f' :: r => (after? ['a', 'l', 's', 'e'] r).map (.bool false, ·)
    | '"' :: r => (readString r).toOption.map fun (content, rest) => (.string (.ofList content), rest)
    | '[' :: r =>
      match skipSpace r with
      | ']' :: rest => some (.list [], rest)
      | _ => (decodeElements steps r).map fun (vs, rest) => (.list vs, rest)
    | '{' :: r =>
      match skipSpace r with
      | '}' :: rest => some (.object [], rest)
      | _ => (decodeEntries steps r).map fun (es, rest) => (.object es, rest)
    | r =>
      let literal := r.takeWhile isNumberChar
      if isNumber literal then some (.number (.ofList literal), r.dropWhile isNumberChar) else none

/-- Reads the elements of a list and its end. -/
def decodeElements : Nat → List Char → Option (List Data × List Char)
  | 0, _ => none
  | steps + 1, s =>
    match decodeValue steps s with
    | none => none
    | some (v, r) =>
      match skipSpace r with
      | ']' :: rest => some ([v], rest)
      | ',' :: r => (decodeElements steps r).map fun (vs, rest) => (v :: vs, rest)
      | _ => none

/-- Reads the entries of an object and its end. -/
def decodeEntries : Nat → List Char → Option (List (String × Data) × List Char)
  | 0, _ => none
  | steps + 1, s =>
    match decodeKey s with
    | none => none
    | some (key, r) =>
      match decodeValue steps r with
      | none => none
      | some (v, r) =>
        match skipSpace r with
        | '}' :: rest => some ([(key, v)], rest)
        | ',' :: r => (decodeEntries steps r).map fun (es, rest) => ((key, v) :: es, rest)
        | _ => none

end

/-- The value that a JSON text is one of. -/
def decode (text : String) : Option Data := do
  -- A value may be behind a bracket in a list, so there are two steps for each character.
  let (v, rest) ← decodeValue (2 * text.toList.length) text.toList
  if skipSpace rest = [] then some v else none

/-! ## Every text of the grammar is read -/

/-- Spaces, and after them a text that goes on with no number, go on with no number. -/
theorem stops_isNumberChar {sp rest : List Char} (hsp : IsSpaces sp) (hrest : Stops isNumberChar rest) :
    Stops isNumberChar (sp ++ rest) := by
  rw [stops_append hrest]
  intro c hc
  rw [Bool.eq_false_iff]
  intro hnumber
  exact absurd (hsp c (List.mem_of_head? hc)) (by rw [isSpace_of_isNumberChar hnumber]; simp)

/-- A quote starts a string. -/
theorem decodeValue_string {s r : List Char} (hskip : skipSpace s = '"' :: r) (steps : Nat) :
    decodeValue (steps + 1) s =
      (readString r).toOption.map fun (content, rest) => (.string (.ofList content), rest) := by
  rw [decodeValue, hskip]
  rfl

/-- A square bracket starts a list, which may end at once. -/
theorem decodeValue_list {s r : List Char} (hskip : skipSpace s = '[' :: r) (steps : Nat) :
    decodeValue (steps + 1) s =
      match skipSpace r with
      | ']' :: rest => some (.list [], rest)
      | _ => (decodeElements steps r).map fun (vs, rest) => (.list vs, rest) := by
  rw [decodeValue, hskip]
  rfl

/-- A brace starts an object, which may end at once. -/
theorem decodeValue_object {s r : List Char} (hskip : skipSpace s = '{' :: r) (steps : Nat) :
    decodeValue (steps + 1) s =
      match skipSpace r with
      | '}' :: rest => some (.object [], rest)
      | _ => (decodeEntries steps r).map fun (es, rest) => (.object es, rest) := by
  rw [decodeValue, hskip]
  rfl

/-- Reading goes past a number. -/
theorem decodeValue_number {s t : List Char} (ht : isNumber t = true) {rest : List Char}
    (hrest : Stops isNumberChar rest) (hskip : skipSpace s = t ++ rest) (steps : Nat) :
    decodeValue (steps + 1) s = some (.number (.ofList t), rest) := by
  obtain ⟨htake, hdrop⟩ :=
    takeWhile_dropWhile_eq_iff.2 ⟨rfl, List.all_eq_true.1 (exists_of_isNumber ht).1, hrest⟩
  obtain ⟨c, r, rfl, hc⟩ := exists_cons_of_isNumber ht
  rw [decodeValue, hskip]
  split
  · next heq => exact absurd (List.cons.inj heq).1 (ne_of_isNumberChar hc (by simp))
  · next heq => exact absurd (List.cons.inj heq).1 (ne_of_isNumberChar hc (by simp))
  · next heq => exact absurd (List.cons.inj heq).1 (ne_of_isNumberChar hc (by simp))
  · next heq => exact absurd (List.cons.inj heq).1 (ne_of_isNumberChar hc (by simp))
  · next heq => exact absurd (List.cons.inj heq).1 (ne_of_isNumberChar hc (by simp))
  · next heq => exact absurd (List.cons.inj heq).1 (ne_of_isNumberChar hc (by simp))
  · rw [htake, hdrop]
    exact if_pos ht

/-- Where a value starts, the list that holds it does not end. -/
theorem SpacedText.exists_skipSpace {t : List Char} {v : Data} (h : SpacedText t v)
    (rest : List Char) : ∃ c r, skipSpace (t ++ rest) = c :: r ∧ c ≠ ']' := by
  obtain ⟨hsp, ht, -⟩ := h
  obtain ⟨c, r, rfl, hspace, hbracket, -⟩ := ht.exists_cons
  rw [List.append_assoc]
  exact ⟨c, _, skipSpace_spaces_cons hsp hspace _, hbracket⟩

/-- Where the first element of a list starts, the list does not end. -/
theorem ElementsText.exists_skipSpace {t : List Char} {vs : List Data} (h : ElementsText t vs)
    (rest : List Char) : ∃ c r, skipSpace (t ++ rest) = c :: r ∧ c ≠ ']' := by
  cases h with
  | single ht => exact ht.exists_skipSpace rest
  | cons ht =>
    rw [List.append_assoc]
    exact ht.exists_skipSpace _

/-- After the spaces before a key its string follows. -/
theorem KeyText.exists_skipSpace {k : List Char} {key : String} (h : KeyText k key)
    (rest : List Char) :
    ∃ s sp, StringText s key.toList ∧ IsSpaces sp ∧
      skipSpace (k ++ rest) = '"' :: (s ++ '"' :: (sp ++ rest)) := by
  obtain ⟨sp, s, sp', hsp, hsp', hs, rfl⟩ := h
  refine ⟨s, sp', hs, hsp', ?_⟩
  have hskip := skipSpace_spaces_cons hsp (c := '"') (by decide) (s ++ '"' :: (sp' ++ rest))
  simpa using hskip

/-- Where the first entry of an object starts, the object does not end. -/
theorem EntriesText.exists_skipSpace {t : List Char} {es : List (String × Data)}
    (h : EntriesText t es) (rest : List Char) : ∃ r, skipSpace (t ++ rest) = '"' :: r := by
  cases h with
  | single hk =>
    rw [List.append_assoc]
    obtain ⟨s, sp, -, -, heq⟩ := hk.exists_skipSpace _
    exact ⟨_, heq⟩
  | cons hk =>
    rw [List.append_assoc]
    obtain ⟨s, sp, -, -, heq⟩ := hk.exists_skipSpace _
    exact ⟨_, heq⟩

/-- Reading goes past a key and the colon after it. -/
theorem KeyText.decodeKey_append {k : List Char} {key : String} (h : KeyText k key)
    (rest : List Char) : decodeKey (k ++ ':' :: rest) = some (key, rest) := by
  obtain ⟨s, sp, hs, hsp, hskip⟩ := h.exists_skipSpace (':' :: rest)
  have hquote : after? ['"'] (skipSpace (k ++ ':' :: rest)) = some (s ++ '"' :: (sp ++ ':' :: rest)) :=
    after?_eq_some.2 hskip
  have hcolon : after? [':'] (skipSpace (sp ++ ':' :: rest)) = some rest :=
    after?_eq_some.2 (skipSpace_spaces_cons hsp (by decide) rest)
  rw [decodeKey, hquote]
  dsimp only
  rw [readString_eq_ok_iff.2 ⟨s, hs, rfl⟩]
  dsimp only
  rw [hcolon, Option.map_some, String.ofList_toList]

mutual

/-- Reading goes past a value with spaces before it. -/
theorem ValueText.decodeValue_append {t : List Char} {v : Data} (h : ValueText t v) {sp : List Char}
    (hsp : IsSpaces sp) {steps : Nat} (hsteps : 2 * t.length ≤ steps) {rest : List Char}
    (hrest : Stops isNumberChar rest) : decodeValue steps (sp ++ (t ++ rest)) = some (v, rest) := by
  obtain ⟨c, r, hcr, hspace, -, -⟩ := h.exists_cons
  have hskip : skipSpace (sp ++ (t ++ rest)) = t ++ rest := by
    rw [hcr]
    exact skipSpace_spaces_cons hsp hspace _
  obtain ⟨steps, rfl⟩ : ∃ n, steps = n + 1 := by
    rw [hcr, List.length_cons] at hsteps
    exact ⟨steps - 1, by omega⟩
  generalize sp ++ (t ++ rest) = w at hskip ⊢
  match h with
  | .null => rw [decodeValue, hskip]; rfl
  | .yes => rw [decodeValue, hskip]; rfl
  | .no => rw [decodeValue, hskip]; rfl
  | .number ht => exact decodeValue_number ht hrest hskip steps
  | .string ht =>
    rw [List.cons_append, List.append_assoc, List.singleton_append] at hskip
    rw [decodeValue_string hskip, readString_eq_ok_iff.2 ⟨_, ht, rfl⟩]
    rfl
  | .emptyList hsp' =>
    rw [List.cons_append, List.append_assoc, List.singleton_append] at hskip
    rw [decodeValue_list hskip, skipSpace_spaces_cons hsp' (by decide)]
    rfl
  | .list ht =>
    rw [List.cons_append, List.append_assoc, List.singleton_append] at hskip
    obtain ⟨d, r', hd, hne⟩ := ht.exists_skipSpace (']' :: rest)
    rw [decodeValue_list hskip, hd]
    split
    · next heq => exact absurd (List.cons.inj heq).1 hne
    · rw [ht.decodeElements_append (by simp at hsteps; omega)]
      rfl
  | .emptyObject hsp' =>
    rw [List.cons_append, List.append_assoc, List.singleton_append] at hskip
    rw [decodeValue_object hskip, skipSpace_spaces_cons hsp' (by decide)]
    rfl
  | .object ht =>
    rw [List.cons_append, List.append_assoc, List.singleton_append] at hskip
    obtain ⟨r', hr'⟩ := ht.exists_skipSpace ('}' :: rest)
    rw [decodeValue_object hskip, hr']
    show (decodeEntries steps _).map _ = _
    rw [ht.decodeEntries_append (by simp at hsteps; omega)]
    rfl

/-- Reading goes past a value and the spaces before it, up to those after it. -/
theorem SpacedText.decodeValue_append {t : List Char} {v : Data} (h : SpacedText t v) {steps : Nat}
    (hsteps : 2 * t.length ≤ steps) {rest : List Char} (hrest : Stops isNumberChar rest) :
    ∃ sp, IsSpaces sp ∧ decodeValue steps (t ++ rest) = some (v, sp ++ rest) := by
  match h with
  | @SpacedText.mk sp t sp' _ hsp ht hsp' =>
    refine ⟨sp', hsp', ?_⟩
    rw [List.append_assoc, List.append_assoc]
    refine ht.decodeValue_append hsp ?_ (stops_isNumberChar hsp' hrest)
    simp only [List.length_append] at hsteps
    omega

/-- Reading goes past the elements of a list and its end. -/
theorem ElementsText.decodeElements_append {t : List Char} {vs : List Data} (h : ElementsText t vs)
    {steps : Nat} (hsteps : 2 * t.length + 1 ≤ steps) (rest : List Char) :
    decodeElements steps (t ++ ']' :: rest) = some (vs, rest) := by
  obtain ⟨steps, rfl⟩ : ∃ n, steps = n + 1 := ⟨steps - 1, by omega⟩
  match h with
  | .single ht =>
    have hlength : 2 * t.length ≤ steps := by omega
    have hstop : Stops isNumberChar (']' :: rest) := stops_cons.2 (by decide)
    obtain ⟨sp, hsp, hread⟩ := ht.decodeValue_append hlength hstop
    rw [decodeElements, hread]
    dsimp only
    rw [skipSpace_spaces_cons hsp (by decide)]
    rfl
  | @ElementsText.cons t v s vs ht hs =>
    rw [List.length_append, List.length_cons] at hsteps
    have hlength : 2 * t.length ≤ steps := by omega
    have hstop : Stops isNumberChar (',' :: (s ++ ']' :: rest)) := stops_cons.2 (by decide)
    obtain ⟨sp, hsp, hread⟩ := ht.decodeValue_append hlength hstop
    rw [List.append_assoc, decodeElements, List.cons_append, hread]
    dsimp only
    rw [skipSpace_spaces_cons hsp (by decide)]
    show (decodeElements steps _).map _ = _
    rw [hs.decodeElements_append (by omega)]
    rfl

/-- Reading goes past the entries of an object and its end. -/
theorem EntriesText.decodeEntries_append {t : List Char} {es : List (String × Data)}
    (h : EntriesText t es) {steps : Nat} (hsteps : 2 * t.length + 1 ≤ steps) (rest : List Char) :
    decodeEntries steps (t ++ '}' :: rest) = some (es, rest) := by
  obtain ⟨steps, rfl⟩ : ∃ n, steps = n + 1 := ⟨steps - 1, by omega⟩
  match h with
  | @EntriesText.single k key t v hk ht =>
    rw [List.length_append, List.length_cons] at hsteps
    have hlength : 2 * t.length ≤ steps := by omega
    have hstop : Stops isNumberChar ('}' :: rest) := stops_cons.2 (by decide)
    obtain ⟨sp, hsp, hread⟩ := ht.decodeValue_append hlength hstop
    rw [List.append_assoc, List.cons_append, decodeEntries, hk.decodeKey_append]
    dsimp only
    rw [hread]
    dsimp only
    rw [skipSpace_spaces_cons hsp (by decide)]
    rfl
  | @EntriesText.cons k key t v s es hk ht hs =>
    rw [List.length_append, List.length_cons, List.length_append, List.length_cons] at hsteps
    have hlength : 2 * t.length ≤ steps := by omega
    have hstop : Stops isNumberChar (',' :: (s ++ '}' :: rest)) := stops_cons.2 (by decide)
    obtain ⟨sp, hsp, hread⟩ := ht.decodeValue_append hlength hstop
    rw [List.append_assoc, List.cons_append, List.append_assoc, List.cons_append, decodeEntries,
      hk.decodeKey_append]
    dsimp only
    rw [hread]
    dsimp only
    rw [skipSpace_spaces_cons hsp (by decide)]
    show (decodeEntries steps _).map _ = _
    rw [hs.decodeEntries_append (by omega)]
    rfl

end

/-! ## Only texts of the grammar are read -/

/-- A key that is read is one of the grammar, with a colon after it. -/
theorem exists_keyText {s rest : List Char} {key : String} (h : decodeKey s = some (key, rest)) :
    ∃ k, KeyText k key ∧ s = k ++ ':' :: rest := by
  unfold decodeKey at h
  split at h
  · exact absurd h (by simp)
  · next r hquote =>
    split at h
    · exact absurd h (by simp)
    · next content r' hread =>
      obtain ⟨rest', hcolon, heq⟩ := Option.map_eq_some_iff.1 h
      obtain ⟨rfl, rfl⟩ := Prod.mk.inj heq
      obtain ⟨sp, hsp, -, hs⟩ := exists_spaces s
      obtain ⟨t, ht, rfl⟩ := readString_eq_ok_iff.1 hread
      obtain ⟨sp', hsp', -, hr'⟩ := exists_spaces r'
      refine ⟨_, ⟨sp, t, sp', hsp, hsp', by rwa [String.toList_ofList], rfl⟩, ?_⟩
      rw [hs, after?_eq_some.1 hquote, hr', after?_eq_some.1 hcolon]
      simp

/-- What is read in a number of steps is a text of the grammar. -/
structure ReadsTexts (steps : Nat) : Prop where
  /-- A value after spaces. -/
  value : ∀ {s v rest}, decodeValue steps s = some (v, rest) →
    ∃ sp t, IsSpaces sp ∧ ValueText t v ∧ s = sp ++ (t ++ rest)
  /-- The elements of a list with its end. -/
  elements : ∀ {s vs rest}, decodeElements steps s = some (vs, rest) →
    ∃ t, ElementsText t vs ∧ s = t ++ ']' :: rest
  /-- The entries of an object with its end. -/
  entries : ∀ {s es rest}, decodeEntries steps s = some (es, rest) →
    ∃ t, EntriesText t es ∧ s = t ++ '}' :: rest

/-- A value and the spaces after it are read in front of a comma or of an end. -/
theorem ReadsTexts.exists_spaced {steps : Nat} (h : ReadsTexts steps) {s r : List Char} {v : Data}
    (hread : decodeValue steps s = some (v, r)) : ∃ t, SpacedText t v ∧ s = t ++ skipSpace r := by
  obtain ⟨sp, t, hsp, ht, rfl⟩ := h.value hread
  obtain ⟨sp', hsp', -, hr⟩ := exists_spaces r
  refine ⟨_, .mk hsp ht hsp', ?_⟩
  rw [List.append_assoc, List.append_assoc, ← hr]

/-- A word that is read is the text of its value. -/
theorem exists_valueText_of_word {s r word rest : List Char} {c : Char} {d v : Data}
    (hc : skipSpace s = c :: r) (hd : ValueText (c :: word) d)
    (hread : (after? word r).map (d, ·) = some (v, rest)) :
    ∃ sp t, IsSpaces sp ∧ ValueText t v ∧ s = sp ++ (t ++ rest) := by
  obtain ⟨sp, hsp, -, hs⟩ := exists_spaces s
  obtain ⟨rest', hr, heq⟩ := Option.map_eq_some_iff.1 hread
  obtain ⟨rfl, rfl⟩ := Prod.mk.inj heq
  exact ⟨sp, _, hsp, hd, by rw [hs, hc, after?_eq_some.1 hr]; rfl⟩

/-- A value that is read in one step more is a text of the grammar. -/
theorem ReadsTexts.exists_valueText {steps : Nat} (h : ReadsTexts steps) {s rest : List Char}
    {v : Data} (hread : decodeValue (steps + 1) s = some (v, rest)) :
    ∃ sp t, IsSpaces sp ∧ ValueText t v ∧ s = sp ++ (t ++ rest) := by
  obtain ⟨sp, hsp, -, hs⟩ := exists_spaces s
  rw [decodeValue] at hread
  split at hread
  · next hc => exact exists_valueText_of_word hc .null hread
  · next hc => exact exists_valueText_of_word hc .yes hread
  · next hc => exact exists_valueText_of_word hc .no hread
  · next r hc =>
    obtain ⟨⟨content, rest'⟩, hstring, heq⟩ := Option.map_eq_some_iff.1 hread
    obtain ⟨rfl, rfl⟩ := Prod.mk.inj heq
    obtain ⟨t, ht, rfl⟩ := readString_eq_ok_iff.1 (toOption_eq_some.1 hstring)
    exact ⟨sp, _, hsp, .string ht, by rw [hs, hc]; simp⟩
  · next r hc =>
    obtain ⟨sp', hsp', -, hr⟩ := exists_spaces r
    split at hread
    · next rest' hend =>
      obtain ⟨rfl, rfl⟩ := Prod.mk.inj (Option.some.inj hread)
      exact ⟨sp, _, hsp, .emptyList hsp', by rw [hs, hc, hr, hend]; simp⟩
    · obtain ⟨⟨vs, rest'⟩, helements, heq⟩ := Option.map_eq_some_iff.1 hread
      obtain ⟨rfl, rfl⟩ := Prod.mk.inj heq
      obtain ⟨t, ht, rfl⟩ := h.elements helements
      exact ⟨sp, _, hsp, .list ht, by rw [hs, hc]; simp⟩
  · next r hc =>
    obtain ⟨sp', hsp', -, hr⟩ := exists_spaces r
    split at hread
    · next rest' hend =>
      obtain ⟨rfl, rfl⟩ := Prod.mk.inj (Option.some.inj hread)
      exact ⟨sp, _, hsp, .emptyObject hsp', by rw [hs, hc, hr, hend]; simp⟩
    · obtain ⟨⟨es, rest'⟩, hentries, heq⟩ := Option.map_eq_some_iff.1 hread
      obtain ⟨rfl, rfl⟩ := Prod.mk.inj heq
      obtain ⟨t, ht, rfl⟩ := h.entries hentries
      exact ⟨sp, _, hsp, .object ht, by rw [hs, hc]; simp⟩
  · dsimp only at hread
    split_ifs at hread with hnumber
    obtain ⟨rfl, rfl⟩ := Prod.mk.inj (Option.some.inj hread)
    refine ⟨sp, _, hsp, .number hnumber, ?_⟩
    rw [List.takeWhile_append_dropWhile, ← hs]

/-- Elements that are read in one step more are a text of the grammar. -/
theorem ReadsTexts.exists_elementsText {steps : Nat} (h : ReadsTexts steps) {s rest : List Char}
    {vs : List Data} (hread : decodeElements (steps + 1) s = some (vs, rest)) :
    ∃ t, ElementsText t vs ∧ s = t ++ ']' :: rest := by
  rw [decodeElements] at hread
  split at hread
  · exact absurd hread (by simp)
  · next v r hv =>
    obtain ⟨t, ht, rfl⟩ := h.exists_spaced hv
    split at hread
    · next r' hr =>
      obtain ⟨rfl, rfl⟩ := Prod.mk.inj (Option.some.inj hread)
      exact ⟨t, .single ht, by rw [hr]⟩
    · next r' hr =>
      obtain ⟨⟨vs', rest'⟩, hmore, heq⟩ := Option.map_eq_some_iff.1 hread
      obtain ⟨rfl, rfl⟩ := Prod.mk.inj heq
      obtain ⟨t', ht', rfl⟩ := h.elements hmore
      exact ⟨_, .cons ht ht', by rw [hr]; simp⟩
    · exact absurd hread (by simp)

/-- Entries that are read in one step more are a text of the grammar. -/
theorem ReadsTexts.exists_entriesText {steps : Nat} (h : ReadsTexts steps) {s rest : List Char}
    {es : List (String × Data)} (hread : decodeEntries (steps + 1) s = some (es, rest)) :
    ∃ t, EntriesText t es ∧ s = t ++ '}' :: rest := by
  rw [decodeEntries] at hread
  split at hread
  · exact absurd hread (by simp)
  · next key r hk =>
    obtain ⟨k, hkey, rfl⟩ := exists_keyText hk
    split at hread
    · exact absurd hread (by simp)
    · next v r' hv =>
      obtain ⟨t, ht, rfl⟩ := h.exists_spaced hv
      split at hread
      · next r'' hr =>
        obtain ⟨rfl, rfl⟩ := Prod.mk.inj (Option.some.inj hread)
        exact ⟨_, .single hkey ht, by rw [hr]; simp⟩
      · next r'' hr =>
        obtain ⟨⟨es', rest'⟩, hmore, heq⟩ := Option.map_eq_some_iff.1 hread
        obtain ⟨rfl, rfl⟩ := Prod.mk.inj heq
        obtain ⟨t', ht', rfl⟩ := h.entries hmore
        exact ⟨_, .cons hkey ht ht', by rw [hr]; simp⟩
      · exact absurd hread (by simp)

/-- What is read is a text of the grammar, in any number of steps. -/
theorem readsTexts (steps : Nat) : ReadsTexts steps := by
  induction steps with
  | zero => exact ⟨by simp [decodeValue], by simp [decodeElements], by simp [decodeEntries]⟩
  | succ steps ih => exact ⟨ih.exists_valueText, ih.exists_elementsText, ih.exists_entriesText⟩

/-! ## Whole texts -/

/-- Reading succeeds exactly on the texts of the grammar, with the value that they are texts of. -/
theorem decode_eq_some_iff {text : String} {v : Data} :
    decode text = some v ↔ DocumentText text v := by
  rw [decode, Option.bind_eq_bind, Option.bind_eq_some_iff]
  constructor
  · rintro ⟨⟨v', rest⟩, hread, h⟩
    dsimp only at h
    split_ifs at h with hrest
    obtain rfl := Option.some.inj h
    obtain ⟨sp, t, hsp, ht, hs⟩ := (readsTexts _).value hread
    obtain ⟨sp', hsp', -, hr⟩ := exists_spaces rest
    rw [hrest, List.append_nil] at hr
    rw [DocumentText, hs, hr]
    exact .mk hsp ht hsp'
  · intro h
    obtain ⟨sp, hsp, hread⟩ := h.decodeValue_append (Nat.le_refl _) stops_nil
    rw [List.append_nil, List.append_nil] at hread
    exact ⟨_, hread, if_pos (skipSpace_eq_nil hsp)⟩

/-- No text is a text of two values. -/
theorem DocumentText.unique {text : String} {v v' : Data} (h : DocumentText text v)
    (h' : DocumentText text v') : v = v' := by
  have hv := decode_eq_some_iff.2 h
  rw [decode_eq_some_iff.2 h'] at hv
  exact (Option.some.inj hv).symm

end ParamClass.Json
