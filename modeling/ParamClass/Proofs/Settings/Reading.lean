import ParamClass.Proofs.Json.Writing
import ParamClass.Proofs.Settings.Entries

/-!
# Settings from a JSON object

A JSON object whose values are strings gives settings exactly when its entries are acceptable. The
reader goes through the object as `putAll?` goes through the entries, one after the other, however the
keys and values are spelled and spaced (`readEntries_eq_ok_iff`), and what it gives is the default
settings with the values of the entries in their places (`ofJson_object`).
-/

namespace ParamClass.Settings

open Emission Json Text
open Xml (IsSpaces isSpaces_nil isSpaces_space skipSpace_eq_nil skipSpace_spaces_cons)

/-- An object whose values are strings. -/
def objectOf (entries : List (String × String)) : Data :=
  .object (entries.map fun e => (e.1, .string e.2))

/-! ## Texts of entries -/

/-- After the spaces before a string its quote follows. -/
theorem exists_skipSpace_of_string {w : List Char} {value : String}
    (h : SpacedText w (.string value)) (more : List Char) :
    ∃ s sp, StringText s value.toList ∧ IsSpaces sp ∧
      skipSpace (w ++ more) = '"' :: (s ++ '"' :: (sp ++ more)) := by
  match h with
  | @SpacedText.mk sp _ sp' _ hsp (@ValueText.string t s ht) hsp' =>
    refine ⟨t, sp', ?_, hsp', ?_⟩
    · rwa [String.toList_ofList]
    · have hskip := skipSpace_spaces_cons hsp (c := '"') (by decide) (t ++ '"' :: (sp' ++ more))
      simpa using hskip

/-- The text of entries is that of the first one, with those of the others after a comma. -/
theorem exists_of_entriesText_cons {t : List Char} {key : String} {v : Data}
    {es : List (String × Data)} (h : EntriesText t ((key, v) :: es)) :
    ∃ k w, KeyText k key ∧ SpacedText w v ∧
      (es = [] ∧ t = k ++ ':' :: w ∨
        ∃ s, EntriesText s es ∧ t = k ++ ':' :: (w ++ ',' :: s)) := by
  cases h with
  | single hk ht => exact ⟨_, _, hk, ht, .inl ⟨rfl, rfl⟩⟩
  | cons hk ht hs => exact ⟨_, _, hk, ht, .inr ⟨_, hs, rfl⟩⟩

/-! ## Reading an entry -/

/-- A string is read with what it stands for. -/
theorem readStringValue_eq {x s r : List Char} {value : String} (hs : StringText s value.toList)
    (hx : skipSpace x = '"' :: (s ++ '"' :: r)) (expected : String) :
    readStringValue expected x = .ok (value, r) := by
  have hread : readString (s ++ '"' :: r) = .ok (value.toList, r) := readString_eq_ok_iff.2 ⟨s, hs, rfl⟩
  rw [readStringValue, hx]
  show (readString (s ++ '"' :: r)).map _ = _
  exact map_eq_ok.2 ⟨_, hread, congrArg (·, r) String.ofList_toList⟩

/-- The name of a line ending is read exactly when it is one. -/
theorem readLineEnding_eq_ok_iff {x s r rest : List Char} {value : String} {ending : LineEnding}
    (hs : StringText s value.toList) (hx : skipSpace x = '"' :: (s ++ '"' :: r)) :
    readLineEnding x = .ok (ending, rest) ↔ lineEnding? value = some ending ∧ rest = r := by
  have hquote : skipSpace ('"' :: (s ++ '"' :: r)) = '"' :: (s ++ '"' :: r) := rfl
  rw [readLineEnding, hx]
  show readLineEndingName "a string" ('"' :: (s ++ '"' :: r)) = _ ↔ _
  rw [readLineEndingName, readStringValue_eq hs hquote]
  dsimp only
  cases lineEnding? value with
  | none => simp
  | some ending' => simp [eq_comm]

/-- A string is read into a field exactly when it can be put there. -/
theorem readField_eq_ok_iff {x s r rest : List Char} {value : String} {field : Field}
    {settings settings' : Settings} (hs : StringText s value.toList)
    (hx : skipSpace x = '"' :: (s ++ '"' :: r)) :
    readField field settings x = .ok (settings', rest) ↔
      settings.put? value field = some settings' ∧ rest = r := by
  cases field with
  | manifestNamespace =>
    rw [readField, readStringValue_eq hs hx]
    simp [Except.map, put?, eq_comm]
  | indent =>
    rw [readField, readStringValue_eq hs hx]
    simp [Except.map, put?, eq_comm]
  | lineEnding =>
    rw [readField, map_eq_ok, put?, Option.map_eq_some_iff]
    constructor
    · rintro ⟨⟨ending, rest'⟩, hread, heq⟩
      obtain ⟨hending, rfl⟩ := (readLineEnding_eq_ok_iff hs hx).1 hread
      obtain ⟨rfl, rfl⟩ := Prod.mk.inj heq
      exact ⟨⟨ending, hending, rfl⟩, rfl⟩
    · rintro ⟨⟨ending, hending, rfl⟩, rfl⟩
      exact ⟨_, (readLineEnding_eq_ok_iff hs hx).2 ⟨hending, rfl⟩, rfl⟩

/-- An entry is read, after the quote of its key, exactly when the key is that of a field that has not
been given and the value can be put there. -/
theorem readEntry_eq_ok_iff {k sp w s r rest : List Char} {key value : String} {seen : List Field}
    {settings settings' : Settings} {field : Field} (hk : StringText k key.toList)
    (hsp : IsSpaces sp) (hs : StringText s value.toList)
    (hw : skipSpace w = '"' :: (s ++ '"' :: r)) :
    readEntry seen settings (k ++ '"' :: (sp ++ ':' :: w)) = .ok (field, settings', rest) ↔
      field.key = key ∧ field ∉ seen ∧ settings.put? value field = some settings' ∧ rest = r := by
  have hkey : readString (k ++ '"' :: (sp ++ ':' :: w)) = .ok (key.toList, sp ++ ':' :: w) :=
    readString_eq_ok_iff.2 ⟨k, hk, rfl⟩
  have hcolon : readColon (sp ++ ':' :: w) = .ok w := by
    rw [readColon, skipSpace_spaces_cons hsp (by decide)]
    rfl
  simp only [readEntry, hkey, bind, Except.bind, String.ofList_toList, hcolon]
  constructor
  · intro h
    split at h
    · exact absurd h (by simp)
    · next field' hfield =>
      split_ifs at h with hseen
      split at h
      · exact absurd h (by simp)
      · next hread =>
        obtain ⟨rfl, heq⟩ := Prod.mk.inj (Except.ok.inj h)
        obtain ⟨rfl, rfl⟩ := Prod.mk.inj heq
        exact ⟨Field.ofKey?_eq_some_iff.1 hfield, hseen, (readField_eq_ok_iff hs hw).1 hread⟩
  · rintro ⟨rfl, hseen, hput⟩
    rw [Field.ofKey?_eq_some_iff.2 rfl]
    dsimp only
    rw [if_neg hseen, (readField_eq_ok_iff hs hw).2 hput]

/-! ## Reading entries -/

/-- Where the first entry starts, it is found. -/
theorem nextEntry_first {s r : List Char} (h : skipSpace s = '"' :: r) :
    nextEntry true s = .ok (.entry r) := by
  rw [nextEntry, h]
  rfl

/-- After a comma the next entry is found. -/
theorem nextEntry_comma {sp s r : List Char} (hsp : IsSpaces sp) (h : skipSpace s = '"' :: r) :
    nextEntry false (sp ++ ',' :: s) = .ok (.entry r) := by
  simp [nextEntry, skipSpace_spaces_cons hsp, isSpace, h]

/-- The end of the object is found. -/
theorem nextEntry_finish {sp : List Char} (hsp : IsSpaces sp) (isFirst : Bool) (rest : List Char) :
    nextEntry isFirst (sp ++ '}' :: rest) = .ok (.finish rest) := by
  rw [nextEntry, skipSpace_spaces_cons hsp (by decide)]
  rfl

/-- Where an entry is found, reading succeeds exactly when it does with this entry and then with those
after it. -/
theorem readEntries_eq_ok_iff_of_entry {seen : List Field} {settings : Settings} {s r : List Char}
    (h : nextEntry seen.isEmpty s = .ok (.entry r)) {result : Settings × List Char} :
    readEntries seen settings s = .ok result ↔
      ∃ field settings₁ rest, readEntry seen settings r = .ok (field, settings₁, rest) ∧
        readEntries (field :: seen) settings₁ rest = .ok result := by
  rw [readEntries]
  split
  · next heq => exact absurd (h.symm.trans heq) (by simp)
  · next heq => exact absurd (h.symm.trans heq) (by simp)
  · next r' heq =>
    obtain rfl : r = r' := by simpa using h.symm.trans heq
    split
    · next hread => simp [hread]
    · next field settings₁ rest hread => simp [hread]

/-- Where the end of the object is found, nothing more is read. -/
theorem readEntries_of_finish {seen : List Field} {settings : Settings} {s rest : List Char}
    (h : nextEntry seen.isEmpty s = .ok (.finish rest)) :
    readEntries seen settings s = .ok (settings, rest) := by
  rw [readEntries]
  split
  · next heq => exact absurd (h.symm.trans heq) (by simp)
  · next heq =>
    obtain rfl : rest = _ := by simpa using h.symm.trans heq
    rfl
  · next heq => exact absurd (h.symm.trans heq) (by simp)

/-- Reading entries from where the first one is found up to the end of the object succeeds exactly as
putting them one after the other does. -/
theorem readEntries_eq_ok_iff {entries : List (String × String)} {t u rest rest' : List Char}
    {seen : List Field} {settings settings' : Settings}
    (h : EntriesText t (entries.map fun e => (e.1, .string e.2)))
    (hnext : ∀ r, skipSpace (t ++ '}' :: rest) = '"' :: r → nextEntry seen.isEmpty u = .ok (.entry r)) :
    readEntries seen settings u = .ok (settings', rest') ↔
      putAll? seen settings entries = some settings' ∧ rest' = rest := by
  -- By induction on the entries. After the first one they are found behind a comma, so `u` is any text
  -- in which the first of those that are left is found.
  induction entries generalizing t u seen settings with
  | nil => cases h
  | cons e entries ih =>
    obtain ⟨key, value⟩ := e
    obtain ⟨k, w, hk, hw, ht⟩ := exists_of_entriesText_cons h
    -- What follows the value: the end, or a comma and the other entries.
    obtain ⟨more, hmore⟩ : ∃ more, t ++ '}' :: rest = k ++ ':' :: (w ++ more) ∧
        ∀ (field : Field) (settings₁ : Settings) (sp : List Char), IsSpaces sp →
          (readEntries (field :: seen) settings₁ (sp ++ more) = .ok (settings', rest') ↔
            putAll? (field :: seen) settings₁ entries = some settings' ∧ rest' = rest) := by
      rcases ht with ⟨hnil, rfl⟩ | ⟨s, hs, rfl⟩
      · refine ⟨'}' :: rest, by simp, fun field settings₁ sp hsp => ?_⟩
        obtain rfl := List.map_eq_nil_iff.1 hnil
        rw [readEntries_of_finish (nextEntry_finish hsp _ rest), putAll?]
        simp [eq_comm]
      · refine ⟨',' :: (s ++ '}' :: rest), by simp, fun field settings₁ sp hsp => ?_⟩
        exact ih hs fun r hr => nextEntry_comma hsp hr
    obtain ⟨htext, hmore⟩ := hmore
    obtain ⟨k', sp, hk', hsp, hquote⟩ := hk.exists_skipSpace (':' :: (w ++ more))
    obtain ⟨s, sp', hs, hsp', hvalue⟩ := exists_skipSpace_of_string hw more
    rw [readEntries_eq_ok_iff_of_entry (hnext _ (htext ▸ hquote)), putAll?_cons_eq_some_iff]
    constructor
    · rintro ⟨field, settings₁, rest₁, hread, h⟩
      obtain ⟨hkey, hnew, hput, rfl⟩ := (readEntry_eq_ok_iff hk' hsp hs hvalue).1 hread
      obtain ⟨h, hrest⟩ := (hmore field settings₁ sp' hsp').1 h
      exact ⟨⟨field, settings₁, hkey, hnew, hput, h⟩, hrest⟩
    · rintro ⟨⟨field, settings₁, hkey, hnew, hput, h⟩, hrest⟩
      have hread := (readEntry_eq_ok_iff hk' hsp hs hvalue).2 ⟨hkey, hnew, hput, rfl⟩
      exact ⟨field, settings₁, _, hread, (hmore field settings₁ sp' hsp').2 ⟨h, hrest⟩⟩

/-- An object with strings as values starts with a brace, after which its entries are read. -/
theorem exists_readEntries_of_object {t : List Char} {entries : List (String × String)}
    (h : ValueText t (objectOf entries)) :
    ∃ u, t = '{' :: u ∧ ∀ {settings settings' : Settings} {rest rest' : List Char},
      readEntries [] settings (u ++ rest) = .ok (settings', rest') ↔
        putAll? [] settings entries = some settings' ∧ rest' = rest := by
  generalize hes : entries.map (fun e => (e.1, Data.string e.2)) = es at h
  rw [objectOf, hes] at h
  cases h with
  | @emptyObject sp hsp =>
    obtain rfl := List.map_eq_nil_iff.1 hes
    refine ⟨_, rfl, ?_⟩
    intro settings settings' rest rest'
    rw [List.append_assoc, List.singleton_append, readEntries_of_finish (nextEntry_finish hsp _ rest),
      putAll?]
    simp [eq_comm]
  | object ht =>
    refine ⟨_, rfl, ?_⟩
    intro settings settings' rest rest'
    subst hes
    rw [List.append_assoc, List.singleton_append]
    exact readEntries_eq_ok_iff ht fun r hr => nextEntry_first hr

/-! ## Whole texts -/

/-- Nothing but spaces may follow the object. -/
theorem readEnd_spaces {sp : List Char} (hsp : IsSpaces sp) : readEnd sp = .ok () := by
  rw [readEnd, skipSpace_eq_nil hsp]

/-- Reading a text of an object with strings as values succeeds exactly as putting its entries one after
the other into the default settings does. -/
theorem readText_eq_ok_iff {s : List Char} {entries : List (String × String)}
    (h : SpacedText s (objectOf entries)) {settings : Settings} :
    readText s = .ok settings ↔ putAll? [] default entries = some settings := by
  obtain ⟨hsp, ht, hsp'⟩ := h
  obtain ⟨u, rfl, hentries⟩ := exists_readEntries_of_object ht
  rw [readText, readSettings, List.cons_append, skipSpace_spaces_cons hsp (by decide)]
  show (readEntries [] default _ >>= fun r => readEnd r.2 >>= fun _ => .ok r.1) = .ok settings ↔ _
  constructor
  · intro h
    obtain ⟨⟨settings', rest⟩, hread, h⟩ := bind_eq_ok.1 h
    obtain ⟨hput, -⟩ := hentries.1 hread
    obtain ⟨-, -, heq⟩ := bind_eq_ok.1 h
    obtain rfl := Except.ok.inj heq
    exact hput
  · intro h
    exact bind_eq_ok.2 ⟨_, hentries.2 ⟨h, rfl⟩, bind_eq_ok.2 ⟨(), readEnd_spaces hsp', rfl⟩⟩

/-- A text gives settings exactly when it is read as these and they are valid. -/
theorem ofJson_eq_ok_iff {text : String} {settings : Settings} :
    ofJson text = .ok settings ↔ readText text.toList = .ok settings ∧ settings.isValid = true := by
  rw [ofJson]
  cases readText text.toList with
  | error stop => simp
  | ok settings' =>
    dsimp only
    rw [validate]
    split_ifs with hvalid
    · constructor
      · intro h
        obtain rfl := Except.ok.inj h
        exact ⟨rfl, hvalid⟩
      · rintro ⟨heq, -⟩
        rw [Except.ok.inj heq]
    · constructor
      · intro h
        exact absurd h (by simp)
      · rintro ⟨heq, hvalid'⟩
        obtain rfl := Except.ok.inj heq
        exact absurd hvalid' hvalid

/-- A JSON object with strings as values, however they are spelled and spaced, gives settings exactly
when its entries are acceptable: the default ones with the values of the entries in their places.
Otherwise its text is refused, or the indent that it gives. Valid settings are read back from a text of
their entries in any order, and a text never gives any settings that are not valid. -/
theorem ofJson_object :
    (∀ text entries, DocumentText text (objectOf entries) →
      (∀ settings, ofJson text = .ok settings ↔
        Acceptable entries ∧ settings = Settings.default.replaced entries) ∧
      (¬ Acceptable entries → (∃ fault, ofJson text = .error (.malformed fault)) ∨
        ∃ value, ("indent", value) ∈ entries ∧ ofJson text = .error (.badIndent value))) ∧
    (∀ settings : Settings, settings.isValid = true → ∀ entries text,
      entries.Perm settings.entries → DocumentText text (objectOf entries) →
      ofJson text = .ok settings) ∧
    (∀ text settings, ofJson text = .ok settings → settings.validate = .ok settings) := by
  have hobject : ∀ text entries, DocumentText text (objectOf entries) → ∀ settings,
      (ofJson text = .ok settings ↔ Acceptable entries ∧ settings = default.replaced entries) := by
    intro text entries htext settings
    rw [ofJson_eq_ok_iff, readText_eq_ok_iff htext, putAll?_default_iff]
  refine ⟨fun text entries htext => ⟨hobject text entries htext, fun hentries => ?_⟩, ?_, ?_⟩
  · cases hread : readText text.toList with
    | error stop => exact .inl ⟨stop.fault text, by rw [ofJson, hread]⟩
    | ok settings =>
      have hinvalid : ¬ settings.isValid = true := fun hvalid =>
        hentries ((hobject text entries htext settings).1 (ofJson_eq_ok_iff.2 ⟨hread, hvalid⟩)).1
      obtain ⟨-, -, -, rfl⟩ := putAll?_eq_some_iff.1 ((readText_eq_ok_iff htext).1 hread)
      refine .inr ⟨_, mem_of_not_isValid_replaced (by decide) hinvalid, ?_⟩
      rw [ofJson, hread]
      dsimp only
      rw [validate, if_neg hinvalid]
  · intro settings hvalid entries text hperm htext
    obtain ⟨hentries, hreplaced⟩ := acceptable_of_perm hvalid hperm
    exact (hobject text entries htext settings).2 ⟨hentries, (hreplaced default).symm⟩
  · intro text settings h
    rw [validate, if_pos (ofJson_eq_ok_iff.1 h).2]

/-- A key may be spelled with an escape and a value as it is, a key that is given twice is refused, and
valid settings are read back from their entries in another order. -/
theorem ofJson_object_of_escape :
    ofJson "\x7b \"\\u0069ndent\":\" \" \x7d" = .ok ⟨Manifest.defaultNamespace, " ", .lf⟩ ∧
    (∃ fault, ofJson (Value.object [("indent", .string " "), ("indent", .string " ")]).compact =
      .error fault) ∧
    ofJson ((Value.object [("line_ending", .string "crlf"), ("manifest_namespace", .string ""),
      ("indent", .string "  ")]).indented 0) = .ok ⟨"", "  ", .crlf⟩ ∧
    (Settings.mk "" "  " .crlf).validate = .ok ⟨"", "  ", .crlf⟩ := by
  obtain ⟨hobject, hsettings, hvalid⟩ := ofJson_object
  have hwritten : DocumentText ((Value.object [("line_ending", .string "crlf"),
      ("manifest_namespace", .string ""), ("indent", .string "  ")]).indented 0)
      (objectOf [("line_ending", "crlf"), ("manifest_namespace", ""), ("indent", "  ")]) :=
    Value.documentText_indented _
  have hread := hsettings ⟨"", "  ", .crlf⟩ (by decide) _ _ (by decide) hwritten
  refine ⟨?_, ?_, hread, hvalid _ _ hread⟩
  · have hletter : EscapeText ['u', '0', '0', '6', '9'] 'i' :=
      .unit ⟨0, 0, 6, 9, by decide, rfl⟩ (by decide)
    have hkey : KeyText (" \"\\u0069ndent\"").toList "indent" :=
      ⟨[' '], _, [], isSpaces_space, isSpaces_nil,
        .escape hletter (stringText_flatMap_writeChar "ndent".toList), rfl⟩
    have hentries : EntriesText (" \"\\u0069ndent\":\" \" ").toList [("indent", .string " ")] :=
      .single hkey (.mk isSpaces_nil (valueText_writeString " ") isSpaces_space)
    have hescaped : DocumentText "\x7b \"\\u0069ndent\":\" \" \x7d" (objectOf [("indent", " ")]) :=
      (ValueText.object hentries).spacedText isSpaces_nil
    exact ((hobject _ _ hescaped).1 _).2 ⟨⟨by decide, by decide, by simp, by simp⟩, rfl⟩
  · have hrefused : ¬ Acceptable [("indent", " "), ("indent", " ")] := fun h =>
      absurd h.once (by decide)
    have htwice : DocumentText
        (Value.object [("indent", .string " "), ("indent", .string " ")]).compact
        (objectOf [("indent", " "), ("indent", " ")]) := Value.documentText_compact _
    rcases (hobject _ _ htwice).2 hrefused with ⟨fault, h⟩ | ⟨value, -, h⟩
    · exact ⟨_, h⟩
    · exact ⟨_, h⟩

end ParamClass.Settings
