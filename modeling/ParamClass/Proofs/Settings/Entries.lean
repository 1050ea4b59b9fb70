import Mathlib.Data.List.Nodup
import ParamClass.Settings.Reading

/-!
# Settings from entries

Settings are given by entries, each with a key and a value. `putAll?` takes them one after the other,
and stops at a key that is unknown or has been given before and at a line ending that is none. It
succeeds exactly on entries whose keys are known and different and whose line ending is one, with the
settings that the entries replace (`putAll?_eq_some_iff`), so their order is of no account.
-/

namespace ParamClass.Settings

open Emission

/-! ## Entries one after the other -/

/-- The settings with the value of a field replaced, unless it is a line ending that is none. -/
def put? (settings : Settings) (value : String) : Field → Option Settings
  | .manifestNamespace => some { settings with manifestNamespace := value }
  | .indent => some { settings with indent := value }
  | .lineEnding => (lineEnding? value).map fun ending => { settings with lineEnding := ending }

/-- The settings with the values of entries replaced, where `seen` are the fields that have been given.
-/
def putAll? (seen : List Field) (settings : Settings) : List (String × String) → Option Settings
  | [] => some settings
  | (key, value) :: entries =>
    match Field.ofKey? key with
    | none => none
    | some field =>
      if field ∈ seen then none
      else
        match settings.put? value field with
        | none => none
        | some settings => putAll? (field :: seen) settings entries

/-! ## Entries all together -/

/-- The settings with each field replaced by the value of its key, if there is one. -/
def replaced (settings : Settings) (entries : List (String × String)) : Settings where
  manifestNamespace := (entries.lookup "manifest_namespace").getD settings.manifestNamespace
  indent := (entries.lookup "indent").getD settings.indent
  lineEnding := ((entries.lookup "line_ending").bind lineEnding?).getD settings.lineEnding

/-- The keys are known and different, the line ending is one, and the indent is one or more spaces or
tabs. -/
structure Acceptable (entries : List (String × String)) : Prop where
  /-- Each key is one of the three. -/
  known : ∀ e ∈ entries, e.1 ∈ ["manifest_namespace", "indent", "line_ending"]
  /-- No key occurs twice. -/
  once : (entries.map Prod.fst).Nodup
  /-- The line ending has one of the two names. -/
  lineEnding : ∀ value, ("line_ending", value) ∈ entries → value = "lf" ∨ value = "crlf"
  /-- The indent is not empty and has only spaces and tabs. -/
  indent : ∀ value, ("indent", value) ∈ entries →
    value ≠ "" ∧ ∀ c ∈ value.toList, c = ' ' ∨ c = '\t'

/-- The field of a key is the only one with this key. -/
theorem Field.ofKey?_eq_some_iff {key : String} {field : Field} :
    Field.ofKey? key = some field ↔ field.key = key := by
  constructor
  · intro h
    have hkey := List.find?_some h
    exact beq_iff_eq.1 hkey
  · rintro rfl
    cases field <;> decide

/-- Different fields have different keys. -/
theorem Field.key_injective : Function.Injective Field.key := by
  intro f g h
  have hf := Field.ofKey?_eq_some_iff.2 h
  rw [Field.ofKey?_eq_some_iff.2 rfl] at hf
  exact (Option.some.inj hf).symm

/-- The keys of fields are the known ones. -/
theorem Field.exists_key_eq_iff {key : String} :
    (∃ field : Field, field.key = key) ↔
      key ∈ ["manifest_namespace", "indent", "line_ending"] := by
  constructor
  · rintro ⟨field, rfl⟩
    cases field <;> decide
  · intro h
    simp only [List.mem_cons, List.not_mem_nil, or_false] at h
    rcases h with rfl | rfl | rfl
    · exact ⟨.manifestNamespace, rfl⟩
    · exact ⟨.indent, rfl⟩
    · exact ⟨.lineEnding, rfl⟩

/-- The names of line endings are two. -/
theorem isSome_lineEnding? {name : String} :
    (lineEnding? name).isSome = true ↔ name = "lf" ∨ name = "crlf" := by
  rw [lineEnding?, List.find?_isSome]
  simp only [List.mem_cons, List.not_mem_nil, or_false, exists_eq_or_imp, exists_eq_left,
    lineEndingName, beq_iff_eq, eq_comm (b := name)]

/-- A line ending is the one of its name. -/
theorem lineEnding?_lineEndingName (ending : LineEnding) :
    lineEnding? (lineEndingName ending) = some ending := by
  cases ending <;> decide

/-- A key that occurs once has the value that stands with it. -/
theorem lookup_eq_some_iff_mem {entries : List (String × String)}
    (h : (entries.map Prod.fst).Nodup) {key value : String} :
    entries.lookup key = some value ↔ (key, value) ∈ entries := by
  constructor
  · intro hlookup
    obtain ⟨before, after, rfl, -⟩ := List.lookup_eq_some_iff.1 hlookup
    simp
  · intro hmem
    obtain ⟨before, after, rfl⟩ := List.append_of_mem hmem
    refine List.lookup_eq_some_iff.2 ⟨before, after, rfl, fun e he => bne_iff_ne.2 ?_⟩
    rintro rfl
    rw [List.map_append, List.map_cons] at h
    exact List.disjoint_of_nodup_append h (List.mem_map_of_mem he) List.mem_cons_self

/-- Entries with other keys leave the value of a field to its default. -/
theorem lookup_eq_none {entries : List (String × String)} {key : String}
    (h : key ∉ entries.map Prod.fst) : entries.lookup key = none := by
  rw [List.lookup_eq_none_iff]
  intro e he
  exact bne_iff_ne.2 fun heq => h (heq ▸ List.mem_map_of_mem he)

/-- Replacing the value of a field and then those of entries without its key is replacing all of them
together. -/
theorem replaced_cons {settings settings' : Settings} {value : String} {field : Field}
    (h : settings.put? value field = some settings') {entries : List (String × String)}
    (hkey : field.key ∉ entries.map Prod.fst) :
    settings'.replaced entries = settings.replaced ((field.key, value) :: entries) := by
  have hnone := lookup_eq_none hkey
  cases field with
  | manifestNamespace =>
    obtain rfl := Option.some.inj h
    simp only [Field.key] at hnone
    simp [replaced, Field.key, List.lookup_cons, hnone]
  | indent =>
    obtain rfl := Option.some.inj h
    simp only [Field.key] at hnone
    simp [replaced, Field.key, List.lookup_cons, hnone]
  | lineEnding =>
    obtain ⟨ending, hending, rfl⟩ := Option.map_eq_some_iff.1 h
    simp only [Field.key] at hnone
    simp [replaced, Field.key, List.lookup_cons, hnone, hending]

/-- A value can be put into any field but the line ending, and there if it names one. -/
theorem exists_put?_iff {settings : Settings} {value : String} {field : Field} :
    (∃ settings', settings.put? value field = some settings') ↔
      (field = .lineEnding → (lineEnding? value).isSome = true) := by
  cases field with
  | lineEnding =>
    rw [← Option.isSome_iff_exists, put?, Option.isSome_map]
    simp
  | _ => exact ⟨fun _ h => absurd h (by decide), fun _ => ⟨_, rfl⟩⟩

/-- Entries succeed one after the other exactly when the first one has the key of a field that has not
been given and a value for it, and the others succeed after it. -/
theorem putAll?_cons_eq_some_iff {key value : String} {entries : List (String × String)}
    {seen : List Field} {settings settings' : Settings} :
    putAll? seen settings ((key, value) :: entries) = some settings' ↔
      ∃ field settings₁, Field.key field = key ∧ field ∉ seen ∧
        settings.put? value field = some settings₁ ∧
        putAll? (field :: seen) settings₁ entries = some settings' := by
  constructor
  · intro h
    rw [putAll?] at h
    split at h
    · exact absurd h (by simp)
    · next field hfield =>
      split_ifs at h with hseen
      split at h
      · exact absurd h (by simp)
      · next settings₁ hput =>
        exact ⟨field, settings₁, Field.ofKey?_eq_some_iff.1 hfield, hseen, hput, h⟩
  · rintro ⟨field, settings₁, rfl, hseen, hput, h⟩
    rw [putAll?, Field.ofKey?_eq_some_iff.2 rfl]
    dsimp only
    rw [if_neg hseen, hput]
    exact h

/-- The keys of entries are new after a field exactly when they are new before it and not its key. -/
theorem forall_new_cons_iff {entries : List (String × String)} {seen : List Field} {field : Field} :
    (∀ e ∈ entries, ∃ g : Field, g.key = e.1 ∧ g ∉ field :: seen) ↔
      field.key ∉ entries.map Prod.fst ∧ ∀ e ∈ entries, ∃ g : Field, g.key = e.1 ∧ g ∉ seen := by
  constructor
  · intro h
    constructor
    · intro hmem
      obtain ⟨e, he, heq⟩ := List.mem_map.1 hmem
      obtain ⟨g, hg, hnew⟩ := h e he
      obtain rfl := Field.key_injective (hg.trans heq)
      exact hnew List.mem_cons_self
    · intro e he
      obtain ⟨g, hg, hnew⟩ := h e he
      exact ⟨g, hg, fun hmem => hnew (List.mem_cons_of_mem _ hmem)⟩
  · rintro ⟨hkey, h⟩ e he
    obtain ⟨g, hg, hnew⟩ := h e he
    refine ⟨g, hg, fun hmem => ?_⟩
    rcases List.mem_cons.1 hmem with rfl | hmem
    · exact hkey (List.mem_map.2 ⟨e, he, hg.symm⟩)
    · exact hnew hmem

/-- Entries one after the other succeed exactly when each has a key of a field that has not been given,
no key occurs twice and line endings have names of them. What they give is settings with all of their
values replaced. -/
theorem putAll?_eq_some_iff {entries : List (String × String)} {seen : List Field}
    {settings settings' : Settings} :
    putAll? seen settings entries = some settings' ↔
      (∀ e ∈ entries, ∃ field : Field, field.key = e.1 ∧ field ∉ seen) ∧
      (entries.map Prod.fst).Nodup ∧
      (∀ value, ("line_ending", value) ∈ entries → (lineEnding? value).isSome = true) ∧
      settings' = settings.replaced entries := by
  induction entries generalizing seen settings settings' with
  | nil =>
    constructor
    · intro h
      exact ⟨by simp, List.nodup_nil, by simp, (Option.some.inj h).symm⟩
    · rintro ⟨-, -, -, rfl⟩
      rfl
  | cons e entries ih =>
    obtain ⟨key, value⟩ := e
    rw [putAll?_cons_eq_some_iff, List.forall_mem_cons, List.map_cons, List.nodup_cons]
    constructor
    · rintro ⟨field, settings₁, rfl, hseen, hput, h⟩
      obtain ⟨hnew, honce, hending, rfl⟩ := ih.1 h
      obtain ⟨hkey, hnew⟩ := forall_new_cons_iff.1 hnew
      refine ⟨⟨⟨field, rfl, hseen⟩, hnew⟩, ⟨hkey, honce⟩, fun name hname => ?_,
        replaced_cons hput hkey⟩
      rcases List.mem_cons.1 hname with heq | hname
      · obtain ⟨hfield, rfl⟩ := Prod.mk.inj heq
        exact exists_put?_iff.1 ⟨_, hput⟩ (Field.key_injective hfield.symm)
      · exact hending name hname
    · rintro ⟨⟨⟨field, rfl, hseen⟩, hnew⟩, ⟨hkey, honce⟩, hending, rfl⟩
      have hvalue : field = .lineEnding → (lineEnding? value).isSome = true := by
        rintro rfl
        exact hending value List.mem_cons_self
      obtain ⟨settings₁, hput⟩ := exists_put?_iff.2 hvalue
      refine ⟨field, settings₁, rfl, hseen, hput, ih.2 ⟨forall_new_cons_iff.2 ⟨hkey, hnew⟩, honce,
        fun name hname => hending name (List.mem_cons_of_mem _ hname), ?_⟩⟩
      exact (replaced_cons hput hkey).symm

/-! ## Valid settings -/

/-- Settings are valid when their indent is one or more spaces or tabs. -/
theorem isValid_iff {settings : Settings} :
    settings.isValid = true ↔
      settings.indent ≠ "" ∧ ∀ c ∈ settings.indent.toList, c = ' ' ∨ c = '\t' := by
  simp only [isValid, Bool.and_eq_true, bne_iff_ne, List.all_eq_true, Bool.or_eq_true, beq_iff_eq]

/-- Settings with values replaced are valid when an indent among the values is. -/
theorem isValid_replaced_iff {settings : Settings} (hvalid : settings.isValid = true)
    {entries : List (String × String)} (honce : (entries.map Prod.fst).Nodup) :
    (settings.replaced entries).isValid = true ↔
      ∀ value, ("indent", value) ∈ entries → value ≠ "" ∧ ∀ c ∈ value.toList, c = ' ' ∨ c = '\t' := by
  simp only [← lookup_eq_some_iff_mem honce]
  rw [isValid_iff, replaced]
  cases hindent : entries.lookup "indent" with
  | none => simpa using isValid_iff.1 hvalid
  | some value => simp

/-- Settings with values replaced that are not valid have their indent from the values. -/
theorem mem_of_not_isValid_replaced {settings : Settings} (hvalid : settings.isValid = true)
    {entries : List (String × String)} (h : ¬ (settings.replaced entries).isValid = true) :
    ("indent", (settings.replaced entries).indent) ∈ entries := by
  rw [isValid_iff, replaced] at h
  cases hindent : entries.lookup "indent" with
  | none =>
    rw [hindent] at h
    exact absurd (isValid_iff.1 hvalid) h
  | some value =>
    rw [replaced, hindent]
    obtain ⟨before, after, rfl, -⟩ := List.lookup_eq_some_iff.1 hindent
    simp

/-- Entries one after the other give valid settings from the default ones exactly when they are
acceptable. -/
theorem putAll?_default_iff {entries : List (String × String)} {settings : Settings} :
    putAll? [] default entries = some settings ∧ settings.isValid = true ↔
      Acceptable entries ∧ settings = default.replaced entries := by
  have hdefault : default.isValid = true := by decide
  rw [putAll?_eq_some_iff]
  constructor
  · rintro ⟨⟨hknown, honce, hending, rfl⟩, hvalid⟩
    refine ⟨⟨fun e he => ?_, honce, ?_, (isValid_replaced_iff hdefault honce).1 hvalid⟩, rfl⟩
    · obtain ⟨field, hfield, -⟩ := hknown e he
      exact Field.exists_key_eq_iff.1 ⟨field, hfield⟩
    · exact fun value hvalue => isSome_lineEnding?.1 (hending value hvalue)
  · rintro ⟨hentries, rfl⟩
    refine ⟨⟨fun e he => ?_, hentries.once, ?_, rfl⟩,
      (isValid_replaced_iff hdefault hentries.once).2 hentries.indent⟩
    · obtain ⟨field, hfield⟩ := Field.exists_key_eq_iff.2 (hentries.known e he)
      exact ⟨field, hfield, List.not_mem_nil⟩
    · exact fun value hvalue => isSome_lineEnding?.2 (hentries.lineEnding value hvalue)

/-! ## Entries of settings -/

/-- All fields of settings, as entries. -/
def entries (settings : Settings) : List (String × String) := [
  ("manifest_namespace", settings.manifestNamespace),
  ("indent", settings.indent),
  ("line_ending", lineEndingName settings.lineEnding)]

/-- The entries of valid settings are acceptable in any order, and give these settings. -/
theorem acceptable_of_perm {settings : Settings} (hvalid : settings.isValid = true)
    {es : List (String × String)} (h : es.Perm settings.entries) :
    Acceptable es ∧ ∀ base, replaced base es = settings := by
  have honce : (es.map Prod.fst).Nodup := by
    rw [(h.map Prod.fst).nodup_iff]
    show ["manifest_namespace", "indent", "line_ending"].Nodup
    decide
  have hmem : ∀ {key value}, (key, value) ∈ es ↔
      key = "manifest_namespace" ∧ value = settings.manifestNamespace ∨
        key = "indent" ∧ value = settings.indent ∨
        key = "line_ending" ∧ value = lineEndingName settings.lineEnding := by
    intro key value
    simp [h.mem_iff, entries]
  constructor
  · refine ⟨?_, honce, ?_, ?_⟩
    · rintro ⟨key, value⟩ he
      rcases hmem.1 he with ⟨rfl, -⟩ | ⟨rfl, -⟩ | ⟨rfl, -⟩ <;> simp
    · intro value hvalue
      obtain rfl : value = lineEndingName settings.lineEnding := by simpa using hmem.1 hvalue
      rw [← isSome_lineEnding?, lineEnding?_lineEndingName]
      rfl
    · intro value hvalue
      obtain rfl : value = settings.indent := by simpa using hmem.1 hvalue
      exact isValid_iff.1 hvalid
  · intro base
    have hnamespace : es.lookup "manifest_namespace" = some settings.manifestNamespace :=
      (lookup_eq_some_iff_mem honce).2 (hmem.2 (by simp))
    have hindent : es.lookup "indent" = some settings.indent :=
      (lookup_eq_some_iff_mem honce).2 (hmem.2 (by simp))
    have hending : es.lookup "line_ending" = some (lineEndingName settings.lineEnding) :=
      (lookup_eq_some_iff_mem honce).2 (hmem.2 (by simp))
    rw [replaced, hnamespace, hindent, hending, Option.bind_some, lineEnding?_lineEndingName]
    rfl

end ParamClass.Settings
