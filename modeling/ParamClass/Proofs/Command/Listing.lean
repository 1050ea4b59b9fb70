import ParamClass.Proofs.Command.Precedence
import ParamClass.Proofs.Json.Writing

/-!
# A listing is read back

A listing of parameters is a JSON text in both layouts, and a reader of JSON gets back every field of
every parameter: a string as it was, and `null` for a field that is missing (`decode_listing`). So
two lists of parameters are never listed alike, whatever their layouts.
-/

namespace ParamClass

open Json

/-! ## What a listing says -/

/-- A string of JSON, or `null` for none. -/
def Json.Data.ofOption : Option String → Data
  | none => .null
  | some content => .string content

/-- A parameter as a value of JSON: an object with its four fields in order. -/
def Parameter.data (p : Parameter) : Data :=
  .object [
    ("id", .ofOption p.id),
    ("type", .ofOption p.type),
    ("values", .ofOption p.values),
    ("description", .ofOption p.description)]

/-- Parameters as a value of JSON. -/
def dataOfParameters (ps : List Parameter) : Data := .list (ps.map Parameter.data)

/-- A string is told from another one and from none. -/
theorem Json.Data.ofOption_inj {s t : Option String} : Data.ofOption s = .ofOption t ↔ s = t := by
  constructor
  · intro h
    cases s <;> cases t <;> cases h <;> rfl
  · exact congrArg _

/-- A parameter is told from any other one. -/
theorem Parameter.data_injective : Function.Injective Parameter.data := by
  intro p q h
  simp only [Parameter.data, Data.object.injEq, List.cons.injEq, Prod.mk.injEq, true_and, and_true,
    Data.ofOption_inj] at h
  cases p
  cases q
  rw [Parameter.mk.injEq]
  exact h

/-- Parameters are told from any other ones. -/
theorem dataOfParameters_injective : Function.Injective dataOfParameters := fun _ _ h =>
  List.map_injective_iff.2 Parameter.data_injective (Data.list.inj h)

/-! ## Listings are JSON texts -/

/-- A field is written as the string or the `null` that it is. -/
theorem Json.Value.data_ofOption (s : Option String) : (Value.ofOption s).data = .ofOption s := by
  cases s <;> rfl

/-- A parameter is written as what it is as a value of JSON. -/
theorem Parameter.data_toJson (p : Parameter) : p.toJson.data = p.data := by
  simp only [toJson, Value.data, dataOfEntries, Value.data_ofOption, data]

/-- Parameters are written as what they are as a value of JSON. -/
theorem data_toJson_list (ps : List Parameter) :
    (Value.list (ps.map Parameter.toJson)).data = dataOfParameters ps := by
  have helements : dataOfElements (ps.map Parameter.toJson) = ps.map Parameter.data := by
    induction ps with
    | nil => rfl
    | cons p ps ih => rw [List.map_cons, dataOfElements, p.data_toJson, ih, List.map_cons]
  rw [Value.data, helements, dataOfParameters]

/-- A listing is a JSON text of its parameters, in both layouts. -/
theorem documentText_listing (isIndented : Bool) (ps : List Parameter) :
    DocumentText (listing isIndented ps) (dataOfParameters ps) := by
  rw [← data_toJson_list]
  cases isIndented with
  | false => exact Value.documentText_compact _
  | true => exact Value.documentText_indented _

/-! ## What is printed -/

/-- What a command for a listing delivers: a listing of the parameters that are extracted with its
settings from its manifest. -/
theorem Command.params_run_eq_ok_iff (reading : Reading Id) {source : Source} {isIndented : Bool}
    {delivery : Delivery} :
    ((Command.params source isIndented).plan reading).run = .ok delivery ↔
      ∃ base manifest ps, source.fileSettings reading = .ok base ∧
        (source.bytes reading).text = .ok manifest ∧
        Generation.extract manifest (base.withFlags source.manifestNamespace none) = .ok ps ∧
        delivery = .print (listing isIndented ps ++ "\n") := by
  have hrun := Command.plan_run reading (.params source isIndented)
  rw [hrun]
  dsimp only [Command.source, Command.produce, Command.resolve, Command.lineEnding?]
  constructor
  · intro h
    split at h
    · exact absurd h (by simp)
    · next base hbase =>
      split at h
      · exact absurd h (by simp)
      · next manifest hmanifest =>
        obtain ⟨ps, hps, rfl⟩ := map_eq_ok.1 h
        exact ⟨base, manifest, ps, hbase, hmanifest, hps, rfl⟩
  · rintro ⟨base, manifest, ps, hbase, hmanifest, hps, rfl⟩
    rw [hbase]
    dsimp only
    rw [hmanifest]
    dsimp only
    rw [hps]
    rfl

/-- A command line that asks for a listing prints one, with a newline, exactly when parameters can be
extracted with its settings from its manifest. -/
theorem execute_params_eq_success_iff {arguments : List String} {source : Source} {isIndented : Bool}
    (h : Invocation.ofArguments arguments = .command (.params source isIndented)) {σ : Type}
    (files : FileSystem σ) (state : σ) (input : ByteArray) (output : String) :
    (execute files state input arguments).1 = .success output ↔
      ∃ base manifest ps, source.fileSettings (files.reading state input) = .ok base ∧
        (source.bytes (files.reading state input)).text = .ok manifest ∧
        Generation.extract manifest (base.withFlags source.manifestNamespace none) = .ok ps ∧
        output = listing isIndented ps ++ "\n" := by
  rw [execute_of_command h]
  constructor
  · intro houtput
    split at houtput
    · exact absurd (congrArg Outcome.code houtput) (Nat.succ_ne_zero 0)
    · next delivery hrun =>
      obtain ⟨base, manifest, ps, hbase, hmanifest, hps, rfl⟩ :=
        (Command.params_run_eq_ok_iff (files.reading state input)).1 hrun
      exact ⟨base, manifest, ps, hbase, hmanifest, hps, (congrArg Outcome.output houtput).symm⟩
  · rintro ⟨base, manifest, ps, hbase, hmanifest, hps, rfl⟩
    rw [(Command.params_run_eq_ok_iff (files.reading state input)).2 ⟨base, manifest, ps, hbase,
      hmanifest, hps, rfl⟩]
    rfl

/-- A listing is a JSON text in both layouts, of one value only, which decoding gives: an object for
each parameter, with its four fields in order, every string as it was and `null` for none. So different
parameters are listed differently, also in different layouts. The indented layout is the compact one but
for spaces outside strings. This is what a command line for a listing prints, with a newline. -/
theorem decode_listing (ps : List Parameter) :
    (∀ isIndented, (∀ v, DocumentText (listing isIndented ps) v ↔ v = dataOfParameters ps) ∧
      decode (listing isIndented ps) = some (dataOfParameters ps)) ∧
    (∀ isIndented isIndented' qs, listing isIndented ps = listing isIndented' qs → ps = qs) ∧
    withoutSpaces .outside (listing true ps).toList = (listing false ps).toList ∧
    (∀ arguments source isIndented, Invocation.ofArguments arguments =
        .command (.params source isIndented) →
      ∀ {σ : Type} (files : FileSystem σ) (state : σ) input output,
      ((execute files state input arguments).1 = .success output ↔
        ∃ base manifest qs, source.fileSettings (files.reading state input) = .ok base ∧
          (source.bytes (files.reading state input)).text = .ok manifest ∧
          Generation.extract manifest (base.withFlags source.manifestNamespace none) = .ok qs ∧
          output = listing isIndented qs ++ "\n")) := by
  have hdecode : ∀ isIndented qs, decode (listing isIndented qs) = some (dataOfParameters qs) :=
    fun isIndented qs => decode_eq_some_iff.2 (documentText_listing isIndented qs)
  refine ⟨fun isIndented => ⟨fun v => ⟨fun h => ?_, ?_⟩, hdecode isIndented ps⟩, ?_, ?_, ?_⟩
  · exact h.unique (documentText_listing isIndented ps)
  · rintro rfl
    exact documentText_listing isIndented ps
  · intro isIndented isIndented' qs h
    have hqs := hdecode isIndented' qs
    rw [← h, hdecode] at hqs
    exact dataOfParameters_injective (Option.some.inj hqs)
  · exact ((Value.list (ps.map Parameter.toJson)).leaves_compact 0).withoutSpaces_eq
  · intro arguments source isIndented h σ files state input output
    exact execute_params_eq_success_iff h files state input output

/-- A missing field, an empty one and one that says `null` are told apart, and a description with a
quote, a backslash and control characters is read back. The program lists the parameter of the sample
manifest. -/
theorem decode_listing_of_null :
    decode (listing true [⟨none, some "", some "null", some "\"\\\n\x01"⟩]) =
      some (.list [.object [("id", .null), ("type", .string ""), ("values", .string "null"),
        ("description", .string "\"\\\n\x01")]]) ∧
    listing true [⟨none, none, none, none⟩] ≠ listing false [⟨none, none, some "null", none⟩] ∧
    (execute FileTree.fileSystem sampleTree ByteArray.empty
        ["params", "m.xml", "--manifest-namespace", ""]).1 =
      .success (listing false [⟨none, none, none, some "Name"⟩] ++ "\n") := by
  have hcommand : Invocation.ofArguments ["params", "m.xml", "--manifest-namespace", ""] =
      .command (.params ⟨"m.xml", none, some ""⟩ false) := by
    decide +kernel
  refine ⟨((decode_listing _).1 true).2, fun heq => ?_, ?_⟩
  · have h := (decode_listing _).2.1 true false _ heq
    exact absurd h (by decide)
  · refine ((decode_listing []).2.2.2 _ _ _ hcommand _ _ _ _).2 ⟨.default, sampleManifest, _, rfl,
      text_sampleTree none (some "") ByteArray.empty, ?_, rfl⟩
    exact toOption_eq_some.1 (by decide +kernel)

end ParamClass
