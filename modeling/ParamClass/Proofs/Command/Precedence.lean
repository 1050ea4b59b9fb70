import ParamClass.Command.FileTree
import ParamClass.Command.Run
import ParamClass.Except

/-!
# Where settings and manifests come from

A command has its settings from its flags, its settings file and the defaults, in this order of
precedence, and its manifest from a file or from standard input. With both at hand it does what the
library does with them (`plan_run`). What counts is which settings and which text come
out, not the way they came in.
-/

namespace ParamClass

open Emission Generation

/-! ## Settings -/

/-- The settings under flags: a flag that is given takes the place of the setting. -/
def Settings.withFlags (settings : Settings) (manifestNamespace : Option String)
    (lineEnding : Option LineEnding) : Settings where
  manifestNamespace := manifestNamespace.getD settings.manifestNamespace
  indent := settings.indent
  lineEnding := lineEnding.getD settings.lineEnding

/-- Flags do not touch the indent, so they keep settings valid. -/
theorem Settings.isValid_withFlags (settings : Settings) (n : Option String)
    (l : Option LineEnding) : (settings.withFlags n l).isValid = settings.isValid := rfl

/-- The default settings are valid. -/
theorem Settings.isValid_default : Settings.default.isValid = true := by decide

/-- Settings that a file gives are valid. -/
theorem Settings.isValid_of_ofFile {path : String} {content : FileContent} {settings : Settings}
    (h : Settings.ofFile path content = .ok settings) : settings.isValid = true := by
  unfold ofFile at h
  split at h
  · cases h
  · unfold ofJson at h
    split at h
    · cases h
    · unfold validate at h
      split at h
      · next hvalid => cases h; exact hvalid
      · cases h

/-- The settings of the settings file, or the default ones without one. -/
def Source.fileSettings (source : Source) (reading : Reading Id) :
    Except Settings.Fault Settings :=
  match source.config with
  | none => .ok .default
  | some path => Settings.ofFile path (reading.file path)

/-- The settings that a source starts from are valid. -/
theorem Source.isValid_fileSettings {source : Source} {reading : Reading Id} {settings : Settings}
    (h : source.fileSettings reading = .ok settings) : settings.isValid = true := by
  unfold fileSettings at h
  split at h
  · cases h
    exact Settings.isValid_default
  · exact Settings.isValid_of_ofFile h

/-! ## Manifests -/

/-- The text of a file that holds a text as UTF-8. -/
theorem FileContent.text_toUTF8 (s : String) : FileContent.text (.ok s.toUTF8) = .ok s := by
  have hvalid : String.fromUTF8? s.toUTF8 = some s := by
    unfold String.fromUTF8?
    rw [String.toUTF8_eq_toByteArray, dif_pos s.isValidUTF8]
    rfl
  rw [text]
  simp only [hvalid]

/-- The bytes of the manifest: standard input or a file. -/
def Source.bytes (source : Source) (reading : Reading Id) : FileContent :=
  if source.path = "-" then .ok reading.input else reading.file source.path

/-- How it is reported that the manifest cannot be read. Only a file has a path to name. -/
def Source.failure (source : Source) (fault : FileFault) : Failure :=
  if source.path = "-" then .file fault else .input source.path fault

/-! ## Commands -/

/-- Where a text goes: to a file if there is one to write, and to standard output without. -/
def Delivery.to (output : Option String) (text : String) : Delivery :=
  match output with
  | none => .print text
  | some path => .save path text

namespace Command

/-- The source of a command. -/
def source : Command → Source
  | generate source _ _ => source
  | params source _ => source

/-- The line ending that a command is told to use. A listing has no choice. -/
def lineEnding? : Command → Option LineEnding
  | generate _ _ lineEnding => lineEnding
  | params _ _ => none

/-- The same command with another source and another line ending to use. -/
def redirect (source : Source) (lineEnding : Option LineEnding) : Command → Command
  | generate _ output _ => generate source output lineEnding
  | params _ isIndented => params source isIndented

/-- The settings of a command: its flags over those it starts from. -/
def resolve (command : Command) (settings : Settings) : Settings :=
  settings.withFlags command.source.manifestNamespace command.lineEnding?

/-- What the library makes of settings and a manifest for a command. -/
def produce (settings : Settings) (manifest : String) : Command → Except Failure Delivery
  | generate _ output _ => (generateFrom manifest settings).map (Delivery.to output)
  | params _ isIndented =>
    (extract manifest settings).map fun parameters => .print (listing isIndented parameters ++ "\n")

/-- The source of a redirected command is the new one. -/
@[simp]
theorem source_redirect (source : Source) (l : Option LineEnding) (command : Command) :
    (command.redirect source l).source = source := by
  cases command <;> rfl

/-- Of the settings, only the namespace counts for the parameters. -/
theorem extract_congr {settings settings' : Settings}
    (h : settings.manifestNamespace = settings'.manifestNamespace) (manifest : String) :
    extract manifest settings = extract manifest settings' := by
  unfold extract
  rw [h]

/-- A command with another source produces the same if its flags and the settings it starts from come
to the same settings. A listing has no line ending to use, but it does not depend on it either. -/
theorem produce_redirect {source : Source} {l : Option LineEnding} {command : Command}
    {base base' : Settings}
    (h : base'.withFlags source.manifestNamespace l = command.resolve base) (manifest : String) :
    (command.redirect source l).produce ((command.redirect source l).resolve base') manifest =
      command.produce (command.resolve base) manifest := by
  cases command with
  | generate _ output _ =>
    rw [← h]
    rfl
  | params source' isIndented =>
    have hnamespace : source.manifestNamespace.getD base'.manifestNamespace =
        source'.manifestNamespace.getD base.manifestNamespace := congrArg Settings.manifestNamespace h
    exact congrArg (Except.map _) (extract_congr hnamespace manifest)

end Command

/-! ## Reading -/

/-- A chain of readings fails with its first step or goes on with the result of it. -/
theorem run_bind {ε α β : Type} (x : ExceptT ε Id α) (f : α → ExceptT ε Id β) :
    (x >>= f).run =
      match x.run with
      | .error fault => .error fault
      | .ok a => (f a).run := by
  show (match x.run with
    | .ok a => f a
    | .error fault => pure (.error fault) : Id (Except ε β)) = _
  cases x.run <;> rfl

/-- A reading that cannot fail gives what is read. -/
theorem run_liftM {ε α : Type} {m : Type → Type} [Monad m] (x : m α) :
    (liftM x : ExceptT ε m α).run = Except.ok <$> x := rfl

section

variable (reading : Reading Id)

/-- Reading the settings takes those of the settings file, under the namespace of the source. -/
theorem Source.settings_run (source : Source) :
    (source.settings reading).run =
      match source.fileSettings reading with
      | .error fault => .error (.settings fault)
      | .ok base => .ok (base.withFlags source.manifestNamespace none) := by
  unfold settings fileSettings
  cases source.config with
  | none => rfl
  | some path =>
    dsimp only
    rw [run_bind, run_liftM]
    dsimp only [Functor.map]
    cases Settings.ofFile path (reading.file path) <;> rfl

/-- Reading the manifest gives the text of its bytes. -/
theorem Source.manifest_run (source : Source) :
    (source.manifest reading).run =
      match (source.bytes reading).text with
      | .error fault => .error (source.failure fault)
      | .ok manifest => .ok manifest := by
  unfold manifest bytes failure
  split
  · rw [run_bind, run_liftM]
    dsimp only [Functor.map]
    cases FileContent.text (.ok reading.input) <;> rfl
  · rw [run_bind, run_liftM]
    dsimp only [Functor.map]
    cases FileContent.text (reading.file source.path) <;> rfl

/-- What is done with the settings and the manifest of a source is done with those settings under its
namespace, if both can be read. Faults of the settings come before those of the manifest. -/
theorem Source.both_run (source : Source) {f : Settings → String → ExceptT Failure Id Delivery}
    {g : Settings → String → Except Failure Delivery}
    (hf : ∀ base manifest,
      (f (base.withFlags source.manifestNamespace none) manifest).run = g base manifest) :
    (source.settings reading >>= fun settings => source.manifest reading >>= f settings).run =
      match source.fileSettings reading with
      | .error fault => .error (.settings fault)
      | .ok base =>
        match (source.bytes reading).text with
        | .error fault => .error (source.failure fault)
        | .ok manifest => g base manifest := by
  rw [run_bind, settings_run]
  cases source.fileSettings reading with
  | error fault => rfl
  | ok base =>
    dsimp only
    rw [run_bind, manifest_run]
    cases (source.bytes reading).text with
    | error fault => rfl
    | ok manifest => exact hf base manifest

/-- A command reads its settings, then its manifest, and then does what the library does. -/
theorem Command.plan_run (command : Command) :
    (command.plan reading).run =
      match command.source.fileSettings reading with
      | .error fault => .error (.settings fault)
      | .ok base =>
        match (command.source.bytes reading).text with
        | .error fault => .error (command.source.failure fault)
        | .ok manifest => command.produce (command.resolve base) manifest := by
  cases command with
  | generate source output lineEnding =>
    refine source.both_run reading fun base manifest => ?_
    show (ExceptT.mk (generateFrom manifest (base.withFlags source.manifestNamespace lineEnding))
      >>= _ : ExceptT Failure Id Delivery).run =
        (generateFrom manifest (base.withFlags source.manifestNamespace lineEnding)).map _
    rw [run_bind, ExceptT.run_mk]
    cases generateFrom manifest (base.withFlags source.manifestNamespace lineEnding) with
    | error failure => rfl
    | ok text => cases output <;> rfl
  | params source isIndented =>
    refine source.both_run reading fun base manifest => ?_
    show (ExceptT.mk (extract manifest (base.withFlags source.manifestNamespace none))
      >>= _ : ExceptT Failure Id Delivery).run =
        (extract manifest (base.withFlags source.manifestNamespace none)).map _
    rw [run_bind, ExceptT.run_mk]
    cases extract manifest (base.withFlags source.manifestNamespace none) <;> rfl

/-- A command line that gives a command carries out what the command delivers. -/
theorem execute_of_command {arguments : List String} {command : Command}
    (h : Invocation.ofArguments arguments = .command command) {σ : Type} (files : FileSystem σ)
    (state : σ) (input : ByteArray) :
    execute files state input arguments =
      match (command.plan (files.reading state input)).run with
      | .error reason => (.failure reason, state)
      | .ok delivery => files.deliver state delivery := by
  unfold execute
  split
  · next hmisuse => rw [h] at hmisuse; cases hmisuse
  · next hversion => rw [h] at hversion; cases hversion
  · next hhelp => rw [h] at hhelp; cases hhelp
  · next hcommand => rw [h] at hcommand; cases hcommand; rfl

/-! ## The whole command -/

/-- A command does what the library does with its settings and its manifest. Its settings are its
flags over those of its file, or over the default ones, and always valid. A fault of the settings file
is told before the manifest is looked at, and a manifest that is no text before anything is made of
it. The same text gives the same for any source, be it standard input or a file, and any division of
the settings between flags and file. Running the command line carries out what the command says, in any
file system. -/
theorem Command.plan_eq_library (command : Command) :
    (∀ fault, command.source.fileSettings reading = .error fault →
      (command.plan reading).run = .error (.settings fault)) ∧
    (∀ base, command.source.fileSettings reading = .ok base →
      (command.resolve base).isValid = true ∧
      (∀ fault, (command.source.bytes reading).text = .error fault →
        (command.plan reading).run = .error (command.source.failure fault)) ∧
      (∀ manifest, (command.source.bytes reading).text = .ok manifest →
        (command.plan reading).run = command.produce (command.resolve base) manifest ∧
        (∀ source output lineEnding, command = .generate source output lineEnding →
          (command.plan reading).run =
            (generateFromFile (source.bytes reading) (command.resolve base)).map (.to output)) ∧
        (∀ (reading' : Reading Id) (source : Source) (lineEnding : Option LineEnding) (base' : Settings),
          source.fileSettings reading' = .ok base' →
          base'.withFlags source.manifestNamespace lineEnding = command.resolve base →
          (source.bytes reading').text = .ok manifest →
          ((command.redirect source lineEnding).plan reading').run = (command.plan reading).run))) ∧
    (∀ {σ : Type} (files : FileSystem σ) (state : σ) input arguments,
      Invocation.ofArguments arguments = .command command →
      execute files state input arguments =
        match (command.plan (files.reading state input)).run with
        | .error reason => (⟨1, "", some ("error: " ++ reason.message)⟩, state)
        | .ok (.print text) => (⟨0, text, none⟩, state)
        | .ok (.save path text) =>
          match files.write state path text.toUTF8 with
          | (.error fault, after) =>
            (⟨1, "", some ("error: " ++ (Failure.file fault).message)⟩, after)
          | (.ok _, after) => (⟨0, "", none⟩, after)) := by
  refine ⟨?_, ?_, ?_⟩
  · intro fault hbase
    rw [plan_run, hbase]
  · intro base hbase
    refine ⟨(base.isValid_withFlags _ _).trans (Source.isValid_fileSettings hbase), ?_, ?_⟩
    · intro fault htext
      rw [plan_run, hbase, htext]
    · intro manifest htext
      have hplan : (command.plan reading).run = command.produce (command.resolve base) manifest := by
        rw [plan_run, hbase, htext]
      refine ⟨hplan, ?_, ?_⟩
      · rintro source output lineEnding rfl
        rw [hplan, generateFromFile, show (source.bytes reading).text = .ok manifest from htext]
        rfl
      · intro reading' source lineEnding base' hbase' hresolve htext'
        rw [hplan, plan_run, source_redirect, hbase', htext']
        exact produce_redirect hresolve manifest
  · intro σ files state input arguments harguments
    rw [execute_of_command harguments]
    cases (command.plan (files.reading state input)).run with
    | error reason => rfl
    | ok delivery =>
      cases delivery with
      | print text => rfl
      | save path text =>
        dsimp only [FileSystem.deliver]
        rcases files.write state path text.toUTF8 with ⟨_ | _, after⟩ <;> rfl

end

/-- A manifest without namespaces. -/
def sampleManifest : String :=
  "<ScriptParameter><Description>Name</Description></ScriptParameter>"

/-- A working directory with this manifest, a settings file that leaves the flags something to say,
one that leaves them nothing, and an empty directory. -/
def sampleTree : FileTree where
  entries := [
    (["work", "m.xml"], .file sampleManifest.toUTF8),
    (["work", "some.json"], .file "\x7b\"indent\":\"  \"\x7d".toUTF8),
    (["work", "all.json"], .file "[\"\",\"  \",\"crlf\"]".toUTF8),
    (["work", "out"], .folder)]
  workingPlace := ["work"]

/-- The manifest in this directory is read as it was written. -/
theorem text_sampleTree (config manifestNamespace : Option String) (input : ByteArray) :
    ((Source.mk "m.xml" config manifestNamespace).bytes
      (FileTree.fileSystem.reading sampleTree input)).text = .ok sampleManifest := by
  have hfile : "m.xml" ≠ "-" := by decide
  have hread : FileTree.fileSystem.read sampleTree "m.xml" = .ok sampleManifest.toUTF8 := rfl
  rw [Source.bytes, if_neg hfile]
  dsimp only [FileSystem.reading]
  rw [hread, FileContent.text_toUTF8]

/-- A run with flags over a settings file generates with all of their settings, as does the run on
standard input with one file of them all. -/
theorem Command.plan_eq_library_of_flags :
    ((Command.generate ⟨"m.xml", some "some.json", some ""⟩ none (some .crlf)).plan
        (FileTree.fileSystem.reading sampleTree ByteArray.empty)).run =
      (generateFrom sampleManifest ⟨"", "  ", .crlf⟩).map .print ∧
    execute FileTree.fileSystem sampleTree ByteArray.empty
        ["generate", "m.xml", "--config", "some.json", "--manifest-namespace", "",
          "--line-ending", "crlf"] =
      execute FileTree.fileSystem sampleTree sampleManifest.toUTF8
        ["generate", "--config=all.json"] := by
  have hsome : (Source.mk "m.xml" (some "some.json") (some "")).fileSettings
      (FileTree.fileSystem.reading sampleTree ByteArray.empty) =
      .ok ⟨Manifest.defaultNamespace, "  ", .lf⟩ := by
    show Settings.ofFile "some.json" (.ok "\x7b\"indent\":\"  \"\x7d".toUTF8) = _
    rw [Settings.ofFile, FileContent.text_toUTF8]
    exact toOption_eq_some.1 (by decide +kernel)
  have hall : (Source.mk "-" (some "all.json") none).fileSettings
      (FileTree.fileSystem.reading sampleTree sampleManifest.toUTF8) = .ok ⟨"", "  ", .crlf⟩ := by
    show Settings.ofFile "all.json" (.ok "[\"\",\"  \",\"crlf\"]".toUTF8) = _
    rw [Settings.ofFile, FileContent.text_toUTF8]
    exact toOption_eq_some.1 (by decide +kernel)
  have hinput : ((Source.mk "-" (some "all.json") none).bytes
      (FileTree.fileSystem.reading sampleTree sampleManifest.toUTF8)).text = .ok sampleManifest := by
    rw [Source.bytes, if_pos (by decide), FileSystem.reading, FileContent.text_toUTF8]
  have hfile := text_sampleTree (some "some.json") (some "") ByteArray.empty
  obtain ⟨hproduce, -, hsame⟩ := ((Command.plan_eq_library
    (FileTree.fileSystem.reading sampleTree .empty)
    (.generate ⟨"m.xml", some "some.json", some ""⟩ none (some .crlf))).2.1 _ hsome).2.2 _ hfile
  have hflags : Invocation.ofArguments ["generate", "m.xml", "--config", "some.json",
      "--manifest-namespace", "", "--line-ending", "crlf"] =
      .command (.generate ⟨"m.xml", some "some.json", some ""⟩ none (some .crlf)) := by
    decide +kernel
  have hplain : Invocation.ofArguments ["generate", "--config=all.json"] =
      .command (.generate ⟨"-", some "all.json", none⟩ none none) := by
    decide +kernel
  have hplan := hsame _ _ none _ hall rfl hinput
  refine ⟨hproduce, ?_⟩
  rw [execute_of_command hflags, execute_of_command hplain, ← hplan]
  rfl

end ParamClass
