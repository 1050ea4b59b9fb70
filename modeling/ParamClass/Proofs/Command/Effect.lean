import ParamClass.Proofs.Command.FileTree
import ParamClass.Proofs.Command.Precedence

/-!
# What a run leaves behind

A run that fails prints nothing on standard output and leaves all files as they were. A run that
succeeds changes files only if it was told to generate into one: then this file holds the class,
nothing else has changed, and nothing is printed. Settings and manifest are those before the run, so
the file may be one of theirs. All this holds in any file system that writes files whole or not at
all.

A command line that asks for help or for the version does not generate, whatever file it names for the
class: it succeeds, prints what it asks for and changes nothing.
-/

namespace ParamClass

open Generation

/-- The class that a source gives, before anything is written. -/
def Source.Generates (reading : Reading Id) (source : Source) (lineEnding : Option Emission.LineEnding)
    (text : String) : Prop :=
  ∃ base manifest, source.fileSettings reading = .ok base ∧
    (source.bytes reading).text = .ok manifest ∧
    generateFrom manifest (base.withFlags source.manifestNamespace lineEnding) = .ok text

/-- Only generation into a file saves something, and what it saves is the class. -/
theorem Command.plan_eq_save {reading : Reading Id} {command : Command} {path text : String}
    (h : (command.plan reading).run = .ok (.save path text)) :
    ∃ source lineEnding, command = .generate source (some path) lineEnding ∧
      source.Generates reading lineEnding text := by
  rw [plan_run] at h
  split at h
  · cases h
  · next base hbase =>
    split at h
    · cases h
    · next manifest hmanifest =>
      cases command with
      | params source isIndented =>
        obtain ⟨parameters, -, hprint⟩ := map_eq_ok.1 h
        cases hprint
      | generate source output lineEnding =>
        obtain ⟨code, hcode, hto⟩ := map_eq_ok.1 h
        cases output with
        | none => cases hto
        | some file =>
          cases hto
          exact ⟨source, lineEnding, rfl, base, manifest, hbase, hmanifest, hcode⟩

/-- What generation into a file delivers is saved there. -/
theorem Command.plan_ne_print {reading : Reading Id} {source : Source} {path text : String}
    {lineEnding : Option Emission.LineEnding} :
    ((Command.generate source (some path) lineEnding).plan reading).run ≠ .ok (.print text) := by
  intro h
  rw [plan_run] at h
  split at h
  · cases h
  · split at h
    · cases h
    · obtain ⟨code, -, hto⟩ := map_eq_ok.1 h
      cases hto

section

variable {σ π : Type} {files : FileSystem σ} {view : FileSystem.View σ π} {state after : σ}
  {input : ByteArray} {arguments : List String} {outcome : Outcome}

/-- A run fails and leaves the files as they were, or succeeds without a file to write and leaves them
so, too, or saves a class in the file that it was told to write. -/
theorem execute_cases (hfiles : files.WritesWhole view)
    (h : execute files state input arguments = (outcome, after)) :
    (outcome.code ≠ 0 ∧ outcome.output = "" ∧ after = state) ∨
    (outcome.code = 0 ∧ after = state ∧ ∀ source path lineEnding,
      Invocation.ofArguments arguments ≠ .command (.generate source (some path) lineEnding)) ∨
    ∃ source path lineEnding text,
      Invocation.ofArguments arguments = .command (.generate source (some path) lineEnding) ∧
      source.Generates (files.reading state input) lineEnding text ∧ outcome = .success "" ∧
      files.write state path text.toUTF8 = (.ok (), after) := by
  -- Everything is read before the only write, so a run that stops earlier has changed nothing.
  cases hinvocation : Invocation.ofArguments arguments with
  | misuse =>
    rw [execute] at h
    simp only [hinvocation] at h
    cases h
    exact .inl ⟨by decide, rfl, rfl⟩
  | version =>
    rw [execute] at h
    simp only [hinvocation] at h
    cases h
    exact .inr (.inl ⟨rfl, rfl, by simp⟩)
  | help page =>
    rw [execute] at h
    simp only [hinvocation] at h
    cases h
    exact .inr (.inl ⟨rfl, rfl, by simp⟩)
  | command command =>
    rw [execute_of_command hinvocation] at h
    cases hplan : (command.plan (files.reading state input)).run with
    | error reason =>
      rw [hplan] at h
      cases h
      exact .inl ⟨Nat.succ_ne_zero 0, rfl, rfl⟩
    | ok delivery =>
      rw [hplan] at h
      cases delivery with
      | print text =>
        cases h
        refine .inr (.inl ⟨rfl, rfl, ?_⟩)
        rintro _ _ _ ⟨⟩
        exact Command.plan_ne_print hplan
      | save path text =>
        obtain ⟨source, lineEnding, rfl, hgenerates⟩ := Command.plan_eq_save hplan
        simp only [FileSystem.deliver] at h
        rcases hwrite : files.write state path text.toUTF8 with ⟨fault | _, written⟩
        · -- Here the file system is trusted: the write has failed, but it was tried.
          rw [hwrite] at h
          cases h
          exact .inl ⟨Nat.succ_ne_zero 0, rfl, hfiles.eq_of_error hwrite⟩
        · rw [hwrite] at h
          cases h
          exact .inr (.inr ⟨source, path, lineEnding, text, rfl, hgenerates, rfl, hwrite⟩)

/-- In a file system that writes files whole or not at all, a run that fails leaves nothing behind:
standard output is empty and all files are as before. A run that succeeds in generating into a file
leaves the class there, as UTF-8, and prints nothing; all other entries are as before. Any other run
that succeeds leaves everything as before. Among these are the requests for help and for the version,
which print what they ask for. -/
theorem execute_effect (hfiles : files.WritesWhole view)
    (h : execute files state input arguments = (outcome, after)) :
    (outcome.code ≠ 0 → outcome.output = "" ∧ after = state) ∧
    (outcome.code = 0 → ∀ source path lineEnding,
      Invocation.ofArguments arguments = .command (.generate source (some path) lineEnding) →
      outcome.output = "" ∧
      ∃ text place, source.Generates (files.reading state input) lineEnding text ∧
        view.place? state path = some place ∧
        view.at? after place = some (.file text.toUTF8) ∧
        (∀ other, other ≠ place → view.at? after other = view.at? state other) ∧
        files.read after path = .ok text.toUTF8) ∧
    (outcome.code = 0 →
      (∀ source path lineEnding,
        Invocation.ofArguments arguments ≠ .command (.generate source (some path) lineEnding)) →
      after = state) ∧
    (∀ page, Invocation.ofArguments arguments = .help page → outcome = .success page.text) ∧
    (Invocation.ofArguments arguments = .version → outcome = .success versionText) := by
  refine ⟨?_, ?_, ?_, ?_, ?_⟩
  · intro hcode
    rcases execute_cases hfiles h with ⟨-, houtput, rfl⟩ | ⟨hzero, -, -⟩ | ⟨_, _, _, _, -, -, rfl, -⟩
    · exact ⟨houtput, rfl⟩
    · exact absurd hzero hcode
    · exact absurd rfl hcode
  · intro hzero source path lineEnding hinvocation
    rcases execute_cases hfiles h with ⟨hcode, -, -⟩ | ⟨-, -, hnone⟩ |
      ⟨source', path', lineEnding', text, hinvocation', hgenerates, rfl, hwrite⟩
    · exact absurd hzero hcode
    · exact absurd hinvocation (hnone source path lineEnding)
    · rw [hinvocation] at hinvocation'
      cases hinvocation'
      obtain ⟨place, hplace, hreplaced⟩ := hfiles.replaced_of_ok hwrite
      exact ⟨rfl, text, place, hgenerates, hplace, hreplaced⟩
  · intro hzero hnone
    rcases execute_cases hfiles h with ⟨hcode, -, -⟩ | ⟨-, rfl, -⟩ |
      ⟨source, path, lineEnding, _, hinvocation, -, -, -⟩
    · exact absurd hzero hcode
    · rfl
    · exact absurd hinvocation (hnone source path lineEnding)
  · intro page hpage
    rw [execute, hpage] at h
    cases h
    rfl
  · intro hversion
    rw [execute, hversion] at h
    cases h
    rfl

end

/-- The class can be written over its own manifest, which may be named differently then. A path that
cannot be written changes nothing. -/
theorem execute_effect_of_input_file :
    (∃ text after, execute FileTree.fileSystem sampleTree ByteArray.empty
        ["generate", "m.xml", "--manifest-namespace", "", "-o", "/work/out/../m.xml"] =
          (.success "", after) ∧
      generateFrom sampleManifest ⟨"", "\t", .lf⟩ = .ok text ∧
      after.at? ["work", "m.xml"] = some (.file text.toUTF8) ∧
      after.at? ["work", "some.json"] = sampleTree.at? ["work", "some.json"]) ∧
    (execute FileTree.fileSystem sampleTree ByteArray.empty
      ["generate", "m.xml", "--manifest-namespace", "", "-o", "some.json/m.cs"]).2 = sampleTree := by
  constructor
  · have hcode : (execute FileTree.fileSystem sampleTree ByteArray.empty
        ["generate", "m.xml", "--manifest-namespace", "", "-o", "/work/out/../m.xml"]).1 =
          .success "" := by
      decide +kernel
    have hcommand : Invocation.ofArguments
        ["generate", "m.xml", "--manifest-namespace", "", "-o", "/work/out/../m.xml"] =
        .command (.generate ⟨"m.xml", none, some ""⟩ (some "/work/out/../m.xml") none) := by
      decide +kernel
    have hpath : sampleTree.place? "/work/out/../m.xml" = some ["work", "m.xml"] := by
      decide +kernel
    rcases hrun : execute FileTree.fileSystem sampleTree ByteArray.empty
      ["generate", "m.xml", "--manifest-namespace", "", "-o", "/work/out/../m.xml"] with
      ⟨outcome, after⟩
    rw [hrun] at hcode
    cases hcode
    obtain ⟨-, text, place, ⟨base, manifest, hbase, hmanifest, htext⟩, hplace, hfile, hothers, -⟩ :=
      (execute_effect FileTree.writesWhole hrun).2.1 rfl _ _ _ hcommand
    cases hbase
    rw [text_sampleTree] at hmanifest
    cases hmanifest
    obtain rfl : place = ["work", "m.xml"] := Option.some.inj (hplace.symm.trans hpath)
    exact ⟨text, after, rfl, htext, hfile, hothers _ (by decide)⟩
  · have hcode : (execute FileTree.fileSystem sampleTree ByteArray.empty
        ["generate", "m.xml", "--manifest-namespace", "", "-o", "some.json/m.cs"]).1.code ≠ 0 := by
      decide +kernel
    rcases hrun : execute FileTree.fileSystem sampleTree ByteArray.empty
      ["generate", "m.xml", "--manifest-namespace", "", "-o", "some.json/m.cs"] with ⟨outcome, after⟩
    rw [hrun] at hcode
    exact ((execute_effect FileTree.writesWhole hrun).1 hcode).2

/-- A command line with `generate` and a file for the class may ask for help or for the version as
well. Then it succeeds and prints what it asks for, and there is no such file. -/
theorem not_saved_of_help_or_version :
    execute FileTree.fileSystem sampleTree ByteArray.empty
      ["generate", "m.xml", "-o", "out.cs", "--help"] =
        (⟨0, Page.generate.text, none⟩, sampleTree) ∧
    execute FileTree.fileSystem sampleTree ByteArray.empty
      ["-V", "generate", "m.xml", "-o", "out.cs"] = (⟨0, versionText, none⟩, sampleTree) ∧
    Page.generate.text ≠ "" ∧ versionText ≠ "" ∧ sampleTree.at? ["work", "out.cs"] = none := by
  have hhelp : Invocation.ofArguments ["generate", "m.xml", "-o", "out.cs", "--help"] =
      .help .generate := by
    decide +kernel
  have hversion : Invocation.ofArguments ["-V", "generate", "m.xml", "-o", "out.cs"] =
      .version := by
    decide +kernel
  refine ⟨?_, ?_, by decide +kernel, by decide, rfl⟩
  · rw [execute, hhelp]
    rfl
  · rw [execute, hversion]
    rfl

end ParamClass
