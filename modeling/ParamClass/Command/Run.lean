import ParamClass.Command.Help
import ParamClass.Command.Listing
import ParamClass.File
import ParamClass.Generation.Basic

/-!
# Running commands

A command reads its settings, then its manifest, and then delivers one text: to a file or to
standard output. Nothing is written before that text is complete, so a failure leaves no trace.

`plan` says what is delivered, for any way `m` of reading files. `execute` runs a command line on a
file system.
-/

namespace ParamClass

open Emission

/-- How files and standard input are read. -/
structure Reading (m : Type → Type) where
  /-- Reads the file at a path. -/
  file : String → m FileContent
  /-- Reads standard input. -/
  input : m ByteArray

/-- A text and where it goes. -/
inductive Delivery where
  /-- To standard output. -/
  | print (text : String)
  /-- To the file at a path. -/
  | save (path text : String)
  deriving DecidableEq, Repr

section Plan

variable {m : Type → Type} [Monad m]

/-- Reads the settings of a source: those of its file or the default ones, with its own namespace
if it has one. -/
def Source.settings (reading : Reading m) (source : Source) : ExceptT Failure m Settings := do
  let settings ←
    match source.config with
    | none => pure Settings.default
    | some path =>
      match Settings.ofFile path (← reading.file path) with
      | .ok settings => pure settings
      | .error fault => throw (.settings fault)
  return { settings with
    manifestNamespace := source.manifestNamespace.getD settings.manifestNamespace }

/-- Reads the manifest of a source. -/
def Source.manifest (reading : Reading m) (source : Source) : ExceptT Failure m String := do
  if source.path = "-" then
    match FileContent.text (.ok (← reading.input)) with
    | .ok text => return text
    | .error fault => throw (.file fault)
  else
    match (← reading.file source.path).text with
    | .ok text => return text
    | .error fault => throw (.input source.path fault)

/-- What a command delivers. -/
def Command.plan (reading : Reading m) : Command → ExceptT Failure m Delivery
  | .generate source output lineEnding => do
    let settings ← source.settings reading
    let settings := { settings with lineEnding := lineEnding.getD settings.lineEnding }
    let manifest ← source.manifest reading
    let text ← ExceptT.mk (pure (Generation.generateFrom manifest settings))
    match output with
    | none => return .print text
    | some path => return .save path text
  | .params source isIndented => do
    let settings ← source.settings reading
    let manifest ← source.manifest reading
    let parameters ← ExceptT.mk (pure (Generation.extract manifest settings))
    return .print (listing isIndented parameters ++ "\n")

end Plan

/-- How a run of the program ends. -/
structure Outcome where
  /-- The exit code: 0 for success, 1 for a failure, 2 for a misused command line. -/
  code : Nat
  /-- What is on standard output. -/
  output : String
  /-- The failure, in the words that the program reports it. -/
  complaint : Option String
  deriving DecidableEq, Repr

namespace Outcome

/-- Success, with a text on standard output. -/
def success (output : String) : Outcome := ⟨0, output, none⟩

/-- The end of a run that failed. -/
def failure (reason : Failure) : Outcome := ⟨1, "", some ("error: " ++ reason.message)⟩

/-- The end of a run that was asked for nothing it knows. -/
def misuse : Outcome := ⟨2, "", none⟩

end Outcome

namespace FileSystem

variable {σ : Type}

/-- Reading in a state of a file system, with the given standard input. -/
def reading (files : FileSystem σ) (state : σ) (input : ByteArray) : Reading Id :=
  ⟨files.read state, input⟩

/-- Carries a delivery out in a state of a file system. -/
def deliver (files : FileSystem σ) (state : σ) : Delivery → Outcome × σ
  | .print text => (.success text, state)
  | .save path text =>
    match files.write state path text.toUTF8 with
    | (.error fault, after) => (.failure (.file fault), after)
    | (.ok _, after) => (.success "", after)

end FileSystem

/-- Runs a command line in a state of a file system: how the run ends, and the state afterwards. -/
def execute {σ : Type} (files : FileSystem σ) (state : σ) (input : ByteArray)
    (arguments : List String) : Outcome × σ :=
  match Invocation.ofArguments arguments with
  | .misuse => (.misuse, state)
  | .version => (.success versionText, state)
  | .help page => (.success page.text, state)
  | .command command =>
    match (command.plan (files.reading state input)).run with
    | .error reason => (.failure reason, state)
    | .ok delivery => files.deliver state delivery

end ParamClass
