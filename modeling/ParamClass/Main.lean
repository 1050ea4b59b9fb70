import ParamClass.Command.Run

/-!
# The program

Runs the command line in the working directory.
-/

namespace ParamClass

/-- The fault that the system reports. Kinds of errors that hold several faults are told apart by
the code of the error, which may come with a minus sign. -/
def FileFault.ofError : IO.Error → FileFault
  | .noFileOrDirectory .. => .notFound
  | .inappropriateType _ 21 _ => .isDirectory
  | .inappropriateType .. => .notDirectory
  | .invalidArgument _ 36 _ => .nameTooLong
  | .invalidArgument _ 4294967260 _ => .nameTooLong
  | e => .other (toString e)

/-- Reading in the working directory. -/
def systemReading : Reading IO where
  file path := do
    try return .ok (← IO.FS.readBinFile path)
    catch e => return .error (FileFault.ofError e)
  input := do (← IO.getStdin).readBinToEnd

/-- Reports how a run ends and gives its exit code. -/
def report (outcome : Outcome) : IO UInt32 := do
  (← IO.getStdout).putStr outcome.output
  if let some complaint := outcome.complaint then IO.eprintln complaint
  return outcome.code.toUInt32

/-- Carries a delivery out in the working directory. -/
def deliver : Delivery → IO Outcome
  | .print text => return .success text
  | .save path text => do
    try
      IO.FS.writeBinFile path text.toUTF8
      return .success ""
    catch e => return .failure (.file (FileFault.ofError e))

end ParamClass

open ParamClass

/-- Runs the command line. -/
def main (arguments : List String) : IO UInt32 := do
  match Invocation.ofArguments arguments with
  | .misuse => report .misuse
  | .version => report (.success versionText)
  | .help page => report (.success page.text)
  | .command command =>
    match ← (command.plan systemReading).run with
    | .error reason => report (.failure reason)
    | .ok delivery => report (← deliver delivery)
