import ParamClass.Settings.Reading

/-!
# Command lines

A command line is a command, `generate` or `params`, with its options and at most one path in any
order. An option has a long name, some have a letter, and letters can be joined. A value follows
its option as the next argument, or directly: after `=`, or after the letter. After the argument
`--` everything is a path. Flags about messages may also stand before the command, and there the
version can be asked for instead of a command.

Help can be asked for anywhere. Arguments are taken one after the other, so what is wrong before a
request for help or for the version comes first, and what follows it does not matter.
-/

namespace ParamClass

open Emission

/-- Where the parameters come from. -/
structure Source where
  /-- The path of the manifest, or `-` for standard input. -/
  path : String
  /-- The file with the settings. -/
  config : Option String
  /-- The namespace of parameter declarations, if it is not the one of the settings. -/
  manifestNamespace : Option String
  deriving DecidableEq, Repr

/-- What the program is told to do. -/
inductive Command where
  /-- Write the class to a file or to standard output. -/
  | generate (source : Source) (output : Option String) (lineEnding : Option LineEnding)
  /-- List the parameters. -/
  | params (source : Source) (isIndented : Bool)
  deriving DecidableEq, Repr

/-- A page of help. -/
inductive Page where
  /-- About the whole program. -/
  | program
  /-- About `generate`. -/
  | generate
  /-- About `params`. -/
  | params
  /-- About `help`. -/
  | help
  deriving DecidableEq, Repr

/-- What a command line asks for. -/
inductive Invocation where
  /-- It is none. -/
  | misuse
  /-- The version. -/
  | version
  /-- Help. -/
  | help (page : Page)
  /-- A command. -/
  | command (command : Command)
  deriving DecidableEq, Repr

namespace Command

/-! ## Options -/

/-- An option without a value. -/
inductive Flag where
  /-- More messages. It may be repeated. -/
  | verbose
  /-- Fewer messages. -/
  | quiet
  /-- Asks for the version. -/
  | version
  /-- Asks for help. -/
  | help
  /-- An indented listing. -/
  | pretty
  deriving DecidableEq, Repr

/-- An option with a value. -/
inductive Key where
  /-- The file to write. -/
  | output
  /-- The file with the settings. -/
  | config
  /-- The namespace of parameter declarations. -/
  | manifestNamespace
  /-- What ends a line. -/
  | lineEnding
  deriving DecidableEq, Repr

/-- Where options stand: before the command or after one. -/
inductive Context where
  /-- Before the command. -/
  | top
  /-- After `generate`. -/
  | generate
  /-- After `params`. -/
  | params
  deriving DecidableEq, Repr

namespace Context

/-- The flags of a context, with their names and letters. -/
def flags : Context → List (Flag × String × Option Char)
  | top =>
    [(.verbose, "verbose", some 'v'), (.quiet, "quiet", some 'q'), (.help, "help", some 'h'),
      (.version, "version", some 'V')]
  | generate =>
    [(.verbose, "verbose", some 'v'), (.quiet, "quiet", some 'q'), (.help, "help", some 'h')]
  | params =>
    [(.verbose, "verbose", some 'v'), (.quiet, "quiet", some 'q'), (.help, "help", some 'h'),
      (.pretty, "pretty", none)]

/-- The options with a value of a context, with their names and letters. -/
def keys : Context → List (Key × String × Option Char)
  | top => []
  | generate =>
    [(.output, "output", some 'o'), (.config, "config", none),
      (.manifestNamespace, "manifest-namespace", none), (.lineEnding, "line-ending", none)]
  | params => [(.config, "config", none), (.manifestNamespace, "manifest-namespace", none)]

/-- The flag of a name. -/
def flag? (context : Context) (name : String) : Option Flag :=
  (context.flags.find? fun (_, n, _) => n == name).map (·.1)

/-- The flag of a letter. -/
def flagOfLetter? (context : Context) (letter : Char) : Option Flag :=
  (context.flags.find? fun (_, _, l) => l == some letter).map (·.1)

/-- The option with a value of a name. -/
def key? (context : Context) (name : String) : Option Key :=
  (context.keys.find? fun (_, n, _) => n == name).map (·.1)

/-- The option with a value of a letter. -/
def keyOfLetter? (context : Context) (letter : Char) : Option Key :=
  (context.keys.find? fun (_, _, l) => l == some letter).map (·.1)

/-- The page of help that is shown in a context. -/
def page : Context → Page
  | top => .program
  | generate => .generate
  | params => .params

end Context

/-! ## The form of an argument -/

/-- The form of an argument. -/
inductive Form where
  /-- The argument `--`. -/
  | separator
  /-- A long name, with the value after its `=` if it has one. -/
  | long (name : String) (value : Option String)
  /-- Letters after one hyphen. -/
  | letters (letters : List Char)
  /-- Neither: a path or a command. A single hyphen is such an argument. -/
  | plain
  deriving DecidableEq, Repr

/-- The form of an argument. -/
def Form.of (argument : String) : Form :=
  match argument.toList with
  | ['-', '-'] => .separator
  | '-' :: '-' :: rest =>
    match rest.dropWhile (· != '=') with
    | [] => .long (.ofList rest) none
    | _ :: value => .long (.ofList (rest.takeWhile (· != '='))) (some (.ofList value))
  | ['-'] => .plain
  | '-' :: rest => .letters rest
  | _ => .plain

/-! ## Before the command -/

/-- The flags that an argument before the command gives, one after the other; `none` is one that
is unknown there. -/
def leadingFlags (argument : String) : Option (List (Option Flag)) :=
  match Form.of argument with
  | .separator => some [none]
  | .long name none => some [Context.top.flag? name]
  | .long _ (some _) => some [none]
  | .letters letters => some (letters.map Context.top.flagOfLetter?)
  | .plain => none

/-- Takes flags one after the other after the flags `seen`, until one decides what the command line
asks for. -/
def takeFlags (seen : List Flag) : List (Option Flag) → Except Invocation (List Flag)
  | [] => .ok seen
  | none :: _ => .error .misuse
  | some .version :: _ => .error .version
  | some .help :: _ => .error (.help .program)
  | some f :: flags =>
    if f ≠ .verbose ∧ f ∈ seen then .error .misuse else takeFlags (f :: seen) flags

/-! ## After the command -/

/-- What an argument gives. -/
inductive Item where
  /-- A flag. -/
  | flag (flag : Flag)
  /-- An option with its value. -/
  | value (key : Key) (value : String)
  /-- A path. -/
  | path (path : String)
  deriving DecidableEq, Repr

/-- What joined letters give, up to a request for help, and an option whose value has to follow. -/
def letterItems (context : Context) : List Char → Option (List Item × Option Key)
  | [] => some ([], none)
  | c :: cs =>
    match context.flagOfLetter? c with
    | some .help => some ([.flag .help], none)
    | some flag => (letterItems context cs).map fun (items, key) => (.flag flag :: items, key)
    | none =>
      match context.keyOfLetter? c with
      | none => none
      | some key =>
        match cs with
        | [] => some ([], some key)
        | '=' :: value => some ([.value key (.ofList value)], none)
        | value => some ([.value key (.ofList value)], none)

/-- What one argument gives, and an option whose value has to follow. -/
def argumentItems (context : Context) (argument : String) : Option (List Item × Option Key) :=
  match Form.of argument with
  | .separator => none
  | .plain => some ([.path argument], none)
  | .letters letters => letterItems context letters
  | .long name value =>
    match context.flag? name, context.key? name, value with
    | some flag, _, none => some ([.flag flag], none)
    | none, some key, some value => some ([.value key value], none)
    | none, some key, none => some ([], some key)
    | _, _, _ => none

/-- The argument can be the value of the option before it: it has not the form of an option. -/
def isValue (argument : String) : Bool := Form.of argument == .plain

/-- What the arguments after the command give, in order, up to a request for help. -/
def items (context : Context) : List String → Option (List Item)
  | [] => some []
  | argument :: arguments =>
    -- What looks like an option after the separator is a path as well.
    if Form.of argument = .separator then some (arguments.map .path)
    else
      match argumentItems context argument with
      | none => none
      | some (first, none) =>
        if .flag .help ∈ first then some first else (items context arguments).map (first ++ ·)
      | some (first, some key) =>
        match arguments with
        | [] => none
        | value :: arguments =>
          if isValue value then
            (items context arguments).map (first ++ .value key value :: ·)
          else none

/-- The items hold no option twice, `verbose` apart, and at most one path. -/
def areDistinct (items : List Item) : Bool :=
  let flags := items.filterMap fun | .flag f => if f = .verbose then none else some f | _ => none
  let keys := items.filterMap fun | .value key _ => some key | _ => none
  let paths := items.filterMap fun | .path path => some path | _ => none
  flags.Nodup ∧ keys.Nodup ∧ paths.length ≤ 1

/-- The value of an option. -/
def value? (key : Key) (items : List Item) : Option String :=
  items.findSome? fun | .value k value => if k = key then some value else none | _ => none

/-- The file that an option names; `none` if its name is empty. -/
def file? (key : Key) (items : List Item) : Option (Option String) :=
  match value? key items with
  | some "" => none
  | file => some file

/-- The line ending that the items choose; `none` if there is none of that name. -/
def chosenLineEnding? (items : List Item) : Option (Option LineEnding) :=
  match value? .lineEnding items with
  | none => some none
  | some name => (Settings.lineEnding? name).map some

/-- The source that the items name. -/
def source? (items : List Item) : Option Source :=
  (file? .config items).map fun config =>
    ⟨(items.findSome? fun | .path path => some path | _ => none).getD "-", config,
      value? .manifestNamespace items⟩

/-- The command that some items give in a context. -/
def ofItems? (context : Context) (items : List Item) : Option Command := do
  guard (areDistinct items)
  let source ← source? items
  match context with
  | .top => none
  | .generate => return .generate source (← file? .output items) (← chosenLineEnding? items)
  | .params => return .params source (decide (.flag .pretty ∈ items))

end Command

namespace Invocation

/-- What the arguments after a command ask for. A request for help comes last in what they give, and
what is before it has to be in order. -/
def inContext (context : Command.Context) (arguments : List String) : Invocation :=
  match Command.items context arguments with
  | none => .misuse
  | some items =>
    match Command.ofItems? context items with
    | none => .misuse
    | some c => if .flag .help ∈ items then .help context.page else .command c

/-- What the arguments after `help` ask for: help about a command or about the program. -/
def ofTopic : List String → Invocation
  | [] => .help .program
  | ["generate"] => .help .generate
  | ["params"] => .help .params
  | ["help"] => .help .help
  | _ => .misuse

/-- What the name of a command and the arguments after it ask for. -/
def ofName (name : String) (arguments : List String) : Invocation :=
  if name = "generate" then inContext .generate arguments
  else if name = "params" then inContext .params arguments
  else if name = "help" then ofTopic arguments
  else .misuse

/-- What a command line asks for, after the flags `seen`. -/
def after (seen : List Command.Flag) : List String → Invocation
  | [] => .misuse
  | argument :: arguments =>
    match Command.leadingFlags argument with
    | some flags =>
      match Command.takeFlags seen flags with
      | .error invocation => invocation
      | .ok seen => .after seen arguments
    | none => ofName argument arguments

/-- What a command line asks for. -/
def ofArguments (arguments : List String) : Invocation := after [] arguments

end Invocation

end ParamClass
