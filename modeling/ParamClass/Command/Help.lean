import ParamClass.Command.Arguments

/-!
# Help

The pages that the program prints when it is asked for help.
-/

namespace ParamClass

/-- What the program prints when it is asked for its version. -/
def versionText : String := "script-context-gen 0.1.0\n"

namespace Page

/-- What the options of a command start with. One of them is too long to have its meaning beside it,
so each has it below. -/
def commonOptions : List String := [
  "Options:",
  "      --config <CONFIG>",
  "          JSON generator config",
  "  -v, --verbose...",
  "          increase log verbosity (-v info, -vv debug, -vvv trace)",
  "      --manifest-namespace <MANIFEST_NAMESPACE>",
  "          namespace URI of ScriptParameter elements (\"\" for unqualified)",
  "  -q, --quiet",
  "          only log errors"]

/-- What the options of a command end with. -/
def helpOption : List String := [
  "  -h, --help",
  "          Print help"]

/-- The argument of a command. -/
def inputArgument : List String := [
  "Arguments:",
  "  [INPUT]  manifest file, or '-' for stdin [default: -]"]

/-- The lines of a page: what it is about, how that is written, and what can be given. -/
def lines : Page → List String
  | program => [
    "Generate a C# ScriptContext class from automation script parameters",
    "",
    "Usage: script-context-gen [OPTIONS] <COMMAND>",
    "",
    "Commands:",
    "  generate  emit the ScriptContext class for a manifest",
    "  params    print the extracted script parameters as JSON",
    "  help      Print this message or the help of the given subcommand(s)",
    "",
    "Options:",
    "  -v, --verbose...  increase log verbosity (-v info, -vv debug, -vvv trace)",
    "  -q, --quiet       only log errors",
    "  -h, --help        Print help",
    "  -V, --version     Print version"]
  | generate => [
    "emit the ScriptContext class for a manifest",
    "",
    "Usage: script-context-gen generate [OPTIONS] [INPUT]",
    ""] ++ inputArgument ++ [""] ++ commonOptions ++ [
    "  -o, --output <OUTPUT>",
    "          output .cs file (stdout if omitted)",
    "      --line-ending <LINE_ENDING>",
    "          line ending of the generated code [possible values: lf, crlf]"] ++ helpOption
  | params => [
    "print the extracted script parameters as JSON",
    "",
    "Usage: script-context-gen params [OPTIONS] [INPUT]",
    ""] ++ inputArgument ++ [""] ++ commonOptions ++ [
    "      --pretty",
    "          "] ++ helpOption
  | help => [
    "Print this message or the help of the given subcommand(s)",
    "",
    "Usage: script-context-gen help [COMMAND]...",
    "",
    "Arguments:",
    "  [COMMAND]...  Print help for the subcommand(s)"]

/-- The text of a page. -/
def text (page : Page) : String := String.join (page.lines.map (· ++ "\n"))

end Page

end ParamClass
