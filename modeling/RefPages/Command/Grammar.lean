import RefPages.Text.Lines

/-!
# The options of the command line

* `Switch` are the things an option can do, `OptionSpec` its spellings.
* `Grammar` is what one command understands: its options, what it takes besides them, and the texts
  that explain it. `mainGrammar` stands in front of the command's name, `extractGrammar` and
  `showGrammar` after it.
-/

set_option autoImplicit false
namespace RefPages
namespace Command

open Text

/-- What an option does. -/
inductive Switch where
  | help
  | verbose
  | quiet
  | config
  | source
  | output
  | dryRun
  deriving DecidableEq, Repr

/-- The spellings of an option, and whether a value follows it. -/
structure OptionSpec where
  switch : Switch
  spellings : List String
  takesValue : Bool := false
  deriving DecidableEq, Repr

/-- How an option is named in messages. -/
def OptionSpec.name (spec : OptionSpec) : String :=
  joinWith "/" spec.spellings

/-- What a command takes besides options: nothing, a path, or the name and the arguments of another
command. -/
inductive Operand where
  | none
  | path
  | command
  deriving DecidableEq, Repr

/-- How a missing operand is named in messages. -/
def Operand.name : Operand → String
  | .none => ""
  | .path => "path"
  | .command => "command"

/-- What a command understands. -/
structure Grammar where
  program : String
  usage : String
  details : String
  options : List OptionSpec
  operand : Operand
  deriving Repr

/-- The options of every command. -/
def commonOptions : List OptionSpec :=
  [⟨.help, ["-h", "--help"], false⟩, ⟨.verbose, ["-v", "--verbose"], false⟩,
   ⟨.quiet, ["-q", "--quiet"], false⟩]

/-- The names of the commands. -/
def commandNames : List String := ["extract", "show"]

/-- What stands in front of the command's name. -/
def mainGrammar : Grammar where
  program := "opdocs"
  usage := "usage: opdocs [-h] [-v] [-q] \x7bextract,show\x7d ...\n"
  details := joinLines [
    "",
    "Generate API reference pages from assertion operation sources.",
    "",
    "positional arguments:",
    "  \x7bextract,show\x7d",
    "    extract       Scan the operations tree and write one document per",
    "                  operation.",
    "    show          Print the document generated for a single source file.",
    "",
    "options:",
    "  -h, --help      show this help message and exit",
    "  -v, --verbose   Increase log verbosity for troubleshooting.",
    "  -q, --quiet     Only log warnings and errors to the console.",
    ""]
  options := commonOptions
  operand := .command

/-- The lines that explain the options of every command. -/
def commonDetails : List String :=
  ["options:",
   "  -h, --help       show this help message and exit",
   "  -v, --verbose    Increase log verbosity for troubleshooting.",
   "  -q, --quiet      Only log warnings and errors to the console.",
   "  --config CONFIG  Path to .opdocs.yml or the directory containing it",
   "                   (defaults to current directory)."]

/-- What the command that writes pages understands. -/
def extractGrammar : Grammar where
  program := "opdocs extract"
  usage := joinLines [
    "usage: opdocs extract [-h] [-v] [-q] [--config CONFIG] [--source SOURCE]",
    "                      [--output OUTPUT] [--dry-run]",
    ""]
  details := joinLines ([""] ++ commonDetails ++ [
    "  --source SOURCE  Root of the source tree to scan (overrides source_root).",
    "  --output OUTPUT  Directory that receives the category folders (overrides",
    "                   output_root).",
    "  --dry-run        Render documents and report counts without writing files.",
    ""])
  options := commonOptions ++
    [⟨.config, ["--config"], true⟩, ⟨.source, ["--source"], true⟩, ⟨.output, ["--output"], true⟩,
     ⟨.dryRun, ["--dry-run"], false⟩]
  operand := .none

/-- What the command that prints a page understands. -/
def showGrammar : Grammar where
  program := "opdocs show"
  usage := "usage: opdocs show [-h] [-v] [-q] [--config CONFIG] path\n"
  details := joinLines ([
    "",
    "positional arguments:",
    "  path             Source file to render.",
    ""] ++ commonDetails ++ [""])
  options := commonOptions ++ [⟨.config, ["--config"], true⟩]
  operand := .path

/-- The help of a command. -/
def Grammar.help (g : Grammar) : String :=
  g.usage ++ g.details

end Command
end RefPages
