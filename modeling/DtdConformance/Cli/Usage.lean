import DtdConformance.Cli.Options

/-! # Help

What the command says about its own use.
-/
namespace DtdConformance.Cli
set_option autoImplicit false

def programName : String := "xml-dtd-validate"

def versionText : String := programName ++ " 1.0.0"

def choices (names : List String) : String := "\x7b" ++ ",".intercalate names ++ "\x7d"

def levelChoices : String := choices (Log.Level.all.map Log.Level.name)

def executorChoices : String := choices (Executor.all.map Executor.name)

def linesText (lines : List String) : String := "".intercalate (lines.map (· ++ "\n"))

def usage : String :=
  linesText [
    s!"usage: {programName} [-h] [--json]",
    s!"                        [--log-level {levelChoices}]",
    s!"                        [--workers WORKERS] [--executor {executorChoices}]",
    "                        [--settings SETTINGS] [--stats] [--version]",
    "                        dtd xml [xml ...]"]

def refusal (fault : UsageFault) : String := s!"{programName}: error: {fault.message}"

def helpText : String :=
  usage ++ linesText [
    "",
    "Validate XML element structure against DTD content models.",
    "",
    "positional arguments:",
    "  dtd                   DTD file holding <!ELEMENT> declarations",
    "  xml                   XML document(s) to validate",
    "",
    "options:",
    "  -h, --help            show this help message and exit",
    "  --json                Print results as JSON",
    s!"  --log-level {levelChoices}",
    "                        Logging level (default: WARNING)",
    "  --workers WORKERS     Worker count (default: 4)",
    s!"  --executor {executorChoices}",
    "                        Pool type for multiple documents (default: thread)",
    "  --settings SETTINGS   JSON or YAML settings file",
    "  --stats               Print stage timings and memory usage",
    "  --version             show program's version number and exit"]

end DtdConformance.Cli
