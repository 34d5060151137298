import FancyTokens.CommandLine.Arguments
import FancyTokens.Language
import FancyTokens.Output.Format

/-!
# Pages

What the command prints about itself, the language and the formats.
-/
namespace FancyTokens
namespace CommandLine

/-- How the command is called, in one line. -/
def usage : String :=
  "Usage: fancylex [OPTIONS] [path]\n"

def Page.text : Page → String
  | help =>
    "Tokenize Fancy source code for syntax highlighting\n\n" ++ usage ++
    "\nArguments:\n" ++
    "  [path]  Path to the Fancy file (\"-\" or omitted: read stdin)\n" ++
    "\nOptions:\n" ++
    "  -f, --format <format>  Output format (raw, json, yaml); " ++
    "defaults to the configured format\n" ++
    "  -c, --config <config>  Configuration file layered over the built-in defaults\n" ++
    "  -s, --set <KEY=VALUE>  Override one setting, e.g. lexer.stripall=true (repeatable)\n" ++
    "      --unprocessed      Tokenize the input exactly as read, skipping preprocessing\n" ++
    "      --info             Show the lexer's name, aliases, filename patterns and mimetypes\n" ++
    "      --list-formats     List available output formats\n" ++
    "  -h, --help             Print help\n" ++
    "  -V, --version          Print version\n"
  | version => "fancylex 0.1.0\n"

/-- What the command prints if its arguments cannot be understood. -/
def misuse : String :=
  "error: unexpected arguments\n\n" ++ usage ++ "\nFor more information, try '--help'.\n"

/-- The page about a language. -/
def languagePage (language : Language) : String :=
  let line (label : String) (values : List String) : String :=
    label ++ ", ".intercalate values ++ "\n"
  line "name:      " [language.name] ++ line "aliases:   " language.aliases ++
    line "filenames: " language.fileNames ++ line "mimetypes: " language.mediaTypes

/-- The page about the output formats. -/
def formatsPage : String :=
  "Available output formats:\n\n" ++ String.join (OutputFormat.all.map fun format =>
    s!"  {format.name}\n    {format.description}\n\n")

end CommandLine
end FancyTokens
