import LeibnizSieve.CommandLine.Arguments

/-!
What a program tells about itself: help on its three topics, and its version.
-/

namespace LeibnizSieve.CommandLine

def version : String := "0.3.0"

def versionLine (program : String) : String :=
  program ++ " " ++ version ++ "\n"

def helpText (program about : String) : Topic → String
  | .program =>
    about ++ "\n\n"
      ++ "Usage: " ++ program ++ " [OPTIONS] [COMMAND]\n\n"
      ++ "Commands:\n"
      ++ "  completions  Generate shell completion scripts\n"
      ++ "  help         Print this message or the help of the given subcommand(s)\n\n"
      ++ "Options:\n"
      ++ "      --config <PATH>  Path to a TOML configuration file\n"
      ++ "  -h, --help           Print help\n"
      ++ "  -V, --version        Print version\n"
  | .completions =>
    "Generate shell completion scripts\n\n"
      ++ "Usage: " ++ program ++ " completions <SHELL>\n\n"
      ++ "Arguments:\n"
      ++ "  <SHELL>  Shell to generate completions for [possible values: "
      ++ ", ".intercalate (Shell.all.map Shell.name) ++ "]\n\n"
      ++ "Options:\n"
      ++ "  -h, --help  Print help\n"
  | .help =>
    "Print this message or the help of the given subcommand(s)\n\n"
      ++ "Usage: " ++ program ++ " help [COMMAND]...\n\n"
      ++ "Arguments:\n"
      ++ "  [COMMAND]...  Print help for the subcommand(s)\n"

end LeibnizSieve.CommandLine
