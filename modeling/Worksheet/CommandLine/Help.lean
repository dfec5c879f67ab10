import Worksheet.Text

/-!
# Help

The texts that explain how the program and its commands are called.
-/

namespace Worksheet.Help

/-- How the program is called. -/
def program : Text := Text.join ['\n'] <| List.map lit [
  "usage: edval [-h] [--version] \x7bcheck,fix\x7d ...",
  "",
  "Educational Content Validator - check worksheet HTML for authoring mistakes",
  "",
  "positional arguments:",
  "  \x7bcheck,fix\x7d  Commands",
  "    check      Report problems in documents",
  "    fix        Apply suggested fixes to documents",
  "",
  "options:",
  "  -h, --help   show this help message and exit",
  "  --version    show program's version number and exit"]

/-- What the helps on both commands say about operands and flags. -/
def shared : List String := [
  "",
  "positional arguments:",
  "  paths                 Documents to validate",
  "",
  "options:",
  "  -h, --help            show this help message and exit",
  "  --profile \x7bdefault,images_only\x7d",
  "                        Bundled settings profile (default: default)",
  "  --config CONFIG       Path to a YAML settings file (overrides --profile)",
  "  --log-level \x7bsilent,info,verbose,debug\x7d",
  "                        Log verbosity level (default: info, or EDVAL_LOG_LEVEL",
  "                        env var)",
  "  --log-channel LOG_CHANNEL",
  "                        Comma-separated log channels to show",
  "                        (engine,extract,rule,fix,system). Default: all"]

/-- How the command is called that reports problems. -/
def check : Text := Text.join ['\n'] <| List.map lit <| [
  "usage: edval check [-h] [--profile \x7bdefault,images_only\x7d] [--config CONFIG]",
  "                   [--log-level \x7bsilent,info,verbose,debug\x7d]",
  "                   [--log-channel LOG_CHANNEL] [--format \x7btext,json\x7d]",
  "                   paths [paths ...]"] ++ shared ++ [
  "  --format \x7btext,json\x7d  Output format (default: text)"]

/-- How the command is called that applies fixes. -/
def fix : Text := Text.join ['\n'] <| List.map lit <| [
  "usage: edval fix [-h] [--profile \x7bdefault,images_only\x7d] [--config CONFIG]",
  "                 [--log-level \x7bsilent,info,verbose,debug\x7d]",
  "                 [--log-channel LOG_CHANNEL] [--dry-run]",
  "                 paths [paths ...]"] ++ shared ++ [
  "  --dry-run             Report how many fixes would be applied without writing",
  "                        files"]

end Worksheet.Help
