import RequestBus.CommandLine.Invocation

namespace RequestBus.CommandLine

def programName : String := "cse-bus"

def versionText : String := programName ++ " 0.1.0\n"

namespace Level

def about : Level → String
  | .program => "Consume API requests from AMQP/MQTT and publish the replies."
  | .run => "Connect to the configured brokers and serve requests until Ctrl+C"
  | .config => "Manage the configuration file"
  | .completions => "Generate shell completion script to stdout"
  | .check => "Load and validate the config file, then print a summary"
  | .init => "Write a starter config.toml"
  | .schema => "Dump the full configuration JSON Schema to stdout"

def usage : Level → String
  | .program => programName ++ " [OPTIONS] <COMMAND>"
  | .run => programName ++ " run [OPTIONS]"
  | .config => programName ++ " config [OPTIONS] <COMMAND>"
  | .completions => programName ++ " completions [OPTIONS] <SHELL>"
  | .check => programName ++ " config check [OPTIONS]"
  | .init => programName ++ " config init [OPTIONS]"
  | .schema => programName ++ " config schema [OPTIONS]"

def options (l : Level) : List (String × String) :=
  (if l = .init then [("--force", "Overwrite an existing config file")] else []) ++
  [ ("--config-dir <CONFIG_DIR>",
      "Directory holding config.toml (default: $CSE_BUS_CONFIG_DIR or ~/.cse-bus)"),
    ("-h, --help", "Print help") ] ++
  if l = .program then [("-V, --version", "Print version")] else []

end Level

def block (heading : String) (entries : List (String × String)) : List String :=
  if entries = [] then []
  else "" :: heading :: entries.map fun e => "  " ++ e.1 ++ "  " ++ e.2

def helpText (l : Level) : String :=
  let commands := l.commands.map fun c => (c.1, c.2.about)
  let shells := if l = .completions then Shell.all.map fun s => (s.name, "") else []
  String.intercalate "\n"
    ([l.about, "", "Usage: " ++ l.usage] ++ block "Commands:" commands ++
      block "Shells:" shells ++ block "Options:" l.options ++ [""])

def words (ws : List String) : String := String.intercalate " " ws

def allCommands : List String :=
  (Level.program.commands ++ Level.config.commands).map (·.1) ++ [helpCommand]

def completionScript (s : Shell) : String :=
  match s with
  | .bash => "complete -W \"" ++ words allCommands ++ "\" " ++ programName ++ "\n"
  | .fish => "complete -c " ++ programName ++ " -f -a \"" ++ words allCommands ++ "\"\n"
  | .zsh => "#compdef " ++ programName ++ "\ncompadd " ++ words allCommands ++ "\n"
  | .powershell =>
    "Register-ArgumentCompleter -Native -CommandName '" ++ programName ++
      "' -ScriptBlock \x7b\n    -split '" ++ words allCommands ++ "'\n\x7d\n"
  | .elvish =>
    "set edit:completion:arg-completer[" ++ programName ++ "] = \x7b|@words|\n    put " ++
      words allCommands ++ "\n\x7d\n"

def misuseText : String :=
  "error: the arguments make no sense\n\nUsage: " ++ Level.program.usage ++
    "\n\nFor more information, try '--help'.\n"

end RequestBus.CommandLine
