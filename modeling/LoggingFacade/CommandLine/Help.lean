import LoggingFacade.Text.Padded

/-!
# Commands and what is said about them

The commands of the program, and the texts that describe how to use it.
-/

namespace LoggingFacade

inductive Command where
  | providers
  | plugins
  | check
  | config
  deriving DecidableEq, Repr

namespace Command

def all : List Command := [providers, plugins, check, config]

def name : Command → String
  | providers => "providers"
  | plugins => "plugins"
  | check => "check"
  | config => "config"

/-- The name as a constructor in a debugging view. -/
def viewName : Command → String
  | providers => "Providers"
  | plugins => "Plugins"
  | check => "Check"
  | config => "Config"

def purpose : Command → String
  | providers => "List discovered providers and the backend that would be selected"
  | plugins => "List registered component plugins"
  | check => "Build the declared components and report failures"
  | config => "Print the effective configuration as TOML"

def ofName? (name : String) : Option Command := all.find? (·.name == name)

@[simp] theorem ofName?_name (c : Command) : ofName? c.name = some c := by
  cases c <;> rfl

end Command

namespace Help

def programName : String := "lumber"

/-- The answer to a question for the version. -/
def version : String := programName ++ " 0.1.0\n"

def purpose : String := "Lumber - logging backend discovery and component checks"

def helpPurpose : String := "Print this message or the help of the given subcommand(s)"

/-- Rows of a term and its meaning, the meanings below each other. -/
def table (rows : List (String × String)) : String :=
  let width := (rows.map fun row => row.1.length).foldl max 0
  String.join (rows.map fun row => "  " ++ Text.padRight width row.1 ++ "  " ++ row.2 ++ "\n")

def configOption : String × String := ("-c, --config <CONFIG>", "Path to configuration file")

def helpOption : String × String := ("-h, --help", "Print help")

def versionOption : String × String := ("-V, --version", "Print version")

def usage (form : String) : String := "Usage: " ++ programName ++ " " ++ form ++ "\n"

/-- Help on the program as a whole. -/
def program : String :=
  purpose ++ "\n\n" ++ usage "[OPTIONS] <COMMAND>" ++ "\nCommands:\n" ++
    table (Command.all.map (fun c => (c.name, c.purpose)) ++ [("help", helpPurpose)]) ++
    "\nOptions:\n" ++ table [configOption, helpOption, versionOption]

/-- Help on one command. -/
def command (c : Command) : String :=
  c.purpose ++ "\n\n" ++ usage (c.name ++ " [OPTIONS]") ++
    "\nOptions:\n" ++ table [configOption, helpOption]

/-- Help on asking for help. -/
def help : String :=
  helpPurpose ++ "\n\n" ++ usage "help [COMMAND]..." ++
    "\nArguments:\n" ++ table [("[COMMAND]...", "Print help for the subcommand(s)")]

end Help
end LoggingFacade
