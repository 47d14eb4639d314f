import StepGlue.Config
import StepGlue.Server.Message

/-! The command line of the server. -/

namespace StepGlue

/-- Why the arguments are refused. -/
inductive UsageError
  | unexpected (argument : String)
  | noValue
  | repeated
  | badLevel (cause : ConfigError)
deriving DecidableEq, Repr

/-- What the arguments ask for. -/
inductive Command
  | serve (level : Option LogLevel)
  | showVersion
  | showHelp
deriving DecidableEq, Repr

namespace Command

def levelOption : List Char := "--log-level".toList

/-- Takes the value of the level option onto what came before. -/
def withLevel (before : Option LogLevel) (value : String) : Except UsageError LogLevel :=
  match LogLevel.parse value with
  | .error e => .error (.badLevel e)
  | .ok level => if before.isSome then .error .repeated else .ok level

/-- Reads arguments from left to right. One that asks for the version or for help hides those
after it. -/
def parse (level : Option LogLevel) : List String → Except UsageError Command
  | [] => .ok (.serve level)
  | arg :: rest =>
    match arg.toList with
    | '-' :: 'V' :: _ => .ok .showVersion
    | '-' :: 'h' :: _ => .ok .showHelp
    | chars =>
      if chars = "--version".toList then .ok .showVersion
      else if chars = "--help".toList then .ok .showHelp
      else if chars = levelOption then
        match rest with
        | [] => .error .noValue
        | value :: rest =>
          if value.toList.head? == some '-' then .error .noValue
          else match withLevel level value with
            | .ok l => parse (some l) rest
            | .error e => .error e
      else if (levelOption ++ ['=']).isPrefixOf chars then
        match withLevel level (String.ofList (chars.drop (levelOption.length + 1))) with
        | .ok l => parse (some l) rest
        | .error e => .error e
      else if chars = ['-', '-'] && rest.isEmpty then .ok (.serve level)
      else .error (.unexpected arg)

end Command

/-- How the program starts: it serves a client, or ends at once with some output. -/
inductive Launch
  | serve (config : Config)
  | quit (code : Nat) (output : String)
deriving DecidableEq, Repr

def versionText : String := serverName ++ " " ++ serverVersion ++ "\n"

def helpText : String :=
  "Language server that glues Gherkin feature steps to Cucumber step definitions\n\n"
    ++ "Usage: " ++ serverName ++ " [OPTIONS]\n\n"
    ++ "Options:\n"
    ++ "      --log-level <LOG_LEVEL>  "
    ++ "Log level (trace, debug, info, warn, error). Overrides `CUKE_GLUE_LSP_LOG_LEVEL`\n"
    ++ "  -h, --help                   Print help\n"
    ++ "  -V, --version                Print version\n"

/-- The code for arguments or variables that are refused. -/
def usageFailure : Nat := 2

/-- The start of the program with some arguments and variables. Arguments come first, so a
version can be shown whatever the variables are. -/
def Launch.ofArguments (args : List String) (lookup : String → Option String) : Launch :=
  match Command.parse none args with
  | .error _ => .quit usageFailure ""
  | .ok .showVersion => .quit 0 versionText
  | .ok .showHelp => .quit 0 helpText
  | .ok (.serve level) => match Config.ofVariables lookup with
    | .error _ => .quit usageFailure ""
    | .ok config => .serve (config.withLogLevel level)

end StepGlue
