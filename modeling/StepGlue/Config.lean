import StepGlue.Text.Blank
import StepGlue.Text.Word

/-! Settings read from named variables. -/

namespace StepGlue

inductive LogLevel
  | trace | debug | info | warn | error
deriving DecidableEq, Repr, Inhabited

/-- Why a setting was refused. -/
inductive ConfigError
  | logLevel (value : String)
  | reportMatches (value : String)
  | maxFileBytes (value : String)
deriving DecidableEq, Repr

def ConfigError.message : ConfigError → String
  | .logLevel v => "invalid configuration: unknown log level '" ++ v
      ++ "', expected one of: trace, debug, info, warn, error"
  | .reportMatches v => "invalid configuration: invalid report-matches value '" ++ v
      ++ "', expected true or false"
  | .maxFileBytes v => "invalid configuration: invalid max file size '" ++ v
      ++ "', expected a byte count"

namespace LogLevel

def text : LogLevel → String
  | .trace => "trace"
  | .debug => "debug"
  | .info => "info"
  | .warn => "warn"
  | .error => "error"

/-- Reads a level in any case. Lower-casing ASCII letters is enough: the one other character with
an ASCII lower case is the Kelvin sign, and no level has a k. -/
def parse (s : String) : Except ConfigError LogLevel :=
  match String.ofList (s.toList.map lowerAscii) with
  | "trace" => .ok .trace
  | "debug" => .ok .debug
  | "info" => .ok .info
  | "warn" | "warning" => .ok .warn
  | "error" => .ok .error
  | _ => .error (.logLevel s)

end LogLevel

structure Config where
  logLevel : LogLevel := .info
  reportMatches : Bool := true
  maxFileBytes : Nat := 4 * 1024 * 1024
deriving DecidableEq, Repr, Inhabited

/-- Reads a switch: blanks around it and the case of ASCII letters do not matter. -/
def parseSwitch (s : String) : Option Bool :=
  match String.ofList ((trim s.toList).map lowerAscii) with
  | "1" | "true" | "yes" | "on" => some true
  | "0" | "false" | "no" | "off" => some false
  | _ => none

/-- The value of a list of decimal digits; `none` if it holds anything else or nothing. -/
def digitsValue (s : List Char) : Option Nat :=
  if s.isEmpty || !s.all (fun c => '0' ≤ c && c ≤ '9') then none
  else some (s.foldl (fun n c => 10 * n + (c.toNat - 48)) 0)

/-- Reads a 64-bit count with an optional plus sign, blanks around it aside. -/
def parseCount (s : String) : Option Nat :=
  let digits := match trim s.toList with
    | '+' :: rest => rest
    | other => other
  (digitsValue digits).filter (· < word64)

namespace Config

/-- Reads the settings from variables; an absent one has its default. -/
def ofVariables (lookup : String → Option String) : Except ConfigError Config := do
  let logLevel ← match lookup "CUKE_GLUE_LSP_LOG_LEVEL" with
    | some v => LogLevel.parse v
    | none => pure .info
  let reportMatches ← match lookup "CUKE_GLUE_LSP_REPORT_MATCHES" with
    | some v => match parseSwitch v with
      | some b => pure b
      | none => throw (.reportMatches v)
    | none => pure true
  let maxFileBytes ← match lookup "CUKE_GLUE_LSP_MAX_FILE_BYTES" with
    | some v => match parseCount v with
      | some n => pure n
      | none => throw (.maxFileBytes v)
    | none => pure (4 * 1024 * 1024)
  return ⟨logLevel, reportMatches, maxFileBytes⟩

def withLogLevel (c : Config) (level : Option LogLevel) : Config :=
  ⟨level.getD c.logLevel, c.reportMatches, c.maxFileBytes⟩

end Config

end StepGlue
