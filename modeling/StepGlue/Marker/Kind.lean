/-! What a marker reports, and how serious that is. -/

namespace StepGlue

inductive Severity
  | info | warning | error
deriving DecidableEq, Repr, Inhabited

namespace Severity

def id : Severity → String
  | .info => "info"
  | .warning => "warning"
  | .error => "error"

def all : List Severity := [.info, .warning, .error]

def ofId? (s : String) : Option Severity := all.find? (·.id == s)

end Severity

inductive MarkerKind
  | stepdefSyntaxError
  | gherkinSyntaxError
  | stepMatched
  | unmatchedStep
  | multipleStepDefinitions
  | exampleUnmatch
deriving DecidableEq, Repr, Inhabited

namespace MarkerKind

def all : List MarkerKind :=
  [.stepdefSyntaxError, .gherkinSyntaxError, .stepMatched, .unmatchedStep,
    .multipleStepDefinitions, .exampleUnmatch]

def id : MarkerKind → String
  | .stepdefSyntaxError => "stepdef-syntax-error"
  | .gherkinSyntaxError => "gherkin-syntax-error"
  | .stepMatched => "step-matched"
  | .unmatchedStep => "unmatched-step"
  | .multipleStepDefinitions => "multiple-step-definitions"
  | .exampleUnmatch => "scenario-outline-example-unmatch"

def severity : MarkerKind → Severity
  | .stepMatched => .info
  | .unmatchedStep | .exampleUnmatch => .warning
  | .stepdefSyntaxError | .gherkinSyntaxError | .multipleStepDefinitions => .error

def ofId? (s : String) : Option MarkerKind := all.find? (·.id == s)

end MarkerKind

end StepGlue
