/-!
# Kinds of findings

Every finding is of one of the kinds below. A kind belongs to a domain, which fixes whether its
findings are errors or warnings, and has an identifier under which messages are looked up.
-/

namespace MasCheck

inductive Severity
  | error
  | warning
  deriving DecidableEq, Repr

/-- The groups of kinds: findings about the form of a source, and errors and warnings about what
MAS files and test scripts say. -/
inductive Domain
  | form
  | masError
  | masWarning
  | testError
  | testWarning
  deriving DecidableEq, Repr

inductive Kind
  /-- A token that does not continue the rule at hand. -/
  | inputMismatch
  /-- The same outside of any rule. -/
  | unexpectedInput
  /-- A token where nothing that could be named was possible. -/
  | noViableAlternative
  | unrecognizedInput
  | unclosedDouble
  | unclosedSingle
  | environmentMissing
  | environmentNotArchive
  | agentFileMissing
  | agentFileExtension
  | agentFileParameterUnknown
  | agentFileUndeclared
  | launchNumberInvalid
  | constraintNumberInvalid
  | resourceUnreadable
  | environmentRepeated
  | agentFileNameRepeated
  | agentFileParameterRepeated
  | agentFileUnused
  | initKeyRepeated
  | wildcardUnconditional
  | constraintRepeated
  | conditionWithoutEnvironment
  | launchPolicyEmpty
  | masMissing
  | timeoutInvalid
  | agentUnknown
  | agentRepeated
  deriving DecidableEq, Repr

namespace Severity

def text : Severity → String
  | error => "error"
  | warning => "warning"

end Severity

namespace Domain

def all : List Domain :=
  [form, masError, masWarning, testError, testWarning]

def name : Domain → String
  | form => "syntax"
  | masError => "mas.error"
  | masWarning => "mas.warning"
  | testError => "test.error"
  | testWarning => "test.warning"

def ofName? (name : String) : Option Domain :=
  all.find? fun d ↦ d.name = name

def severity : Domain → Severity
  | form => .error
  | masError => .error
  | masWarning => .warning
  | testError => .error
  | testWarning => .warning

end Domain

namespace Kind

def all : List Kind :=
  [inputMismatch, unexpectedInput, noViableAlternative, unrecognizedInput, unclosedDouble,
    unclosedSingle, environmentMissing, environmentNotArchive, agentFileMissing,
    agentFileExtension, agentFileParameterUnknown, agentFileUndeclared, launchNumberInvalid,
    constraintNumberInvalid, resourceUnreadable, environmentRepeated, agentFileNameRepeated,
    agentFileParameterRepeated, agentFileUnused, initKeyRepeated, wildcardUnconditional,
    constraintRepeated, conditionWithoutEnvironment, launchPolicyEmpty, masMissing,
    timeoutInvalid, agentUnknown, agentRepeated]

def id : Kind → String
  | inputMismatch => "INPUTMISMATCH"
  | unexpectedInput => "UNEXPECTEDINPUT"
  | noViableAlternative => "NOVIABLEALTERNATIVE"
  | unrecognizedInput => "TOKENRECOGNITIONERROR"
  | unclosedDouble => "UNTERMINATEDSTRINGLITERAL"
  | unclosedSingle => "UNTERMINATEDSINGLEQUOTEDSTRINGLITERAL"
  | environmentMissing => "ENVIRONMENT_COULDNOT_FIND"
  | environmentNotArchive => "ENVIRONMENT_NOTAJAR"
  | agentFileMissing => "AGENTFILE_COULDNOT_FIND"
  | agentFileExtension => "AGENTFILE_WRONG_EXTENSION"
  | agentFileParameterUnknown => "AGENTFILE_UNKNOWN_PARAMETER"
  | agentFileUndeclared => "AGENTFILE_NONEXISTANT_REFERENCE"
  | launchNumberInvalid => "LAUNCH_INVALID_NUMBER"
  | constraintNumberInvalid => "CONSTRAINT_INVALID_NUMBER"
  | resourceUnreadable => "RESOURCE_UNREADABLE"
  | environmentRepeated => "ENVIRONMENT_DUPLICATE"
  | agentFileNameRepeated => "AGENTFILE_DUPLICATE_NAME"
  | agentFileParameterRepeated => "AGENTFILE_DUPLICATE_PARAMETER"
  | agentFileUnused => "AGENTFILE_UNUSED"
  | initKeyRepeated => "INIT_DUPLICATE_KEY"
  | wildcardUnconditional => "LAUNCH_UNCONDITIONAL_WILDCARD"
  | constraintRepeated => "CONSTRAINT_DUPLICATE"
  | conditionWithoutEnvironment => "LAUNCH_CONDITIONAL_WITHOUT_ENVIRONMENT"
  | launchPolicyEmpty => "LAUNCHPOLICY_EMPTY"
  | masMissing => "TEST_MAS_NOT_FOUND"
  | timeoutInvalid => "TEST_INVALID_TIMEOUT"
  | agentUnknown => "TEST_UNKNOWN_AGENT"
  | agentRepeated => "TEST_DUPLICATE_AGENT"

def ofId? (id : String) : Option Kind :=
  all.find? fun k ↦ k.id = id

def domain : Kind → Domain
  | inputMismatch | unexpectedInput | noViableAlternative | unrecognizedInput | unclosedDouble
  | unclosedSingle => .form
  | environmentMissing | environmentNotArchive | agentFileMissing | agentFileExtension
  | agentFileParameterUnknown | agentFileUndeclared | launchNumberInvalid
  | constraintNumberInvalid | resourceUnreadable => .masError
  | environmentRepeated | agentFileNameRepeated | agentFileParameterRepeated | agentFileUnused
  | initKeyRepeated | wildcardUnconditional | constraintRepeated | conditionWithoutEnvironment
  | launchPolicyEmpty => .masWarning
  | masMissing | timeoutInvalid | agentUnknown => .testError
  | agentRepeated => .testWarning

def severity (k : Kind) : Severity :=
  k.domain.severity

theorem mem_all (k : Kind) : k ∈ all := by
  cases k <;> decide

end Kind

end MasCheck
