import MasCheck.Diagnostic.Kind
import MasCheck.Json.Reader
import MasCheck.Source.Span
import MasCheck.Text.Number

/-!
# Messages

A catalog gives kinds of findings their message templates. A template holds placeholders: a count
between braces, the place of an argument. `render` fills in a template when it has an argument for
every placeholder, and otherwise returns the template as it is. Without a template the message is
the first argument, or the identifier of the kind. Arguments are not searched for placeholders.
Templates are cut at byte offsets.

Catalogs are read from bundles, objects of domains with objects of identifiers and templates.
-/

namespace MasCheck

namespace Template

/-- A part of a template that stands for an argument: its bytes, and the place of the argument. -/
structure Placeholder where
  span : Span
  index : Nat
  deriving DecidableEq, Repr

/-- The placeholder that the brace at an offset opens, if the text up to the next closing brace is a
count. There is no answer if a slice has none. -/
def placeholderAt? (template : List Char) (opening : Nat) : Option (Option Placeholder) := do
  let rest ← Text.slice? (opening + 1) (Text.byteLength template) template
  match (Text.offsetsOf '}' 0 rest).head? with
  | none => return none
  | some closing =>
    let inner ← Text.slice? 0 closing rest
    return (Text.count? inner).map fun index ↦ ⟨⟨opening, opening + closing + 2⟩, index⟩

/-- What each opening brace of a template opens. -/
def placeholders? (template : List Char) : Option (List Placeholder) := do
  let found ← (Text.offsetsOf '{' 0 template).mapM (placeholderAt? template)
  return found.filterMap id

/-- The template behind the offset `last`, with arguments in the place of placeholders. One that
begins before `last` is passed over, and one without an argument stays. -/
def substituteFrom? (template : List Char) (args : List String) :
    Nat → List Placeholder → Option (List Char)
  | last, [] => Text.slice? last (Text.byteLength template) template
  | last, p :: ps =>
    if p.span.start < last then substituteFrom? template args last ps
    else do
      let front ← Text.slice? last p.span.start template
      let inside ← match args[p.index]? with
        | some arg => some arg.toList
        | none => Text.slice? p.span.start p.span.stop template
      let back ← substituteFrom? template args p.span.stop ps
      return front ++ inside ++ back

def substitute? (template : String) (args : List String) : Option String := do
  let places ← placeholders? template.toList
  let text ← substituteFrom? template.toList args 0 places
  return String.ofList text

end Template

/-- Templates by the domain and the identifier of a kind. -/
structure Catalog where
  template? : Kind → Option String

inductive BundleError
  | unreadable (fault : Json.Fault)
  | unknownDomain (name : String)
  deriving DecidableEq, Repr

namespace BundleError

def message : BundleError → String
  | unreadable _ => "malformed message bundle"
  | unknownDomain name => "unknown diagnostic domain '" ++ name ++ "' in message bundle"

end BundleError

namespace Catalog

def empty : Catalog :=
  ⟨fun _ ↦ none⟩

/-- The message of a finding. There is no answer if a slice of the template has none. -/
def render? (catalog : Catalog) (kind : Kind) (args : List String) : Option String :=
  match catalog.template? kind with
  | none => some (args.head?.getD kind.id)
  | some template => do
    let places ← Template.placeholders? template.toList
    if places.any (args.length ≤ ·.index) then return template
    else Template.substitute? template args

def render (catalog : Catalog) (kind : Kind) (args : List String) : String :=
  (catalog.render? kind args).getD kind.id

def standardTemplate : Kind → String
  | .inputMismatch => "in {0}, expected {1} but found {2}"
  | .unexpectedInput => "expected {0} but found {1}"
  | .noViableAlternative => "in {0}, could not make sense of {1}"
  | .unrecognizedInput => "unrecognized input '{0}'"
  | .unclosedDouble => "the double-quoted string \"{0}\" is missing its closing quote"
  | .unclosedSingle => "the single-quoted string '{0}' is missing its closing quote"
  | .environmentMissing => "could not find environment interface {0}"
  | .environmentNotArchive => "environment interface {0} is not a jar archive: {1}"
  | .agentFileMissing => "could not find agent file {0}"
  | .agentFileExtension => "{0} is not an agent file; expected a .{1} file"
  | .agentFileParameterUnknown => "unknown agent file parameter '{0}'; expected one of {1}"
  | .agentFileUndeclared =>
    "{0} refers to agent file {1}, which is not declared in the agentfiles section"
  | .launchNumberInvalid => "the number of agents to launch must be a positive integer, found {0}"
  | .constraintNumberInvalid => "the max constraint must be a positive integer, found {0}"
  | .resourceUnreadable => "could not read {0}: {1}"
  | .environmentRepeated =>
    "the environment is already specified at {0}; the first environment section is used"
  | .agentFileNameRepeated =>
    "agent file name '{0}' is already declared at {1}; the first declaration is used"
  | .agentFileParameterRepeated =>
    "parameter '{0}' is given more than once for {1}; the first value is used"
  | .agentFileUnused => "agent file {0} is declared but never launched"
  | .initKeyRepeated =>
    "initialization key '{0}' is already given at {1}; the first value is used"
  | .wildcardUnconditional => "the wildcard agent name launching {0} is only meaningful in " ++
    "a rule that waits for an environment entity"
  | .constraintRepeated =>
    "constraint '{0}' appears more than once in this launch rule; the first one is used"
  | .conditionWithoutEnvironment =>
    "this conditional launch rule never fires because no environment is specified"
  | .launchPolicyEmpty => "the launch policy has no rules; no agents will be started"
  | .masMissing => "could not find MAS file {0}"
  | .timeoutInvalid => "the timeout must be a positive number of seconds, found {0}"
  | .agentUnknown => "test refers to agent '{0}', which {1} never launches"
  | .agentRepeated => "agent '{0}' is already tested at {1}; only the first test is used"

/-- The catalog that the checks use. -/
def standard : Catalog :=
  ⟨fun kind ↦ some (standardTemplate kind)⟩

/-! ## Bundles -/

def lookupLast {α : Type} (name : String) (entries : List (String × α)) : Option α :=
  (entries.reverse.find? fun e ↦ e.1 = name).map Prod.snd

def readEntries : Json.Reader (List (String × String)) :=
  Json.expectObject (fun entries name ↦ .ok fun cs ↦
    (Json.expectText cs).map (Prod.map (fun template ↦ entries ++ [(name, template)]) id)) []

def readBundle : Json.Reader (List (String × List (String × String))) :=
  Json.expectObject (fun sections name ↦ .ok fun cs ↦
    (readEntries cs).map (Prod.map (fun entries ↦ sections ++ [(name, entries)]) id)) []

/-- The catalog of a bundle. The whole bundle is read before its domains are looked at. -/
def ofBundle (source : String) : Except BundleError Catalog :=
  match Json.readAll readBundle source with
  | .error fault => .error (.unreadable fault)
  | .ok sections =>
    match sections.find? fun s ↦ (Domain.ofName? s.1).isNone with
    | some (name, _) => .error (.unknownDomain name)
    | none => .ok ⟨fun kind ↦
        (lookupLast kind.domain.name sections).bind (lookupLast kind.id)⟩

end Catalog

end MasCheck
