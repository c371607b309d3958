import MasCheck.Grammar.Mas
import MasCheck.Proofs.Grammar.Production

/-!
# The strict grammar of MAS files

The productions of MAS files without recovery and without an order of alternatives:

```text
masFile      = { environment | agentFiles | launchPolicy }
environment  = 'environment' '{' 'env' '=' STRING '.' [ initial ] '}'
initial      = 'init' '=' '[' entry { ',' entry } ']' '.'
entry        = key '=' initValue
initValue    = ID '(' initValue { ',' initValue } ')' | '[' [ initValue { ',' initValue } ] ']'
             | ID | INT | FLOAT | STRING
agentFiles   = 'agentfiles' '{' { STRING [ '[' parameter { ',' parameter } ']' ] '.' } '}'
parameter    = key '=' value
launchPolicy = 'launchpolicy' '{' { [ 'when' entity 'do' ] launch } '}'
launch       = 'launch' component { ',' component } '.'
component    = ( ID | '*' ) [ '[' 'number' '=' value ']' ] ':' ( ID | STRING )
entity       = ( '[' constraint { ',' constraint } ']' | ID | '*' ) '@env'
constraint   = ( 'name' | 'type' | 'max' ) '=' value
value        = key | STRING | [ '-' ] ( INT | FLOAT )
key          = ID | KEYWORD
```
-/

namespace MasCheck.Strict

open Production

/-! ## Names, texts and values -/

def identifier : Production String :=
  token fun
    | .identifier text => some text
    | _ => none

def quotedText : Production String :=
  token fun
    | .quoted _ text => some text
    | _ => none

def number : Production (Located String) :=
  located do
    let minus ← optional (exactly (.operator "-"))
    let digits ← token fun
      | .integer text => some text
      | .decimal text => some text
      | _ => none
    return if minus.isSome then "-" ++ digits else digits

def key : Production (Located String) :=
  located <| token fun
    | .identifier text => some text
    | .keyword word => some word.text
    | _ => none

def value : Production (Located String) :=
  key.or ((located quotedText).or number)

/-! ## The environment -/

def envRef : Production (Located String) := do
  keyword .env
  sign .equals
  let path ← located quotedText
  sign .dot
  return path

/-- Initial values nest to any depth. -/
inductive InitValueOf : List Lexeme → InitValue → Prop
  | identifier {text : String} {a : Span} :
      InitValueOf [⟨.identifier text, a⟩] (.identifier text)
  | integer {text : String} {a : Span} : InitValueOf [⟨.integer text, a⟩] (.integer text)
  | decimal {text : String} {a : Span} : InitValueOf [⟨.decimal text, a⟩] (.decimal text)
  | string {quote : Quote} {text : String} {a : Span} :
      InitValueOf [⟨.quoted quote text, a⟩] (.string text)
  | function {name : String} {ts : List Lexeme} {args : List InitValue} {a b c : Span} :
      Separated InitValueOf ts args →
      InitValueOf (⟨.identifier name, a⟩ :: ⟨.sign .leftParen, b⟩ :: ts ++ [⟨.sign .rightParen, c⟩])
        (.function name args)
  | empty {a b : Span} :
      InitValueOf [⟨.sign .leftBracket, a⟩, ⟨.sign .rightBracket, b⟩] (.list [])
  | list {ts : List Lexeme} {items : List InitValue} {a b : Span} :
      Separated InitValueOf ts items →
      InitValueOf (⟨.sign .leftBracket, a⟩ :: ts ++ [⟨.sign .rightBracket, b⟩]) (.list items)

def initValue : Production InitValue :=
  InitValueOf

def initEntry : Production (Located InitEntry) :=
  located do
    let k ← key
    sign .equals
    let v ← located initValue
    return { key := k, value := v }

def initialization : Production (List (Located InitEntry)) := do
  keyword .init
  sign .equals
  let entries ← between .leftBracket .rightBracket (separated₁ initEntry)
  sign .dot
  return entries

def environment : Production (Located Environment) :=
  located do
    keyword .environment
    sign .leftBrace
    let path ← envRef
    let init ← optional initialization
    sign .rightBrace
    return { archive := path, init := init.getD [] }

/-! ## Agent files -/

def parameter : Production (Located Parameter) :=
  located do
    let k ← key
    sign .equals
    let v ← value
    return { key := k, value := v }

def agentFile : Production (Located AgentFile) :=
  located do
    let path ← located quotedText
    let parameters ← optional (between .leftBracket .rightBracket (separated₁ parameter))
    sign .dot
    return { path, parameters := parameters.getD [] }

def agentFiles : Production (List (Located AgentFile)) := do
  keyword .agentFiles
  between .leftBrace .rightBrace (many agentFile)

/-! ## The launch policy -/

def target : Production (Located Target) :=
  located <| token fun
    | .identifier text => some (.name text)
    | .quoted _ text => some (.path text)
    | _ => none

def launchName : Production (Located LaunchName) :=
  located <| token fun
    | .identifier text => some (.named text)
    | .sign .star => some .wildcard
    | _ => none

def launchNumber : Production (Located String) :=
  between .leftBracket .rightBracket do
    keyword .number
    sign .equals
    value

def launchComponent : Production (Located LaunchComponent) :=
  located do
    let name ← launchName
    let number ← optional launchNumber
    sign .colon
    let file ← target
    return { name, number, target := file }

def launch : Production (List (Located LaunchComponent)) := do
  keyword .launch
  let components ← separated₁ launchComponent
  sign .dot
  return components

def constraint : Production (Located Constraint) :=
  located do
    let word ← token fun
      | .keyword .name => some .name
      | .keyword .type => some .type
      | .keyword .max => some .max
      | _ => none
    sign .equals
    let v ← value
    return { word, value := v }

def entity : Production (Located Entity) :=
  located do
    let e ← Production.or
      ((between .leftBracket .rightBracket (separated₁ constraint)).map .constraints)
      (token fun
        | .identifier text => some (.named text)
        | .sign .star => some .any
        | _ => none)
    sign .atEnv
    return e

def conditionalRule : Production LaunchRule := do
  keyword .when
  let condition ← entity
  keyword .doing
  let components ← launch
  return { condition := some condition, components }

def launchRule : Production (Located LaunchRule) :=
  located <| conditionalRule.or <|
    launch.map fun components ↦ { condition := none, components }

def launchPolicy : Production (Located LaunchPolicy) :=
  located do
    keyword .launchPolicy
    let rules ← between .leftBrace .rightBrace (many launchRule)
    return { rules }

/-! ## The file -/

def oneSection : Production Grammar.Section :=
  (environment.map .environment).or <|
    (agentFiles.map .agentFiles).or (launchPolicy.map .launchPolicy)

/-- Sections in any number and in any order. -/
def sections : Production (List Grammar.Section) :=
  many oneSection

def environmentsOf (sections : List Grammar.Section) : List (Located Environment) :=
  sections.filterMap fun
    | .environment env => some env
    | _ => none

def agentFilesOf (sections : List Grammar.Section) : List (Located AgentFile) :=
  sections.flatMap fun
    | .agentFiles files => files
    | _ => []

def policiesOf (sections : List Grammar.Section) : List (Located LaunchPolicy) :=
  sections.filterMap fun
    | .launchPolicy policy => some policy
    | _ => none

/-- The tree of a file: the first environment with the places of the others, all agent files, and
all launch rules under the place of the first policy. -/
def fileOf (sections : List Grammar.Section) : MasFile :=
  { environment := (environmentsOf sections).head?
    extraEnvironments := (environmentsOf sections).tail.map Located.span
    agentFiles := agentFilesOf sections
    launchPolicy := (policiesOf sections).head?.map fun first ↦
      ⟨⟨(policiesOf sections).flatMap fun policy ↦ policy.node.rules⟩, first.span⟩ }

def masFile : Production MasFile :=
  sections.map fileOf

/-! ## Texts in braces -/

def braced (text : String) : String :=
  Sign.leftBrace.text ++ text ++ Sign.rightBrace.text

end MasCheck.Strict
