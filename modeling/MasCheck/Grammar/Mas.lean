import MasCheck.Grammar.Statement
import MasCheck.Tree.Mas

/-!
# The grammar of MAS files

```text
environment  { env = "elevator.jar". init = [floors = 4, cars = [a, b]]. }
agentfiles   { "elevator.goal" [name = car]. }
launchpolicy { when [type = car, max = 4]@env do launch * : car. }
```

A section that breaks after its keyword is skipped up to the next section, and so is input that
opens no section.
-/

namespace MasCheck.Grammar

open MasCheck.Parser

/-! ## The environment -/

def envRef : Parser (Located String) :=
  rule .envRef do
    keyword .env
    sign .equals
    let path ← located quotedText
    dot
    return path

/-- A value whose parts are read by `inner`. -/
def initValueAround (inner : Parser InitValue) : Parser InitValue :=
  rule .initExpr <|
    Parser.or
      (do
        let name ← select fun
          | .identifier text => some text
          | _ => none
        let args ← between .leftParen .rightParen (separated₁ inner)
        return .function name args)
      (Parser.or
        (do
          let items ← between .leftBracket .rightBracket (separated inner)
          return .list items)
        (select fun
          | .identifier text => some (.identifier text)
          | .integer text => some (.integer text)
          | .decimal text => some (.decimal text)
          | .quoted _ text => some (.string text)
          | _ => none))

/-- A value with at most `depth - 1` levels of functions and lists around its innermost parts. -/
def initValueWithin : Nat → Parser InitValue
  | 0 => select fun _ ↦ none
  | depth + 1 => initValueAround (initValueWithin depth)

/-- A value of any depth: each level takes a token. -/
def initValue : Parser InitValue := fun c n ↦
  initValueWithin (c.rest.length + 1) c n

def initEntry : Parser (Located InitEntry) :=
  rule .initKeyValue <| located do
    let k ← key
    sign .equals
    let v ← located initValue
    return { key := k, value := v }

def initialization : Parser (List (Located InitEntry)) :=
  rule .initialization do
    keyword .init
    sign .equals
    let entries ← between .leftBracket .rightBracket (separated₁ initEntry)
    dot
    return entries

/-- The reference to the archive. In the place of a broken one stands an empty path. -/
def archive : Parser (Located String) := do
  let path ← located (statement envRef)
  return path.node.getD ⟨"", path.span⟩

def environmentSection : Parser (Located Environment) :=
  rule .environment <| located do
    keyword .environment
    sign .leftBrace
    let path ← archive
    let init ← optional (statement initialization)
    sign .rightBrace
    return { archive := path, init := init.join.getD [] }

/-! ## Agent files -/

def parameter : Parser (Located Parameter) :=
  rule .agentFileParameter <| located do
    let k ← key
    sign .equals
    let v ← value
    return { key := k, value := v }

def agentFile : Parser (Located AgentFile) :=
  rule .agentFile <| located do
    let path ← located quotedText
    let parameters ← optional (between .leftBracket .rightBracket (separated₁ parameter))
    dot
    return { path, parameters := parameters.getD [] }

def agentFilesSection : Parser (List (Located AgentFile)) :=
  rule .agentFiles do
    keyword .agentFiles
    let files ← between .leftBrace .rightBrace (many (statement agentFile))
    return files.filterMap id

/-! ## The launch policy -/

def target : Parser (Located Target) :=
  named .agentRef <| located <| select fun
    | .identifier text => some (.name text)
    | .quoted _ text => some (.path text)
    | _ => none

def launchName : Parser (Located LaunchName) :=
  labelled .agentName <| located <| select fun
    | .identifier text => some (.named text)
    | .sign .star => some .wildcard
    | _ => none

def launchNumber : Parser (Located String) :=
  between .leftBracket .rightBracket do
    keyword .number
    sign .equals
    value

def launchComponent : Parser (Located LaunchComponent) :=
  rule .launchRuleComponent <| located do
    let name ← launchName
    let number ← optional launchNumber
    sign .colon
    let file ← target
    return { name, number, target := file }

def launch : Parser (List (Located LaunchComponent)) :=
  rule .launch do
    keyword .launch
    let components ← separated₁ launchComponent
    dot
    return components

def constraint : Parser (Located Constraint) :=
  rule .constraint <| located do
    let word ← labelled .constraintWord <| select fun
      | .keyword .name => some .name
      | .keyword .type => some .type
      | .keyword .max => some .max
      | _ => none
    sign .equals
    let v ← value
    return { word, value := v }

def entity : Parser (Located Entity) :=
  rule .entity <| located do
    let e ← Parser.or
      (do
        let items ← between .leftBracket .rightBracket (separated₁ constraint)
        return .constraints items)
      (labelled .entityName <| select fun
        | .identifier text => some (.named text)
        | .sign .star => some .any
        | _ => none)
    sign .atEnv
    return e

def launchRule : Parser (Located LaunchRule) :=
  rule .launchRule <| located <|
    Parser.or
      (do
        keyword .when
        let condition ← entity
        keyword .doing
        let components ← launch
        return { condition := some condition, components })
      (do
        let components ← launch
        return { condition := none, components })

def launchPolicySection : Parser (Located LaunchPolicy) :=
  rule .launchPolicy <| located do
    keyword .launchPolicy
    let rules ← between .leftBrace .rightBrace (many (statement launchRule))
    return { rules := rules.filterMap id }

/-! ## The file -/

inductive Section
  | environment (env : Located Environment)
  | agentFiles (files : List (Located AgentFile))
  | launchPolicy (policy : Located LaunchPolicy)
  | broken

def sectionKeyword : Parser Unit :=
  (keyword .environment).or ((keyword .agentFiles).or (keyword .launchPolicy))

/-- Skips a section up to the next keyword of a section. -/
def skipSection : Parser Section := do
  sectionKeyword
  let _ ← many (tokenBefore sectionKeyword)
  return .broken

def soundSection : Parser Section :=
  Parser.or
    (do
      let env ← environmentSection
      return .environment env)
    (Parser.or
      (do
        let files ← agentFilesSection
        return .agentFiles files)
      (do
        let policy ← launchPolicySection
        return .launchPolicy policy))

/-- A section, read or skipped, after input that opens none. -/
def anySection : Parser Section :=
  resumeBefore sectionKeyword (recoverBy skipSection soundSection)

/-- Adds a section to the sections before it. -/
def addSection (file : MasFile) : Section → MasFile
  | .environment env =>
    match file.environment with
    | some _ => { file with extraEnvironments := file.extraEnvironments ++ [env.span] }
    | none => { file with environment := some env }
  | .agentFiles files => { file with agentFiles := file.agentFiles ++ files }
  | .launchPolicy policy =>
    match file.launchPolicy with
    | some old =>
      { file with launchPolicy := some ⟨⟨old.node.rules ++ policy.node.rules⟩, old.span⟩ }
    | none => { file with launchPolicy := some policy }
  | .broken => file

def masFile : Parser MasFile :=
  named .masFile do
    let sections ← many anySection
    endOfInput
    return sections.foldl addSection MasFile.empty

end MasCheck.Grammar
