import MasCheck.Proofs.Grammar.Plan

/-!
# Termination

Each rule of the two grammars has its plan. A run along the plan of a grammar has no bound on its
repetitions, its searches and the depth of its values and terms, and it ends on any tokens.
-/

namespace MasCheck.Grammar

open MasCheck.Parser

section

variable {γ : Type} {inner : Parser γ} {b : Bool}

/-! ## Common parts -/

def identifierPlan : Plan inner b identifier :=
  (Plan.select _).labelled _

def quotedTextPlan : Plan inner b quotedText :=
  (Plan.select _).labelled _

def numberPlan : Plan inner b number :=
  .labelled (.located <| (Plan.exactly _).optional.andThen fun _ ↦ (Plan.select _).andReturn _) _

def keyPlan : Plan inner b key :=
  (Plan.select _).located.labelled _

def valuePlan : Plan inner b value :=
  keyPlan.or (quotedTextPlan.located.or numberPlan)

def statementEndPlan : Plan inner b statementEnd :=
  (Plan.sign _).or (Plan.sign _)

def skipStatementPlan : Plan inner b skipStatement :=
  .or ((statementEndPlan.tokenBefore.many (.tokenBefore _)).andThen fun _ ↦ .sign _)
    ((statementEndPlan.tokenBefore.many₁ (.tokenBefore _)).andReturn _)

def statementPlan {α : Type} {p : Parser α} (P : Plan inner b p) : Plan inner b (statement p) :=
  (skipStatementPlan.andReturn _).recoverBy (statementEndPlan.resumeBefore (P.andReturn _))

/-! ## Agent files and launch policies -/

def parameterPlan : Plan inner b parameter :=
  (keyPlan.andThen fun _ ↦ (Plan.sign _).andThen fun _ ↦ valuePlan.andReturn _).located.rule _

def agentFilePlan : Plan inner b agentFile :=
  (quotedTextPlan.located.andThen fun _ ↦ parameterPlan.separated₁.between.optional.andThen fun _ ↦
    (Plan.sign _).andReturn _).located.rule _

def agentFilesSectionPlan : Plan inner b agentFilesSection :=
  ((Plan.keyword _).andThen fun _ ↦
    ((statementPlan agentFilePlan).many takes_agentFile.statement).between.andReturn _).rule _

def targetPlan : Plan inner b target :=
  (Plan.select _).located.named _

def launchNamePlan : Plan inner b launchName :=
  (Plan.select _).located.labelled _

def launchNumberPlan : Plan inner b launchNumber :=
  .between <| (Plan.keyword _).andThen fun _ ↦ (Plan.sign _).andThen fun _ ↦ valuePlan

def launchComponentPlan : Plan inner b launchComponent :=
  (launchNamePlan.andThen fun _ ↦ launchNumberPlan.optional.andThen fun _ ↦
    (Plan.sign _).andThen fun _ ↦ targetPlan.andReturn _).located.rule _

def launchPlan : Plan inner b launch :=
  ((Plan.keyword _).andThen fun _ ↦ launchComponentPlan.separated₁.andThen fun _ ↦
    (Plan.sign _).andReturn _).rule _

def constraintPlan : Plan inner b constraint :=
  (((Plan.select _).labelled _).andThen fun _ ↦ (Plan.sign _).andThen fun _ ↦
    valuePlan.andReturn _).located.rule _

def entityPlan : Plan inner b entity :=
  .rule (.located <| .andThen
    ((constraintPlan.separated₁.between.andReturn _).or ((Plan.select _).labelled _)) fun _ ↦
      (Plan.sign _).andReturn _) _

def launchRulePlan : Plan inner b launchRule :=
  .rule (.located <| .or
    ((Plan.keyword _).andThen fun _ ↦ entityPlan.andThen fun _ ↦ (Plan.keyword _).andThen fun _ ↦
      launchPlan.andReturn _)
    (launchPlan.andReturn _)) _

def launchPolicySectionPlan : Plan inner b launchPolicySection :=
  ((Plan.keyword _).andThen fun _ ↦ ((statementPlan launchRulePlan).many
    takes_launchRule.statement).between.andReturn _).located.rule _

end

variable {b : Bool}

/-! ## Values and environments -/

def initValuePlan : Plan initValue true initValue :=
  .again confined_initValue.moves

def initValueBody : Plan initValue false (initValueAround initValue) :=
  .rule (.or
    ((Plan.select _).behind (.token _ _ _) fun _ ↦ initValuePlan.separated₁.between.andReturn _)
    (.or (initValuePlan.separated.between.andReturn _) (.select _))) _

def initValues : Recursion initValue where
  around := initValueAround initValue
  inner_eq := initValue_eq
  body := initValueBody

def initEntryPlan : Plan initValue b initEntry :=
  (keyPlan.andThen fun _ ↦ (Plan.sign _).behind (.sign _) fun _ ↦
    initValuePlan.located.andReturn _).located.rule _

def initializationPlan : Plan initValue b initialization :=
  ((Plan.keyword _).andThen fun _ ↦ (Plan.sign _).andThen fun _ ↦
    initEntryPlan.separated₁.between.andThen fun _ ↦ (Plan.sign _).andReturn _).rule _

def envRefPlan : Plan initValue b envRef :=
  ((Plan.keyword _).andThen fun _ ↦ (Plan.sign _).andThen fun _ ↦
    quotedTextPlan.located.andThen fun _ ↦ (Plan.sign _).andReturn _).rule _

def archivePlan : Plan initValue b archive :=
  (statementPlan envRefPlan).located.andReturn _

def environmentSectionPlan : Plan initValue b environmentSection :=
  ((Plan.keyword _).andThen fun _ ↦ (Plan.sign _).andThen fun _ ↦ archivePlan.andThen fun _ ↦
    (statementPlan initializationPlan).optional.andThen fun _ ↦
      (Plan.sign _).andReturn _).located.rule _

/-! ## MAS files -/

def sectionKeywordPlan : Plan initValue b sectionKeyword :=
  (Plan.keyword _).or ((Plan.keyword _).or (Plan.keyword _))

def skipSectionPlan : Plan initValue b skipSection :=
  sectionKeywordPlan.andThen fun _ ↦
    (sectionKeywordPlan.tokenBefore.many (.tokenBefore _)).andReturn _

def soundSectionPlan : Plan initValue b soundSection :=
  .or (environmentSectionPlan.andReturn _)
    (.or (agentFilesSectionPlan.andReturn _) (launchPolicySectionPlan.andReturn _))

def anySectionPlan : Plan initValue b anySection :=
  sectionKeywordPlan.resumeBefore (skipSectionPlan.recoverBy soundSectionPlan)

def masFilePlan : Plan initValue false masFile :=
  ((anySectionPlan.many takes_anySection).andThen fun _ ↦
    Plan.endOfInput.andReturn _).named _

/-! ## Terms -/

def termItemPlan : Plan termItem true termItem :=
  .again confined_termItem.moves

def termItemBody : Plan termItem false (termItemAround termItem) :=
  .or
    ((Plan.sign _).behind (.sign _) fun _ ↦ (termItemPlan.many takes_termItem).andThen fun _ ↦
      (Plan.sign _).andReturn _)
    ((Plan.token _ _ _).andReturn _)

def termItems : Recursion termItem where
  around := termItemAround termItem
  inner_eq := termItem_eq
  body := termItemBody

/-- Terms are read behind a token. -/
def termPlan : Plan termItem true term :=
  ((termItemPlan.many₁ takes_termItem).andReturn _).located.named _

/-! ## Test scripts -/

def mentalAtomPlan : Plan termItem b mentalAtom :=
  ((Plan.select _).andThen fun _ ↦ termPlan.between.andReturn _).rule _

def mentalLiteralPlan : Plan termItem b mentalLiteral :=
  .rule (.located <| .or
    ((Plan.keyword _).andThen fun _ ↦ mentalAtomPlan.between.andReturn _)
    (mentalAtomPlan.andReturn _)) _

def testConditionPlan : Plan termItem b testCondition :=
  ((Plan.select _).andThen fun _ ↦ (mentalLiteralPlan.separated₁.rule _).andThen fun _ ↦
    (Plan.sign _).andReturn _).located.rule _

def masRefPlan : Plan termItem b masRef :=
  ((Plan.keyword _).andThen fun _ ↦ (Plan.sign _).andThen fun _ ↦
    quotedTextPlan.located.andThen fun _ ↦ (Plan.sign _).andReturn _).rule _

def timeoutPlan : Plan termItem b timeout :=
  ((Plan.keyword _).andThen fun _ ↦ (Plan.sign _).andThen fun _ ↦ numberPlan.andThen fun _ ↦
    (Plan.sign _).andReturn _).rule _

def moduleRefPlan : Plan termItem b moduleRef :=
  ((Plan.keyword _).andThen fun _ ↦ identifierPlan.located.andThen fun _ ↦
    (Plan.sign _).andReturn _).rule _

def agentTestPlan : Plan termItem b agentTest :=
  (identifierPlan.located.andThen fun _ ↦ (Plan.sign _).andThen fun _ ↦
    moduleRefPlan.optional.andThen fun _ ↦
      ((statementPlan testConditionPlan).many takes_testCondition.statement).andThen fun _ ↦
        (Plan.sign _).andReturn _).located.rule _

def anyTestPlan : Plan termItem b anyTest :=
  (Plan.sign _).resumeBefore agentTestPlan

def testScriptPlan : Plan termItem false testScript :=
  ((Plan.keyword _).andThen fun _ ↦ (Plan.sign _).andThen fun _ ↦ masRefPlan.andThen fun _ ↦
    timeoutPlan.optional.andThen fun _ ↦ (anyTestPlan.many takes_anyTest).andThen fun _ ↦
      (Plan.sign _).andThen fun _ ↦ Plan.endOfInput.andReturn _).rule _

/-! ## Both grammars -/

/-- What is repeated takes a token each time it succeeds, and a statement that fails leaves nothing
behind. A search is behind one more token in each round that goes on. Whatever follows, a run along
the plan of a grammar ends, and it ends as the parser does. -/
structure ReadingEnds : Prop where
  envRef_progresses : (statement envRef).Progresses
  initialization_progresses : (statement initialization).Progresses
  agentFile_progresses : (statement agentFile).Progresses
  launchRule_progresses : (statement launchRule).Progresses
  testCondition_progresses : (statement testCondition).Progresses
  section_takes : anySection.Takes
  test_takes : anyTest.Takes
  termItem_takes : termItem.Takes
  rounds : ∀ {α : Type} (stop : Parser Unit) (p : Parser α) (held : Option Pending) (c : Cursor)
    (n : Notes), Round stop p held c n
  masFile_ends : ∀ (c : Cursor) (n : Notes) (o : Outcome MasFile),
    Plan.Ends initValues masFilePlan.toEnd c n o ↔ o = masFile.toEnd c n
  testScript_ends : ∀ (c : Cursor) (n : Notes) (o : Outcome TestScript),
    Plan.Ends termItems testScriptPlan.toEnd c n o ↔ o = testScript.toEnd c n

theorem reading_ends : ReadingEnds where
  envRef_progresses := takes_envRef.progresses_statement
  initialization_progresses := takes_initialization.progresses_statement
  agentFile_progresses := takes_agentFile.progresses_statement
  launchRule_progresses := takes_launchRule.progresses_statement
  testCondition_progresses := takes_testCondition.progresses_statement
  section_takes := takes_anySection
  test_takes := takes_anyTest
  termItem_takes := takes_termItem
  rounds := round_searchBefore
  masFile_ends := masFilePlan.toEnd.ends_iff initValues
  testScript_ends := testScriptPlan.toEnd.ends_iff termItems

end MasCheck.Grammar
