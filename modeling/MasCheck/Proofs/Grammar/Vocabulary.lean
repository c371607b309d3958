import MasCheck.Grammar.Mas
import MasCheck.Grammar.Script
import MasCheck.Proofs.Grammar.Telling

/-!
# The vocabularies of the two grammars

Each grammar has a vocabulary of its own, and every failure of one of its rules is told in it. A
token belongs to the vocabulary if the grammar asks for it by its spelling; names, texts and numbers
are asked for by notions, and values of environments by a rule.
-/

namespace MasCheck

namespace Vocabulary

def mas : Vocabulary where
  tokens :=
    [.keyword .environment, .keyword .env, .keyword .init, .keyword .agentFiles,
      .keyword .launchPolicy, .keyword .launch, .keyword .when, .keyword .doing, .keyword .number,
      .sign .leftBrace, .sign .rightBrace, .sign .leftBracket, .sign .rightBracket,
      .sign .leftParen, .sign .rightParen, .sign .comma, .sign .dot, .sign .colon, .sign .equals,
      .sign .atEnv, .operator "-"]
  rules :=
    [.masFile, .environment, .envRef, .initialization, .initKeyValue, .initExpr, .agentFiles,
      .agentFile, .agentFileParameter, .launchPolicy, .launchRule, .launch, .launchRuleComponent,
      .entity, .constraint, .agentRef]
  notions :=
    [.string, .number, .parameterName, .agentName, .entityName, .constraintWord]

def script : Vocabulary where
  tokens :=
    [.keyword .masTest, .keyword .mas, .keyword .timeout, .keyword .doing, .keyword .not,
      .sign .leftBrace, .sign .rightBrace, .sign .leftParen, .sign .rightParen, .sign .comma,
      .sign .dot, .sign .equals, .operator "-"]
  rules :=
    [.testScript, .masRef, .timeout, .agentTest, .moduleRef, .testCondition, .msc,
      .mentalLiteral, .mentalAtom, .term]
  notions :=
    [.identifier, .string, .number]

/-- What both grammars share: texts, numbers and statements. -/
structure IsCommon (V : Vocabulary) : Prop where
  string : .string ∈ V.notions
  number : .number ∈ V.notions
  minus : .operator "-" ∈ V.tokens
  dot : .sign .dot ∈ V.tokens
  rightBrace : .sign .rightBrace ∈ V.tokens

theorem isCommon_mas : mas.IsCommon := by
  constructor <;> decide

theorem isCommon_script : script.IsCommon := by
  constructor <;> decide

end Vocabulary

end MasCheck

namespace MasCheck.Grammar

open MasCheck.Parser

variable {α : Type} {V : Vocabulary}

/-! ## Common parts -/

theorem tells_quotedText (h : V.IsCommon) : quotedText.Tells V :=
  (Tells.select _).labelled h.string

theorem tells_number (h : V.IsCommon) : number.Tells V := by
  have hminus : (exactly (.operator "-")).Tells V := .exactly h.minus
  exact (hminus.optional.bind fun _ ↦ (Tells.select _).bind fun _ ↦ .pure _).located.labelled
    h.number

theorem tells_statementEnd (h : V.IsCommon) : statementEnd.Tells V :=
  (Tells.exactly h.dot).or (.exactly h.rightBrace)

theorem tells_skipStatement (h : V.IsCommon) : skipStatement.Tells V :=
  .or ((Tells.tokenBefore _).many.bind fun _ ↦ .exactly h.dot)
    ((Tells.tokenBefore _).many₁.bind fun _ ↦ .pure _)

theorem tells_statement (h : V.IsCommon) {p : Parser α} (hp : p.Tells V) :
    (statement p).Tells V :=
  .recoverBy ((tells_skipStatement h).bind fun _ ↦ .pure _)
    ((tells_statementEnd h).resumeBefore (hp.bind fun _ ↦ .pure _))

/-! ## The environment -/

section

open Vocabulary (mas isCommon_mas)

theorem tells_key : key.Tells mas :=
  (Tells.select _).located.labelled (by decide)

theorem tells_value : value.Tells mas :=
  tells_key.or ((tells_quotedText isCommon_mas).located.or (tells_number isCommon_mas))

theorem tells_envRef : envRef.Tells mas :=
  ((Tells.exactly (by decide)).bind fun _ ↦ (Tells.exactly (by decide)).bind fun _ ↦
    (tells_quotedText isCommon_mas).located.bind fun _ ↦ (Tells.exactly (by decide)).bind fun _ ↦
      .pure _).rule (by decide)

theorem tells_initValueWithin (depth : Nat) : (initValueWithin depth).Tells mas := by
  induction depth with
  | zero => exact Tells.select _
  | succ depth ih =>
    have hfunction : (between .leftParen .rightParen
        (separated₁ (initValueWithin depth))).Tells mas :=
      (ih.separated₁ (by decide)).between (by decide) (by decide)
    have hlist : (between .leftBracket .rightBracket
        (separated (initValueWithin depth))).Tells mas :=
      (ih.separated (by decide)).between (by decide) (by decide)
    refine Tells.rule (by decide) (Tells.or ?_ ((hlist.bind fun _ ↦ .pure _).or (Tells.select _)))
    exact (Tells.select _).bind fun _ ↦ hfunction.bind fun _ ↦ .pure _

theorem tells_initValue : initValue.Tells mas :=
  fun _ c _ ↦ @tells_initValueWithin (c.rest.length + 1) _ c _

theorem tells_initEntry : initEntry.Tells mas :=
  (tells_key.bind fun _ ↦ (Tells.exactly (by decide)).bind fun _ ↦
    tells_initValue.located.bind fun _ ↦ .pure _).located.rule (by decide)

theorem tells_initialization : initialization.Tells mas := by
  have hentries : (between .leftBracket .rightBracket (separated₁ initEntry)).Tells mas :=
    (tells_initEntry.separated₁ (by decide)).between (by decide) (by decide)
  exact ((Tells.exactly (by decide)).bind fun _ ↦ (Tells.exactly (by decide)).bind fun _ ↦
    hentries.bind fun _ ↦ (Tells.exactly (by decide)).bind fun _ ↦ .pure _).rule (by decide)

theorem tells_environmentSection : environmentSection.Tells mas := by
  have harchive : archive.Tells mas :=
    (tells_statement isCommon_mas tells_envRef).located.bind fun _ ↦ .pure _
  have hinit : (optional (statement initialization)).Tells mas :=
    (tells_statement isCommon_mas tells_initialization).optional
  exact ((Tells.exactly (by decide)).bind fun _ ↦ (Tells.exactly (by decide)).bind fun _ ↦
    harchive.bind fun _ ↦ hinit.bind fun _ ↦ (Tells.exactly (by decide)).bind fun _ ↦
      .pure _).located.rule (by decide)

/-! ## Agent files -/

theorem tells_parameter : parameter.Tells mas :=
  (tells_key.bind fun _ ↦ (Tells.exactly (by decide)).bind fun _ ↦
    tells_value.bind fun _ ↦ .pure _).located.rule (by decide)

theorem tells_agentFile : agentFile.Tells mas := by
  have hparameters : (between .leftBracket .rightBracket (separated₁ parameter)).Tells mas :=
    (tells_parameter.separated₁ (by decide)).between (by decide) (by decide)
  exact ((tells_quotedText isCommon_mas).located.bind fun _ ↦ hparameters.optional.bind fun _ ↦
    (Tells.exactly (by decide)).bind fun _ ↦ .pure _).located.rule (by decide)

theorem tells_agentFilesSection : agentFilesSection.Tells mas := by
  have hfiles : (between .leftBrace .rightBrace (many (statement agentFile))).Tells mas :=
    (tells_statement isCommon_mas tells_agentFile).many.between (by decide) (by decide)
  exact ((Tells.exactly (by decide)).bind fun _ ↦ hfiles.bind fun _ ↦ .pure _).rule (by decide)

/-! ## The launch policy -/

theorem tells_target : target.Tells mas :=
  (Tells.select _).located.named (by decide)

theorem tells_launchName : launchName.Tells mas :=
  (Tells.select _).located.labelled (by decide)

theorem tells_launchNumber : launchNumber.Tells mas :=
  ((Tells.exactly (by decide)).bind fun _ ↦ (Tells.exactly (by decide)).bind fun _ ↦
    tells_value).between (by decide) (by decide)

theorem tells_launchComponent : launchComponent.Tells mas :=
  (tells_launchName.bind fun _ ↦ tells_launchNumber.optional.bind fun _ ↦
    (Tells.exactly (by decide)).bind fun _ ↦ tells_target.bind fun _ ↦ .pure _).located.rule
      (by decide)

theorem tells_launch : launch.Tells mas :=
  ((Tells.exactly (by decide)).bind fun _ ↦
    (tells_launchComponent.separated₁ (by decide)).bind fun _ ↦
      (Tells.exactly (by decide)).bind fun _ ↦ .pure _).rule (by decide)

theorem tells_constraint : constraint.Tells mas :=
  (((Tells.select _).labelled (by decide)).bind fun _ ↦ (Tells.exactly (by decide)).bind fun _ ↦
    tells_value.bind fun _ ↦ .pure _).located.rule (by decide)

theorem tells_entity : entity.Tells mas := by
  have hconstraints : (between .leftBracket .rightBracket (separated₁ constraint)).Tells mas :=
    (tells_constraint.separated₁ (by decide)).between (by decide) (by decide)
  refine Tells.rule (by decide) (Tells.located (Tells.bind ?_ fun _ ↦ ?_))
  · exact (hconstraints.bind fun _ ↦ .pure _).or ((Tells.select _).labelled (by decide))
  · exact (Tells.exactly (by decide)).bind fun _ ↦ .pure _

theorem tells_launchRule : launchRule.Tells mas := by
  refine Tells.rule (by decide) (Tells.located (Tells.or ?_ (tells_launch.bind fun _ ↦ .pure _)))
  exact (Tells.exactly (by decide)).bind fun _ ↦ tells_entity.bind fun _ ↦
    (Tells.exactly (by decide)).bind fun _ ↦ tells_launch.bind fun _ ↦ .pure _

theorem tells_launchPolicySection : launchPolicySection.Tells mas := by
  have hrules : (between .leftBrace .rightBrace (many (statement launchRule))).Tells mas :=
    (tells_statement isCommon_mas tells_launchRule).many.between (by decide) (by decide)
  exact ((Tells.exactly (by decide)).bind fun _ ↦ hrules.bind fun _ ↦ .pure _).located.rule
    (by decide)

/-! ## MAS files -/

theorem tells_sectionKeyword : sectionKeyword.Tells mas :=
  (Tells.exactly (by decide)).or ((Tells.exactly (by decide)).or (Tells.exactly (by decide)))

theorem tells_anySection : anySection.Tells mas := by
  have hskip : skipSection.Tells mas :=
    tells_sectionKeyword.bind fun _ ↦ (Tells.tokenBefore _).many.bind fun _ ↦ .pure _
  have hsound : soundSection.Tells mas :=
    (tells_environmentSection.bind fun _ ↦ .pure _).or
      ((tells_agentFilesSection.bind fun _ ↦ .pure _).or
        (tells_launchPolicySection.bind fun _ ↦ .pure _))
  exact tells_sectionKeyword.resumeBefore (hskip.recoverBy hsound)

theorem tells_masFile : masFile.Tells mas :=
  (tells_anySection.many.bind fun _ ↦ Tells.endOfInput.bind fun _ ↦ .pure _).named (by decide)

end

/-! ## Conditions -/

section

open Vocabulary (script isCommon_script)

theorem tells_identifier : identifier.Tells script :=
  (Tells.select _).labelled (by decide)

theorem tells_termItemWithin (depth : Nat) : (termItemWithin depth).Tells script := by
  induction depth with
  | zero => exact Tells.select _
  | succ depth ih =>
    refine Tells.or ?_ ((Tells.tokenWhere _).bind fun _ ↦ .pure _)
    exact (Tells.exactly (by decide)).bind fun _ ↦ ih.many.bind fun _ ↦
      (Tells.exactly (by decide)).bind fun _ ↦ .pure _

theorem tells_termItem : termItem.Tells script :=
  fun _ c _ ↦ @tells_termItemWithin (c.rest.length + 1) _ c _

theorem tells_term : term.Tells script :=
  (tells_termItem.many₁.bind fun _ ↦ .pure _).located.named (by decide)

theorem tells_mentalAtom : mentalAtom.Tells script :=
  ((Tells.select _).bind fun _ ↦ (tells_term.between (by decide) (by decide)).bind fun _ ↦
    .pure _).rule (by decide)

theorem tells_mentalLiteral : mentalLiteral.Tells script := by
  refine Tells.rule (by decide)
    (Tells.located (Tells.or ?_ (tells_mentalAtom.bind fun _ ↦ .pure _)))
  exact (Tells.exactly (by decide)).bind fun _ ↦
    (tells_mentalAtom.between (by decide) (by decide)).bind fun _ ↦ .pure _

theorem tells_testCondition : testCondition.Tells script := by
  have hliterals : mentalCondition.Tells script :=
    (tells_mentalLiteral.separated₁ (by decide)).rule (by decide)
  exact ((Tells.select _).bind fun _ ↦ hliterals.bind fun _ ↦
    (Tells.exactly (by decide)).bind fun _ ↦ .pure _).located.rule (by decide)

/-! ## Test scripts -/

theorem tells_masRef : masRef.Tells script :=
  ((Tells.exactly (by decide)).bind fun _ ↦ (Tells.exactly (by decide)).bind fun _ ↦
    (tells_quotedText isCommon_script).located.bind fun _ ↦
      (Tells.exactly (by decide)).bind fun _ ↦ .pure _).rule (by decide)

theorem tells_timeout : timeout.Tells script :=
  ((Tells.exactly (by decide)).bind fun _ ↦ (Tells.exactly (by decide)).bind fun _ ↦
    (tells_number isCommon_script).bind fun _ ↦ (Tells.exactly (by decide)).bind fun _ ↦
      .pure _).rule (by decide)

theorem tells_moduleRef : moduleRef.Tells script :=
  ((Tells.exactly (by decide)).bind fun _ ↦ tells_identifier.located.bind fun _ ↦
    (Tells.exactly (by decide)).bind fun _ ↦ .pure _).rule (by decide)

theorem tells_agentTest : agentTest.Tells script := by
  have hconditions : (many (statement testCondition)).Tells script :=
    (tells_statement isCommon_script tells_testCondition).many
  exact (tells_identifier.located.bind fun _ ↦ (Tells.exactly (by decide)).bind fun _ ↦
    tells_moduleRef.optional.bind fun _ ↦ hconditions.bind fun _ ↦
      (Tells.exactly (by decide)).bind fun _ ↦ .pure _).located.rule (by decide)

theorem tells_testScript : testScript.Tells script := by
  have htests : (many anyTest).Tells script :=
    ((Tells.exactly (by decide)).resumeBefore tells_agentTest).many
  exact ((Tells.exactly (by decide)).bind fun _ ↦ (Tells.exactly (by decide)).bind fun _ ↦
    tells_masRef.bind fun _ ↦ tells_timeout.optional.bind fun _ ↦ htests.bind fun _ ↦
      (Tells.exactly (by decide)).bind fun _ ↦ Tells.endOfInput.bind fun _ ↦ .pure _).rule
        (by decide)

end

end MasCheck.Grammar
