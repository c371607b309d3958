import MasCheck.Proofs.Grammar.ConfinedRules
import MasCheck.Proofs.Grammar.Reading
import MasCheck.Proofs.Grammar.ScriptRealization

/-!
# The grammars with recovery

What the parsers read from tokens of any kind. A statement is worth what its tokens are; a section
may be broken, and tokens may be passed over in front of sections and of tests. Everything else is
as in the strict grammars.
-/

namespace MasCheck.Loose

open Production

/-! ## MAS files -/

/-- In the place of a skipped reference stands an empty path. -/
def archive : Production (Located String) := do
  let path ← located Strict.envRef.statement
  return path.node.getD ⟨"", path.span⟩

def environment : Production (Located Environment) :=
  located do
    keyword .environment
    sign .leftBrace
    let path ← archive
    let init ← optional Strict.initialization.statement
    sign .rightBrace
    return { archive := path, init := init.join.getD [] }

def agentFiles : Production (List (Located AgentFile)) := do
  keyword .agentFiles
  let files ← between .leftBrace .rightBrace (many Strict.agentFile.statement)
  return files.filterMap id

def launchPolicy : Production (Located LaunchPolicy) :=
  located do
    keyword .launchPolicy
    let rules ← between .leftBrace .rightBrace (many Strict.launchRule.statement)
    return { rules := rules.filterMap id }

def soundSection : Production Grammar.Section :=
  (environment.map .environment).or <|
    (agentFiles.map .agentFiles).or (launchPolicy.map .launchPolicy)

def brokenSection : Production Grammar.Section := fun _ s ↦
  s = .broken

def anySection : Production Grammar.Section :=
  (soundSection.or brokenSection).resumed

def masFile : Production MasFile :=
  (many anySection).map Strict.fileOf

/-! ## Test scripts -/

def agentTest : Production (Located AgentTest) :=
  located do
    let agent ← located Strict.identifier
    sign .leftBrace
    let module ← optional Strict.moduleRef
    let conditions ← many Strict.testCondition.statement
    sign .rightBrace
    return { agent, module, conditions := conditions.filterMap id }

def testScript : Production TestScript := do
  keyword .masTest
  sign .leftBrace
  let mas ← Strict.masRef
  let seconds ← optional Strict.timeout
  let tests ← many agentTest.resumed
  sign .rightBrace
  return { mas, timeout := seconds, tests }

end MasCheck.Loose

namespace MasCheck.Grammar

open MasCheck.Parser

/-! ## What the rules read -/

theorem solid_statement {α : Type} (P : Production α) : P.statement.Solid :=
  fun _ _ h ↦ h.2

theorem reads_archive : Reads archive Loose.archive :=
  ((realizes_envRef.reads_statement confined_envRef solid_envRef).located
    (solid_statement _)).bind fun _ ↦ .pure _

theorem solid_initialization : Strict.initialization.Solid :=
  (Production.Solid.exactly _).bind _

theorem reads_environmentSection : Reads environmentSection Loose.environment := by
  have hinit : Reads (statement initialization) Strict.initialization.statement :=
    realizes_initialization.reads_statement confined_initialization solid_initialization
  apply Reads.rule
  refine Reads.located ?_ ((Production.Solid.exactly _).bind _)
  exact (Reads.keyword _).bind fun _ ↦ (Reads.sign _).bind fun _ ↦ reads_archive.bind fun _ ↦
    hinit.optional.bind fun _ ↦ (Reads.sign _).bind fun _ ↦ .pure _

theorem reads_agentFilesSection : Reads agentFilesSection Loose.agentFiles := by
  have hfile : Reads (statement agentFile) Strict.agentFile.statement :=
    realizes_agentFile.reads_statement confined_agentFile solid_agentFile
  exact ((Reads.keyword _).bind fun _ ↦ hfile.many.between.bind fun _ ↦ .pure _).rule _

theorem reads_launchPolicySection : Reads launchPolicySection Loose.launchPolicy := by
  have hrule : Reads (statement launchRule) Strict.launchRule.statement :=
    realizes_launchRule.reads_statement confined_launchRule solid_launchRule
  apply Reads.rule
  refine Reads.located ?_ ((Production.Solid.exactly _).bind _)
  exact (Reads.keyword _).bind fun _ ↦ hrule.many.between.bind fun _ ↦ .pure _

theorem reads_skipSection : Reads skipSection Loose.brokenSection := by
  have hkeyword : Reads sectionKeyword _ :=
    (Reads.keyword _).or ((Reads.keyword _).or (Reads.keyword _))
  have htoken : Reads (tokenBefore sectionKeyword) _ :=
    .tokenBefore (fun _ ↦ True) fun _ _ h ↦ absurd trivial h
  have hskip : Reads skipSection _ :=
    hkeyword.bind fun _ ↦ htoken.many.bind fun _ ↦ .pure _
  refine hskip.mono fun ts s h ↦ ?_
  obtain ⟨us, vs, u, rfl, -, ws, zs, xs, rfl, -, rfl, rfl⟩ := h
  rfl

theorem reads_anySection : Reads anySection Loose.anySection := by
  have hsound : Reads soundSection Loose.soundSection :=
    (reads_environmentSection.map _).or
      ((reads_agentFilesSection.map _).or (reads_launchPolicySection.map _))
  exact (hsound.recoverBy reads_skipSection).resumeBefore _

theorem reads_masFile : Reads masFile Loose.masFile := by
  have hfile : Reads masFile _ := (reads_anySection.many.bind fun _ ↦ .atEnd _).named _
  rw [Production.bind_pure_eq_map] at hfile
  refine hfile.mono fun ts mas h ↦ ?_
  obtain ⟨sections, hsections, rfl⟩ := h
  exact ⟨sections, hsections, (foldl_addSection [] sections).symm⟩

theorem reads_agentTest : Reads agentTest Loose.agentTest := by
  have hagent : Reads (located identifier) Strict.identifier.located :=
    .of_realizes realizes_located_identifier confined_identifier.located.quiet
  have hmodule : Reads moduleRef Strict.moduleRef :=
    .of_realizes realizes_moduleRef confined_moduleRef.quiet
  have hcondition : Reads (statement testCondition) Strict.testCondition.statement :=
    realizes_testCondition.reads_statement confined_testCondition solid_testCondition
  apply Reads.rule
  refine Reads.located ?_ (.bind (.located (.token _)) _)
  exact hagent.bind fun _ ↦ (Reads.sign _).bind fun _ ↦ hmodule.optional.bind fun _ ↦
    hcondition.many.bind fun _ ↦ (Reads.sign _).bind fun _ ↦ .pure _

theorem reads_testScript : Reads testScript Loose.testScript := by
  have hmas : Reads masRef Strict.masRef := .of_realizes realizes_masRef confined_masRef.quiet
  have htimeout : Reads timeout Strict.timeout :=
    .of_realizes realizes_timeout confined_timeout.quiet
  have htest : Reads anyTest Loose.agentTest.resumed := reads_agentTest.resumeBefore _
  exact ((Reads.keyword _).bind fun _ ↦ (Reads.sign _).bind fun _ ↦ hmas.bind fun _ ↦
    htimeout.optional.bind fun _ ↦ htest.many.bind fun _ ↦ (Reads.sign _).bind fun _ ↦
      .atEnd _).rule _

end MasCheck.Grammar
