import MasCheck.Proofs.Grammar.Acceptance
import MasCheck.Proofs.Grammar.ConfinedRules

/-!
# Units that fail early

Every parse looks at something. A MAS file that begins with a token that opens no section is tried
again at the first keyword of a section, and if the section there breaks and is cut off by another
keyword, the parse is over, however much is behind. A test script is given up at its first token
if that is not its keyword.
-/

namespace MasCheck.Grammar

open MasCheck.Parser

variable {α : Type}

/-! ## Every unit is looked at -/

theorem keepsReach_statementEnd : KeepsReach statementEnd :=
  (KeepsReach.exactly _).or (.exactly _)

theorem keepsReach_skipStatement : KeepsReach skipStatement := by
  have htoken : KeepsReach (tokenBefore statementEnd) := keepsReach_statementEnd.tokenBefore
  have htokens : KeepsReach (many₁ (tokenBefore statementEnd)) :=
    htoken.bind fun _ ↦ htoken.many.bind fun _ ↦ .pure _
  exact (htoken.many.bind fun _ ↦ .exactly _).or (htokens.bind fun _ ↦ .pure _)

theorem keepsReach_statement {p : Parser α} (hp : KeepsReach p) : KeepsReach (statement p) :=
  (keepsReach_statementEnd.resumeBefore (hp.bind fun _ ↦ .pure _)).recoverBy
    (keepsReach_skipStatement.bind fun _ ↦ .pure _)

theorem keepsReach_agentTest : KeepsReach agentTest := by
  have hconditions : KeepsReach (many (statement testCondition)) :=
    (keepsReach_statement confined_testCondition.keepsReach).many
  apply KeepsReach.labelledWith
  exact confined_identifier.located.keepsReach.bind fun _ ↦ (KeepsReach.exactly _).bind fun _ ↦
    confined_moduleRef.keepsReach.optional.bind fun _ ↦ hconditions.bind fun _ ↦
      (KeepsReach.exactly _).bind fun _ ↦ .pure _

theorem looks_masFile : masFile.Looks := by
  apply Looks.labelledWith
  exact Looks.bind_of_isSome (isSome_many anySection) fun _ ↦
    Looks.endOfInput.bind fun _ ↦ .pure _

theorem looks_testScript : testScript.Looks := by
  have htest : KeepsReach anyTest := (KeepsReach.exactly _).resumeBefore keepsReach_agentTest
  apply Looks.labelledWith
  exact (Looks.exactly _).bind fun _ ↦ (KeepsReach.exactly _).bind fun _ ↦
    confined_masRef.keepsReach.bind fun _ ↦ confined_timeout.keepsReach.optional.bind fun _ ↦
      htest.many.bind fun _ ↦ (KeepsReach.exactly _).bind fun _ ↦
        KeepsReach.endOfInput.bind fun _ ↦ .pure _

/-! ## Sections that break -/

section

variable {l : Lexeme} {ls : List Lexeme} {a b : Span}

/-- A token that opens no section. -/
theorem failsWithin_soundSection (hl : ∀ word, l.token ≠ .keyword word) :
    soundSection.FailsWithin (l :: ls) 1 := by
  have henvironment : environmentSection.FailsWithin (l :: ls) 1 :=
    ((FailsWithin.exactly (hl _)).bind _).located.labelledWith _ _
  have hagentFiles : agentFilesSection.FailsWithin (l :: ls) 1 :=
    ((FailsWithin.exactly (hl _)).bind _).labelledWith _ _
  have hpolicy : launchPolicySection.FailsWithin (l :: ls) 1 :=
    ((FailsWithin.exactly (hl _)).bind _).located.labelledWith _ _
  exact (henvironment.bind _).or ((hagentFiles.bind _).or (hpolicy.bind _))

theorem failsWithin_sectionKeyword (hl : ∀ word, l.token ≠ .keyword word) :
    sectionKeyword.FailsWithin (l :: ls) 1 :=
  (FailsWithin.exactly (hl _)).or ((FailsWithin.exactly (hl _)).or (.exactly (hl _)))

/-- A section without its opening brace. -/
theorem failsWithin_soundSection_of_broken (hl : l.token ≠ .sign .leftBrace) :
    soundSection.FailsWithin (⟨.keyword .agentFiles, a⟩ :: l :: ls) 2 := by
  have henvironment : environmentSection.FailsWithin (⟨.keyword .agentFiles, a⟩ :: l :: ls) 1 :=
    ((FailsWithin.exactly (by simp)).bind _).located.labelledWith _ _
  have hagentFiles : agentFilesSection.FailsWithin (⟨.keyword .agentFiles, a⟩ :: l :: ls) 2 :=
    (FailsWithin.exactly_bind (((FailsWithin.exactly hl).bind _).bind _)).labelledWith _ _
  have hpolicy : launchPolicySection.FailsWithin (⟨.keyword .agentFiles, a⟩ :: l :: ls) 1 :=
    ((FailsWithin.exactly (by simp)).bind _).located.labelledWith _ _
  exact ((henvironment.bind _).mono (by decide)).or
    ((hagentFiles.bind _).or ((hpolicy.bind _).mono (by decide)))

theorem sectionKeyword_of_agentFiles {c : Cursor} (n : Notes)
    (hrest : c.rest = ⟨.keyword .agentFiles, a⟩ :: ls) :
    ∃ n', sectionKeyword c n = .done () (c.after ⟨.keyword .agentFiles, a⟩ ls) n' ∧
      n'.reach ≤ max n.reach (c.index + 1) := by
  have hother : (keyword .environment).FailsWithin (⟨.keyword .agentFiles, a⟩ :: ls) 1 :=
    .exactly (by simp)
  have hreach := hother.looksWithin c n hrest
  have hword := keyword_of_rest (n := (keyword .environment c n).notes) hrest
  refine ⟨(keyword .environment c n).notes.look c.index, ?_, ?_⟩
  · rw [sectionKeyword, or_of_none (hother.refuses c n hrest),
      or_of_some (congrArg Outcome.value hword), hword]
  · simp only [Notes.look]
    omega

theorem admits_sectionKeyword : sectionKeyword.Admits (⟨.keyword .agentFiles, a⟩ :: ls) := by
  intro c n hrest
  obtain ⟨n', hdone, -⟩ := sectionKeyword_of_agentFiles n hrest
  rw [hdone]
  rfl

theorem looksWithin_sectionKeyword (ts : List Lexeme) : sectionKeyword.LooksWithin ts 1 :=
  (LooksWithin.exactly _ _).or ((LooksWithin.exactly _ _).or (.exactly _ _))

/-- A broken section is skipped up to the next keyword. -/
theorem looksWithin_skipSection :
    skipSection.LooksWithin (⟨.keyword .agentFiles, a⟩ :: ⟨.keyword .agentFiles, b⟩ :: ls) 2 := by
  intro c n hrest
  obtain ⟨n', hdone, hreach⟩ := sectionKeyword_of_agentFiles n hrest
  have hskipped : (do
      let _ ← many (tokenBefore sectionKeyword)
      return Section.broken : Parser Section).LooksWithin (⟨.keyword .agentFiles, b⟩ :: ls) 1 :=
    (looksWithin_sectionKeyword _).tokenBefore.many_bind
      (refuses_tokenBefore admits_sectionKeyword) (.pure _ _)
  have hlast := hskipped (c.after ⟨.keyword .agentFiles, a⟩ _) n' rfl
  rw [skipSection, bind_of_done hdone]
  simp only [Cursor.after] at hlast ⊢
  omega

/-! ## Early failures -/

/-- A token that opens no section, a section without its braces, and another section. -/
theorem failsWithin_masFile (hl : ∀ word, l.token ≠ .keyword word) :
    masFile.FailsWithin (l :: ⟨.keyword .agentFiles, a⟩ :: ⟨.keyword .agentFiles, b⟩ :: ls) 3 := by
  have hexplains := realizes_soundSection.explains
  have hbroken : soundSection.FailsWithin
      (⟨.keyword .agentFiles, a⟩ :: ⟨.keyword .agentFiles, b⟩ :: ls) 2 :=
    failsWithin_soundSection_of_broken nofun
  have hsection : anySection.FailsWithin _ 3 :=
    FailsWithin.resumeBefore
      (((failsWithin_soundSection hl).recoverBy ((failsWithin_sectionKeyword hl).bind _)).mono
        (by decide))
      (hbroken.looksWithin.recoverBy looksWithin_skipSection)
      (fun c n hrest ↦ not_clean_recoverBy hexplains (hbroken.refuses c n hrest))
      (failsWithin_sectionKeyword hl) admits_sectionKeyword
      ((looksWithin_sectionKeyword _).mono (by decide))
  have hend : FailsWithin (do endOfInput; return [].foldl addSection MasFile.empty)
      (l :: ⟨.keyword .agentFiles, a⟩ :: ⟨.keyword .agentFiles, b⟩ :: ls) 3 :=
    (FailsWithin.endOfInput.bind _).mono (by decide)
  exact (hsection.many_bind hend).labelledWith _ _

theorem failsWithin_testScript (hl : l.token ≠ .keyword .masTest) :
    testScript.FailsWithin (l :: ls) 1 :=
  ((FailsWithin.exactly hl).bind _).labelledWith _ _

end

end MasCheck.Grammar

namespace MasCheck.Parser

variable {α : Type} {p : Parser α} {tokens : List Lexeme} {k : Nat}

/-! ## The reach of a parse -/

theorem Looks.reach_parse (h : p.Looks) (tokens : List Lexeme) (finish : Nat) :
    0 < (p.parse tokens finish).reach :=
  (h.bind fun _ ↦ KeepsReach.endOfInput.bind fun _ ↦ .pure _) (.start tokens finish) .start

theorem FailsWithin.reach_parse (h : p.FailsWithin tokens k) (finish : Nat) :
    (p.parse tokens finish).reach ≤ k := by
  have hreach : _ ≤ max 0 (0 + k) := (h.bind fun x ↦ do Parser.endOfInput; return x).looksWithin
    (.start tokens finish) .start rfl
  exact Nat.le_trans hreach (by omega)

end MasCheck.Parser
