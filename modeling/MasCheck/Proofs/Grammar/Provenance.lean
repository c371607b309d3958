import MasCheck.Proofs.Grammar.MendedUnit
import MasCheck.Proofs.Grammar.Scattered
import MasCheck.Proofs.Tree.Spans

/-!
# Where trees come from

Recovery invents nothing. Every agent file, launch rule and condition of a tree is derived by the
strict grammar from the tokens in its place, and they stand in the order of the source. So does
the path of an environment, or else it stands for a skipped reference. All places lie within the
source. This holds of every source that has a tree, well formed or not.
-/

namespace MasCheck

open HasSpans (spans)

/-! ## The parts of a tree -/

/-- The path of an environment: that of a reference, or an empty one in the place of tokens that
hold no reference up to their end. -/
inductive IsReference (ts : List Lexeme) : Located String → Prop
  | read {us vs ws : List Lexeme} {path : Located String} (htokens : ts = us ++ vs ++ ws)
      (href : Strict.envRef vs path)
      (hpath : Strict.quotedText.located (tokensIn path.span ts) path) :
      IsReference ts path
  | skipped {us vs ws : List Lexeme} (htokens : ts = us ++ vs ++ ws) (hvs : vs ≠ [])
      (hnone : ∀ qs path, qs <:+ vs → ¬ Strict.envRef qs path) :
      IsReference ts ⟨"", Lexeme.spanOf vs⟩

structure MasFile.IsFrom (ts : List Lexeme) (mas : MasFile) : Prop where
  agentFiles : Strict.agentFile.DerivedInPlace ts mas.agentFiles
  rules : ∀ policy ∈ mas.launchPolicy, Strict.launchRule.DerivedInPlace ts policy.node.rules
  archive : ∀ env ∈ mas.environment, IsReference ts env.node.archive

def TestScript.IsFrom (ts : List Lexeme) (script : TestScript) : Prop :=
  ∀ test ∈ script.tests, Strict.testCondition.DerivedInPlace ts test.node.conditions

/-! ## The parts of the loose grammars -/

namespace Loose

open Production Grammar

variable {ts : List Lexeme}

theorem scattered_agentFiles {files : List (Located AgentFile)} (h : agentFiles ts files) :
    Strict.agentFile.Scattered ts files := by
  obtain ⟨us, _, u, rfl, -, vs, ws, found, rfl, hbetween, rfl, rfl⟩ := h
  obtain ⟨a, qs, b, rfl, hfound⟩ := between_iff.1 hbetween
  have hall := (Scattered.of_statements hfound).around (us ++ [⟨.sign .leftBrace, a⟩])
    [⟨.sign .rightBrace, b⟩]
  simpa using hall

theorem scattered_launchPolicy {policy : Located LaunchPolicy} (h : launchPolicy ts policy) :
    Strict.launchRule.Scattered ts policy.node.rules := by
  obtain ⟨⟨us, _, u, rfl, -, vs, ws, found, rfl, hbetween, rfl, hpolicy⟩, -⟩ := h
  obtain ⟨a, qs, b, rfl, hfound⟩ := between_iff.1 hbetween
  have hall := (Scattered.of_statements hfound).around (us ++ [⟨.sign .leftBrace, a⟩])
    [⟨.sign .rightBrace, b⟩]
  rw [hpolicy]
  simpa using hall

/-- The path of a reference is one of its tokens. -/
theorem quotedText_of_envRef {path : Located String} (h : Strict.envRef ts path) :
    ∃ us vs ws, ts = us ++ vs ++ ws ∧ Strict.quotedText.located vs path := by
  obtain ⟨us, _, u, rfl, -, hbody⟩ := h
  obtain ⟨a, _, rfl, vs, ws, text, rfl, hvs, hbody⟩ := sign_bind_iff.1 hbody
  obtain ⟨b, _, rfl, rfl, rfl⟩ := sign_bind_iff.1 hbody
  exact ⟨us ++ [⟨.sign .equals, a⟩], vs, [⟨.sign .dot, b⟩], by simp, hvs⟩

theorem isReference_of_envRef {us vs ws : List Lexeme} {path : Located String}
    (h : Strict.envRef vs path) (hordered : InOrder ((us ++ vs ++ ws).map Lexeme.span)) :
    IsReference (us ++ vs ++ ws) path := by
  refine .read rfl h ?_
  obtain ⟨ps, qs, rs, rfl, hqs⟩ := quotedText_of_envRef h
  have hsplit : us ++ (ps ++ qs ++ rs) ++ ws = (us ++ ps) ++ qs ++ (rs ++ ws) := by simp
  rw [hsplit] at hordered ⊢
  exact solid_quotedText.located.keepsPlace.derives hordered hqs

theorem isReference_archive {us vs ws : List Lexeme} {path : Located String}
    (h : archive vs path) (hordered : InOrder ((us ++ vs ++ ws).map Lexeme.span)) :
    IsReference (us ++ vs ++ ws) path := by
  obtain ⟨ts, _, ⟨node, span⟩, rfl, ⟨hstatement, hspan⟩, rfl, hpath⟩ := h
  rw [List.append_nil] at hordered ⊢
  obtain rfl : span = Lexeme.spanOf ts := hspan
  cases node with
  | none =>
    obtain rfl : path = ⟨"", Lexeme.spanOf ts⟩ := hpath
    obtain ⟨hmended, hts⟩ := hstatement
    cases hmended with
    | nothing hnone => exact .skipped rfl hts hnone
  | some read =>
    obtain rfl : path = read := hpath
    cases hstatement.1 with
    | whole href => exact isReference_of_envRef href hordered
    | rest hsuffix _ href _ =>
      obtain ⟨ps, rfl⟩ := hsuffix
      have hsplit : ∀ qs, us ++ (ps ++ qs) ++ ws = (us ++ ps) ++ qs ++ ws := by simp
      rw [hsplit] at hordered ⊢
      exact isReference_of_envRef href hordered

theorem scattered_conditions {test : Located AgentTest} (h : agentTest ts test) :
    Strict.testCondition.Scattered ts test.node.conditions := by
  obtain ⟨⟨us, _, agent, rfl, -, hbody⟩, -⟩ := h
  obtain ⟨a, _, rfl, vs, _, module, rfl, -, hbody⟩ := sign_bind_iff.1 hbody
  obtain ⟨qs, _, found, rfl, hfound, hbody⟩ := hbody
  obtain ⟨b, _, rfl, rfl, htest⟩ := sign_bind_iff.1 hbody
  have hall := (Scattered.of_statements hfound).around (us ++ [⟨.sign .leftBrace, a⟩] ++ vs)
    [⟨.sign .rightBrace, b⟩]
  rw [htest]
  simpa using hall

/-! ## Sections -/

theorem scattered_section_agentFiles {sec : Section} (h : anySection ts sec) :
    Strict.agentFile.Scattered ts (Strict.agentFilesOf [sec]) := by
  obtain ⟨us, vs, rfl, (⟨env, -, rfl⟩ | ⟨files, hfiles, rfl⟩ | ⟨policy, -, rfl⟩) | rfl⟩ := h
  · exact .nil _
  · have hall := (scattered_agentFiles hfiles).behind us
    simpa [Strict.agentFilesOf] using hall
  · exact .nil _
  · exact .nil _

def rulesOf (sections : List Section) : List (Located LaunchRule) :=
  (Strict.policiesOf sections).flatMap fun policy ↦ policy.node.rules

theorem scattered_section_rules {sec : Section} (h : anySection ts sec) :
    Strict.launchRule.Scattered ts (rulesOf [sec]) := by
  obtain ⟨us, vs, rfl, (⟨env, -, rfl⟩ | ⟨files, -, rfl⟩ | ⟨policy, hpolicy, rfl⟩) | rfl⟩ := h
  · exact .nil _
  · exact .nil _
  · have hall := (scattered_launchPolicy hpolicy).behind us
    simpa [rulesOf, Strict.policiesOf] using hall
  · exact .nil _

theorem archive_of_environment {env : Located Environment} (h : environment ts env) :
    ∃ us vs ws, ts = us ++ vs ++ ws ∧ archive vs env.node.archive := by
  obtain ⟨⟨us, _, u, rfl, -, hbody⟩, -⟩ := h
  obtain ⟨a, _, rfl, vs, _, path, rfl, hpath, hbody⟩ := sign_bind_iff.1 hbody
  obtain ⟨ps, qs, init, rfl, -, hbody⟩ := hbody
  obtain ⟨b, _, rfl, rfl, henv⟩ := sign_bind_iff.1 hbody
  rw [henv]
  exact ⟨us ++ [⟨.sign .leftBrace, a⟩], vs, ps ++ [⟨.sign .rightBrace, b⟩], by simp, hpath⟩

theorem isReference_of_mem {sections : List Section} (h : anySection.many ts sections)
    (hordered : InOrder (ts.map Lexeme.span)) {env : Located Environment}
    (henv : env ∈ Strict.environmentsOf sections) : IsReference ts env.node.archive := by
  obtain ⟨sec, hsec, hof⟩ := List.mem_filterMap.1 henv
  cases sec <;> cases hof
  obtain ⟨us, _, ws, rfl, ps, qs, rfl, hsound⟩ := (Scattered.of_many h).exists_of_mem hsec
  obtain (⟨env, henv, ⟨⟩⟩ | ⟨files, -, ⟨⟩⟩ | ⟨policy, -, ⟨⟩⟩) | ⟨⟨⟩⟩ := hsound
  obtain ⟨front, vs, back, rfl, hpath⟩ := archive_of_environment henv
  have hsplit : us ++ (ps ++ (front ++ vs ++ back)) ++ ws =
      (us ++ ps ++ front) ++ vs ++ (back ++ ws) := by simp
  rw [hsplit] at hordered ⊢
  exact isReference_archive hpath hordered

theorem flatMap_rulesOf (sections : List Section) :
    (sections.flatMap fun sec ↦ rulesOf [sec]) = rulesOf sections := by
  induction sections with
  | nil => rfl
  | cons sec sections ih =>
    rw [List.flatMap_cons, ih]
    cases sec <;> simp [rulesOf, Strict.policiesOf]

theorem isFrom_masFile {mas : MasFile} (h : masFile ts mas)
    (hordered : InOrder (ts.map Lexeme.span)) : mas.IsFrom ts := by
  obtain ⟨sections, hsections, rfl⟩ := h
  have hfiles : Strict.agentFile.Scattered ts (Strict.agentFilesOf sections) := by
    have hall := Scattered.many (fun _ _ hsec ↦ scattered_section_agentFiles hsec) hsections
    simpa [Strict.agentFilesOf] using hall
  have hrules : Strict.launchRule.Scattered ts (rulesOf sections) :=
    flatMap_rulesOf sections ▸
      Scattered.many (fun _ _ hsec ↦ scattered_section_rules hsec) hsections
  refine ⟨hfiles.derivedInPlace solid_agentFile.keepsPlace hordered, fun policy hpolicy ↦ ?_,
    fun env henv ↦ isReference_of_mem hsections hordered (List.mem_of_head? henv)⟩
  obtain ⟨first, -, rfl⟩ := Option.map_eq_some_iff.1 hpolicy
  exact hrules.derivedInPlace solid_launchRule.keepsPlace hordered

theorem isFrom_testScript {script : TestScript} (h : testScript ts script)
    (hordered : InOrder (ts.map Lexeme.span)) : script.IsFrom ts := by
  obtain ⟨us, _, u, rfl, -, hbody⟩ := h
  obtain ⟨a, _, rfl, vs, _, mas, rfl, -, hbody⟩ := sign_bind_iff.1 hbody
  obtain ⟨ws, _, seconds, rfl, -, qs, _, tests, rfl, htests, hbody⟩ := hbody
  obtain ⟨b, _, rfl, rfl, rfl⟩ := sign_bind_iff.1 hbody
  intro test htest
  obtain ⟨ps, _, rs, rfl, front, ts, rfl, hts⟩ := (Scattered.of_many htests).exists_of_mem htest
  have hall := (scattered_conditions hts).around
    (us ++ ⟨.sign .leftBrace, a⟩ :: (vs ++ (ws ++ (ps ++ front)))) (rs ++ [⟨.sign .rightBrace, b⟩])
  refine Scattered.derivedInPlace solid_testCondition.keepsPlace ?_ hordered
  simpa using hall

end Loose

/-! ## Trees of sources -/

namespace UnitTree

theorem isFrom_tree (file source : String) :
    (∀ mas, (ofMas file source).tree = some mas →
      mas.IsFrom (Repaired.ofSource source).tokens ∧
        ∀ s ∈ spans mas, s.Within source.toList) ∧
    ∀ script, (ofScript file source).tree = some script →
      script.IsFrom (Repaired.ofSource source).tokens ∧
        ∀ s ∈ spans script, s.Within source.toList := by
  have hordered := Repaired.inOrder_tokens source
  refine ⟨fun mas htree ↦ ?_, fun script htree ↦ ?_⟩
  · have hmas := (Grammar.reads_masFile.of_parse htree).1
    refine ⟨Loose.isFrom_masFile hmas hordered, fun s hs ↦ ?_⟩
    exact ((Loose.places_masFile (S := fun _ ↦ False) _ _ hmas s hs).resolve_left id).within
  · have hscript := (Grammar.reads_testScript.of_parse htree).1
    refine ⟨Loose.isFrom_testScript hscript hordered, fun s hs ↦ ?_⟩
    exact ((Loose.places_testScript (S := fun _ ↦ False) _ _ hscript s hs).resolve_left id).within

/-- The entry behind the stray word is found. -/
theorem agentFiles_ne_nil_of_strayWord {sec : Grammar.Section}
    (h : strayWordFileSketch.Mended sec) : Strict.agentFilesOf [sec] ≠ [] := by
  obtain ⟨found, hfound, rfl⟩ := h
  obtain ⟨v, -, hv, ⟨⟩, rfl⟩ := List.forall₂_cons_left_iff.1 hfound
  cases v with
  | some file => simp [Strict.agentFilesOf]
  | none =>
    have hpath : Strict.quotedText.located [⟨.quoted .double "a", ⟨12, 15⟩⟩] ⟨"a", ⟨12, 15⟩⟩ :=
      ⟨⟨_, rfl, rfl⟩, rfl⟩
    have hentry : Strict.agentFile [⟨.quoted .double "a", ⟨12, 15⟩⟩, ⟨.sign .dot, ⟨15, 16⟩⟩]
        ⟨{ path := ⟨"a", ⟨12, 15⟩⟩, parameters := [] }, ⟨12, 16⟩⟩ :=
      ⟨⟨[_], _, _, rfl, hpath, [], _, none, rfl, rfl,
        Production.sign_bind_iff.2 ⟨_, _, rfl, rfl, rfl⟩⟩, rfl⟩
    cases hv with
    | nothing hnone => exact absurd hentry (hnone _ _ (List.suffix_cons _ _))

theorem isFrom_strayWord :
    (∃ mas, (ofMas "m" strayWordFile).tree = some mas ∧ mas.agentFiles ≠ [] ∧
      mas.IsFrom (Repaired.ofSource strayWordFile).tokens ∧
        ∀ s ∈ spans mas, s.Within strayWordFile.toList) ∧
    ∃ script, (ofScript "t" strayWordScript).tree = some script ∧
      script.IsFrom (Repaired.ofSource strayWordScript).tokens ∧
        ∀ s ∈ spans script, s.Within strayWordScript.toList := by
  obtain ⟨⟨_, ⟨sections, hsections, rfl⟩, hmas⟩, -⟩ := ofMas_of_sketches "m" tokens_strayWordFile
  obtain ⟨⟨script, -, hscript⟩, -⟩ := ofScript_of_sketch "t" tokens_strayWordScript
  obtain ⟨sec, -, hsec, ⟨⟩, rfl⟩ := List.forall₂_cons_left_iff.1 hsections
  exact ⟨⟨_, hmas, agentFiles_ne_nil_of_strayWord hsec, (isFrom_tree "m" strayWordFile).1 _ hmas⟩,
    script, hscript, (isFrom_tree "t" strayWordScript).2 _ hscript⟩

end UnitTree

end MasCheck
