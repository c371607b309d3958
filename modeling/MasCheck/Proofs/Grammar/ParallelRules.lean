import MasCheck.Proofs.Grammar.Parallel

/-!
# The grammars do not see places

Each rule of the two grammars does the same on the same tokens, but for the places in its tree.
-/

namespace MasCheck.Grammar

open MasCheck.Parser HasErasure

variable {S : Span → Span → Prop} {α : Type} [HasErasure α] {p : Parser α}

/-! ## Common parts -/

theorem parallel_identifier : Parallel S identifier identifier :=
  (Parallel.select _).labelled _

theorem parallel_quotedText : Parallel S quotedText quotedText :=
  (Parallel.select _).labelled _

theorem parallel_number : Parallel S number number := by
  apply Parallel.labelled
  apply Parallel.located
  refine (Parallel.exactly _).optional.bind fun minus minus' hminus ↦
    (Parallel.select _).bind fun digits digits' hdigits ↦ .pure ?_
  obtain rfl : digits = digits' := hdigits
  cases minus <;> cases minus' <;> first | rfl | cases hminus

theorem parallel_key : Parallel S key key :=
  (Parallel.select _).located.labelled _

theorem parallel_value : Parallel S value value :=
  parallel_key.or (parallel_quotedText.located.or parallel_number)

theorem parallel_statementEnd : Parallel S statementEnd statementEnd :=
  (Parallel.exactly _).or (.exactly _)

theorem parallel_skipStatement : Parallel S skipStatement skipStatement := by
  have hskip := Parallel.tokenBefore (S := S) parallel_statementEnd
  exact .or (hskip.many.bind fun _ _ _ ↦ .exactly _) (hskip.many₁.bind fun _ _ _ ↦ .pure rfl)

theorem parallel_statement (hp : Parallel S p p) : Parallel S (statement p) (statement p) := by
  have htried : Parallel S (do let x ← p; return some x) (do let x ← p; return some x) :=
    hp.bind fun _ _ hx ↦ .pure (congrArg some hx)
  exact (parallel_statementEnd.resumeBefore htried).recoverBy
    (parallel_skipStatement.bind fun _ _ _ ↦ .pure rfl)

theorem parallel_block (hp : Parallel S p p) :
    Parallel S (between .leftBrace .rightBrace (many (statement p)))
      (between .leftBrace .rightBrace (many (statement p))) :=
  (parallel_statement hp).many.between

/-! ## MAS files -/

theorem parallel_envRef : Parallel S envRef envRef :=
  ((Parallel.exactly _).bind fun _ _ _ ↦ (Parallel.exactly _).bind fun _ _ _ ↦
    parallel_quotedText.located.bind fun _ _ hpath ↦ (Parallel.exactly _).bind fun _ _ _ ↦
      .pure hpath).rule _

theorem erased_initValues (xs : List InitValue) : erased xs = xs :=
  erased_list_eq_self (fun _ ↦ rfl) xs

theorem parallel_initValueWithin (depth : Nat) :
    Parallel S (initValueWithin depth) (initValueWithin depth) := by
  induction depth with
  | zero => exact .select _
  | succ depth ih =>
    apply Parallel.rule
    refine .or ?_ (.or ?_ (.select _))
    · refine (Parallel.select _).bind fun name name' hname ↦
        ih.separated₁.between.bind fun args args' hargs ↦ .pure ?_
      rw [erased_initValues, erased_initValues] at hargs
      exact congrArg₂ InitValue.function hname hargs
    · refine ih.separated.between.bind fun items items' hitems ↦ .pure ?_
      rw [erased_initValues, erased_initValues] at hitems
      exact congrArg InitValue.list hitems

theorem parallel_initValue : Parallel S initValue initValue := by
  intro c d n m hc hn
  unfold initValue
  rw [hc.rest.length_eq]
  exact parallel_initValueWithin _ hc hn

theorem parallel_initEntry : Parallel S initEntry initEntry := by
  apply Parallel.rule
  apply Parallel.located
  exact parallel_key.bind fun _ _ hk ↦ (Parallel.exactly _).bind fun _ _ _ ↦
    parallel_initValue.located.bind fun _ _ hv ↦ .pure (congrArg₂ InitEntry.mk hk hv)

theorem parallel_initialization : Parallel S initialization initialization :=
  ((Parallel.exactly _).bind fun _ _ _ ↦ (Parallel.exactly _).bind fun _ _ _ ↦
    parallel_initEntry.separated₁.between.bind fun _ _ hentries ↦
      (Parallel.exactly _).bind fun _ _ _ ↦ .pure hentries).rule _

theorem parallel_archive : Parallel S archive archive := by
  refine (parallel_statement parallel_envRef).located.bind fun path path' hpath ↦ .pure ?_
  have hnode : path.node.map erased = path'.node.map erased := congrArg Located.node hpath
  have herased (path : Located (Option (Located String))) :
      erased (path.node.getD ⟨"", path.span⟩) = (path.node.map erased).getD ⟨"", ⟨0, 0⟩⟩ := by
    cases path.node <;> rfl
  rw [herased, herased, hnode]

theorem parallel_environmentSection : Parallel S environmentSection environmentSection := by
  apply Parallel.rule
  apply Parallel.located
  refine (Parallel.exactly _).bind fun _ _ _ ↦ (Parallel.exactly _).bind fun _ _ _ ↦
    parallel_archive.bind fun _ _ hpath ↦
      (parallel_statement parallel_initialization).optional.bind fun init init' hinit ↦
        (Parallel.exactly _).bind fun _ _ _ ↦ .pure (congrArg₂ Environment.mk hpath ?_)
  rw [erased_getD, erased_getD, erased_join, erased_join, hinit]

theorem parallel_parameter : Parallel S parameter parameter := by
  apply Parallel.rule
  apply Parallel.located
  exact parallel_key.bind fun _ _ hk ↦ (Parallel.exactly _).bind fun _ _ _ ↦
    parallel_value.bind fun _ _ hv ↦ .pure (congrArg₂ Parameter.mk hk hv)

theorem parallel_agentFile : Parallel S agentFile agentFile := by
  apply Parallel.rule
  apply Parallel.located
  refine parallel_quotedText.located.bind fun _ _ hpath ↦
    parallel_parameter.separated₁.between.optional.bind fun _ _ hparameters ↦
      (Parallel.exactly _).bind fun _ _ _ ↦ .pure (congrArg₂ AgentFile.mk hpath ?_)
  rw [erased_getD, erased_getD, hparameters]

theorem parallel_agentFilesSection : Parallel S agentFilesSection agentFilesSection := by
  refine ((Parallel.exactly _).bind fun _ _ _ ↦
    (parallel_block parallel_agentFile).bind fun _ _ hfiles ↦ .pure ?_).rule _
  rw [erased_filterMap, erased_filterMap, hfiles]

theorem parallel_target : Parallel S target target :=
  (Parallel.select _).located.named _

theorem parallel_launchComponent : Parallel S launchComponent launchComponent := by
  have hname : Parallel S launchName launchName := (Parallel.select _).located.labelled _
  have hnumber : Parallel S launchNumber launchNumber :=
    Parallel.between ((Parallel.exactly _).bind fun _ _ _ ↦ (Parallel.exactly _).bind fun _ _ _ ↦
      parallel_value)
  apply Parallel.rule
  apply Parallel.located
  refine hname.bind fun _ _ hn ↦ hnumber.optional.bind fun _ _ hnum ↦
    (Parallel.exactly _).bind fun _ _ _ ↦ parallel_target.bind fun _ _ ht ↦ .pure ?_
  change LaunchComponent.mk (erased _) (erased _) (erased _) = .mk (erased _) (erased _) (erased _)
  rw [hn, hnum, ht]

theorem parallel_launch : Parallel S launch launch :=
  ((Parallel.exactly _).bind fun _ _ _ ↦ parallel_launchComponent.separated₁.bind fun _ _ hxs ↦
    (Parallel.exactly _).bind fun _ _ _ ↦ .pure hxs).rule _

theorem parallel_constraint : Parallel S constraint constraint := by
  apply Parallel.rule
  apply Parallel.located
  refine ((Parallel.select _).labelled _).bind fun _ _ hword ↦
    (Parallel.exactly _).bind fun _ _ _ ↦ parallel_value.bind fun _ _ hv ↦ .pure ?_
  exact congrArg₂ Constraint.mk hword hv

theorem parallel_entity : Parallel S entity entity := by
  have hname (f : Token → Option Entity) :
      Parallel S (labelled .entityName (select f)) (labelled .entityName (select f)) :=
    (Parallel.select _).labelled _
  apply Parallel.rule
  apply Parallel.located
  refine Parallel.bind (.or ?_ (hname _)) fun _ _ he ↦
    (Parallel.exactly _).bind fun _ _ _ ↦ .pure he
  exact parallel_constraint.separated₁.between.bind fun _ _ hitems ↦
    .pure (congrArg Entity.constraints hitems)

theorem parallel_launchRule : Parallel S launchRule launchRule := by
  apply Parallel.rule
  apply Parallel.located
  refine .or ?_ ?_
  · exact (Parallel.exactly _).bind fun _ _ _ ↦ parallel_entity.bind fun _ _ hcondition ↦
      (Parallel.exactly _).bind fun _ _ _ ↦ parallel_launch.bind fun _ _ hcomponents ↦
        .pure (congrArg₂ LaunchRule.mk (congrArg some hcondition) hcomponents)
  · exact parallel_launch.bind fun _ _ hcomponents ↦ .pure (congrArg₂ LaunchRule.mk rfl hcomponents)

theorem parallel_launchPolicySection : Parallel S launchPolicySection launchPolicySection := by
  apply Parallel.rule
  apply Parallel.located
  refine (Parallel.exactly _).bind fun _ _ _ ↦
    (parallel_block parallel_launchRule).bind fun _ _ hrules ↦ .pure (congrArg LaunchPolicy.mk ?_)
  rw [erased_filterMap, erased_filterMap, hrules]

theorem parallel_anySection : Parallel S anySection anySection := by
  have hkeyword : Parallel S sectionKeyword sectionKeyword :=
    (Parallel.exactly _).or ((Parallel.exactly _).or (.exactly _))
  have hskip : Parallel S skipSection skipSection :=
    hkeyword.bind fun _ _ _ ↦ hkeyword.tokenBefore.many.bind fun _ _ _ ↦ .pure rfl
  have hsound : Parallel S soundSection soundSection := by
    refine .or ?_ (.or ?_ ?_)
    · exact parallel_environmentSection.bind fun _ _ h ↦ .pure (congrArg Section.environment h)
    · exact parallel_agentFilesSection.bind fun _ _ h ↦ .pure (congrArg Section.agentFiles h)
    · exact parallel_launchPolicySection.bind fun _ _ h ↦ .pure (congrArg Section.launchPolicy h)
  exact hkeyword.resumeBefore (hsound.recoverBy hskip)

theorem parallel_masFile : Parallel S masFile masFile := by
  apply Parallel.named
  refine parallel_anySection.many.bind fun _ _ hsections ↦
    Parallel.endOfInput.bind fun _ _ _ ↦ .pure ?_
  rw [erased_foldl_addSection, erased_foldl_addSection, hsections]

/-! ## Test scripts -/

theorem parallel_masRef : Parallel S masRef masRef :=
  ((Parallel.exactly _).bind fun _ _ _ ↦ (Parallel.exactly _).bind fun _ _ _ ↦
    parallel_quotedText.located.bind fun _ _ hpath ↦ (Parallel.exactly _).bind fun _ _ _ ↦
      .pure hpath).rule _

theorem parallel_timeout : Parallel S timeout timeout :=
  ((Parallel.exactly _).bind fun _ _ _ ↦ (Parallel.exactly _).bind fun _ _ _ ↦
    parallel_number.bind fun _ _ hseconds ↦ (Parallel.exactly _).bind fun _ _ _ ↦
      .pure hseconds).rule _

theorem erased_tokens (ts : List Token) : erased ts = ts :=
  erased_list_eq_self (fun _ ↦ rfl) ts

theorem erased_termItems (items : List (List Token)) : erased items = items :=
  erased_list_eq_self erased_tokens items

theorem parallel_termItemWithin (depth : Nat) :
    Parallel S (termItemWithin depth) (termItemWithin depth) := by
  induction depth with
  | zero => exact .select _
  | succ depth ih =>
    refine .or ?_ ?_
    · refine (Parallel.exactly _).bind fun _ _ _ ↦ ih.many.bind fun inner inner' hinner ↦
        (Parallel.exactly _).bind fun _ _ _ ↦ .pure ?_
      rw [erased_termItems, erased_termItems] at hinner
      rw [hinner]
    · exact Parallel.bind (.token _ _ _) fun _ _ ht ↦ .pure (congrArg (fun t ↦ [t]) ht)

theorem parallel_term : Parallel S term term := by
  have hitem : Parallel S termItem termItem := by
    intro c d n m hc hn
    unfold termItem
    rw [hc.rest.length_eq]
    exact parallel_termItemWithin _ hc hn
  apply Parallel.named
  apply Parallel.located
  refine hitem.many₁.bind fun items items' hitems ↦ .pure ?_
  rw [erased_termItems, erased_termItems] at hitems
  rw [hitems]

theorem parallel_mentalAtom : Parallel S mentalAtom mentalAtom :=
  ((Parallel.select _).bind fun _ _ hoperator ↦ parallel_term.between.bind fun _ _ hterm ↦
    .pure (congrArg₂ Prod.mk hoperator hterm)).rule _

theorem parallel_mentalLiteral : Parallel S mentalLiteral mentalLiteral := by
  have hmake (negated : Bool) {atom atom' : MentalOperator × Located String}
      (h : erased atom = erased atom') :
      erased (MentalLiteral.mk negated atom.1 atom.2) = erased (.mk negated atom'.1 atom'.2) := by
    obtain ⟨hoperator, hterm⟩ := Prod.mk.inj h
    exact congrArg₂ (MentalLiteral.mk negated) hoperator hterm
  apply Parallel.rule
  apply Parallel.located
  refine .or ?_ ?_
  · exact (Parallel.exactly _).bind fun _ _ _ ↦ parallel_mentalAtom.between.bind fun _ _ hatom ↦
      .pure (hmake true hatom)
  · exact parallel_mentalAtom.bind fun _ _ hatom ↦ .pure (hmake false hatom)

theorem parallel_testCondition : Parallel S testCondition testCondition := by
  have hliterals : Parallel S mentalCondition mentalCondition :=
    parallel_mentalLiteral.separated₁.rule _
  apply Parallel.rule
  apply Parallel.located
  refine (Parallel.select _).bind fun _ _ hoperator ↦ hliterals.bind fun _ _ hxs ↦
    (Parallel.exactly _).bind fun _ _ _ ↦ .pure (congrArg₂ TestCondition.mk hoperator hxs)

theorem parallel_moduleRef : Parallel S moduleRef moduleRef :=
  ((Parallel.exactly _).bind fun _ _ _ ↦ parallel_identifier.located.bind fun _ _ hname ↦
    (Parallel.exactly _).bind fun _ _ _ ↦ .pure hname).rule _

theorem parallel_agentTest : Parallel S agentTest agentTest := by
  apply Parallel.rule
  apply Parallel.located
  refine parallel_identifier.located.bind fun _ _ hagent ↦ (Parallel.exactly _).bind fun _ _ _ ↦
    parallel_moduleRef.optional.bind fun _ _ hmodule ↦
      (parallel_statement parallel_testCondition).many.bind fun _ _ hconditions ↦
        (Parallel.exactly _).bind fun _ _ _ ↦ .pure ?_
  change AgentTest.mk (erased _) (erased _) (erased _) = .mk (erased _) (erased _) (erased _)
  rw [erased_filterMap, erased_filterMap, hagent, hmodule, hconditions]

theorem parallel_testScript : Parallel S testScript testScript := by
  have htest : Parallel S anyTest anyTest :=
    (Parallel.exactly _).resumeBefore parallel_agentTest
  apply Parallel.rule
  refine (Parallel.exactly _).bind fun _ _ _ ↦ (Parallel.exactly _).bind fun _ _ _ ↦
    parallel_masRef.bind fun _ _ hmas ↦ parallel_timeout.optional.bind fun _ _ hseconds ↦
      htest.many.bind fun _ _ htests ↦ (Parallel.exactly _).bind fun _ _ _ ↦
        Parallel.endOfInput.bind fun _ _ _ ↦ .pure ?_
  change TestScript.mk (erased _) (erased _) (erased _) = .mk (erased _) (erased _) (erased _)
  rw [hmas, hseconds, htests]

end MasCheck.Grammar
