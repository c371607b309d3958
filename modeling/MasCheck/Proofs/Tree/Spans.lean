import MasCheck.Proofs.Grammar.Loose
import MasCheck.Proofs.Token.Place

/-!
# Places in trees

Every place that a tree keeps is that of some of the tokens that the tree was made from. This goes
through the productions: each of them takes its value from its own tokens and from values given to
it before.
-/

namespace MasCheck

/-! ## The places that a tree keeps -/

class HasSpans (α : Type) where
  spans : α → List Span

open HasSpans (spans)

namespace HasSpans

variable {α : Type} [HasSpans α]

instance : HasSpans String := ⟨fun _ ↦ []⟩

instance : HasSpans InitValue := ⟨fun _ ↦ []⟩

instance : HasSpans LaunchName := ⟨fun _ ↦ []⟩

instance : HasSpans Target := ⟨fun _ ↦ []⟩

instance : HasSpans (Located α) := ⟨fun x ↦ x.span :: spans x.node⟩

instance : HasSpans (Option α) := ⟨fun x ↦ x.elim [] spans⟩

instance : HasSpans (List α) := ⟨fun xs ↦ xs.flatMap spans⟩

instance : HasSpans InitEntry := ⟨fun e ↦ spans e.key ++ spans e.value⟩

instance : HasSpans Environment := ⟨fun e ↦ spans e.archive ++ spans e.init⟩

instance : HasSpans Parameter := ⟨fun p ↦ spans p.key ++ spans p.value⟩

instance : HasSpans AgentFile := ⟨fun f ↦ spans f.path ++ spans f.parameters⟩

instance : HasSpans Constraint := ⟨fun c ↦ spans c.value⟩

instance : HasSpans Entity where
  spans
    | .constraints items => spans items
    | .named _ => []
    | .any => []

instance : HasSpans LaunchComponent := ⟨fun c ↦ spans c.name ++ (spans c.number ++ spans c.target)⟩

instance : HasSpans LaunchRule := ⟨fun r ↦ spans r.condition ++ spans r.components⟩

instance : HasSpans LaunchPolicy := ⟨fun p ↦ spans p.rules⟩

instance : HasSpans MasFile where
  spans file := spans file.environment ++
    (file.extraEnvironments ++ (spans file.agentFiles ++ spans file.launchPolicy))

instance : HasSpans Grammar.Section where
  spans
    | .environment env => spans env
    | .agentFiles files => spans files
    | .launchPolicy policy => spans policy
    | .broken => []

instance : HasSpans (MentalOperator × α) := ⟨fun atom ↦ spans atom.2⟩

instance : HasSpans MentalLiteral := ⟨fun l ↦ spans l.term⟩

instance : HasSpans TestCondition := ⟨fun c ↦ spans c.literals⟩

instance : HasSpans AgentTest where
  spans test := spans test.agent ++ (spans test.module ++ spans test.conditions)

instance : HasSpans TestScript where
  spans script := spans script.mas ++ (spans script.timeout ++ spans script.tests)

theorem spans_getD (xs : Option (List α)) : spans (xs.getD []) ⊆ spans xs := by
  cases xs with
  | none => exact List.nil_subset _
  | some xs => exact List.Subset.refl _

theorem spans_join (xs : Option (Option α)) : spans xs.join ⊆ spans xs := by
  cases xs with
  | none => exact List.nil_subset _
  | some x => exact List.Subset.refl _

theorem spans_head? (xs : List α) : spans xs.head? ⊆ spans xs := by
  cases xs with
  | nil => exact List.nil_subset _
  | cons x xs => exact List.subset_append_left _ _

theorem span_mem_spans {x : Located α} {xs : List (Located α)} (h : x ∈ xs) :
    x.span ∈ spans xs :=
  List.mem_flatMap.2 ⟨x, h, List.mem_cons_self⟩

theorem spans_filterMap (xs : List (Option α)) : spans (xs.filterMap id) ⊆ spans xs := by
  intro s hs
  obtain ⟨x, hx, hsx⟩ := List.mem_flatMap.1 hs
  obtain ⟨v, hv, rfl⟩ := List.mem_filterMap.1 hx
  exact List.mem_flatMap.2 ⟨some x, hv, hsx⟩

end HasSpans

/-! ## Productions that keep places of their tokens -/

namespace Production

variable {α β : Type} [HasSpans α] [HasSpans β]

/-- The places in a value are those of some of its tokens, or of the given ones. -/
def Places (S : Span → Prop) (P : Production α) : Prop :=
  ∀ ts x, P ts x → ∀ s ∈ spans x, S s ∨ IsPlace ts s

namespace Places

variable {S : Span → Prop} {P Q : Production α}

theorem of_empty (h : ∀ x : α, spans x = []) : P.Places S := by
  intro ts x _ s hs
  rw [h x] at hs
  cases hs

theorem token {f : Token → Option α} (h : ∀ t x, f t = some x → spans x = []) :
    (Production.token f).Places S := by
  rintro ts x ⟨l, rfl, hl⟩ s hs
  rw [h _ _ hl] at hs
  cases hs

protected theorem pure {x : α} (h : ∀ s ∈ spans x, S s) : (pure x : Production α).Places S := by
  rintro ts y ⟨rfl, rfl⟩ s hs
  exact .inl (h s hs)

theorem bind {f : α → Production β} (hP : P.Places S)
    (hf : ∀ x, (f x).Places fun s ↦ s ∈ spans x ∨ S s) : (P >>= f).Places S := by
  rintro ts y ⟨us, vs, x, rfl, hx, hy⟩ s hs
  rcases hf x vs y hy s hs with (hs | hs) | hs
  · rcases hP us x hx s hs with hs | hs
    · exact .inl hs
    · exact .inr (hs.append_right vs)
  · exact .inl hs
  · exact .inr (hs.append_left us)

/-- Of the first part nothing is kept. -/
theorem after {γ : Type} {P : Production γ} {f : γ → Production β} (hf : ∀ x, (f x).Places S) :
    (P >>= f).Places S := by
  rintro ts y ⟨us, vs, x, rfl, -, hy⟩ s hs
  rcases hf x vs y hy s hs with hs | hs
  · exact .inl hs
  · exact .inr (hs.append_left us)

theorem map {g : α → β} (hP : P.Places S) (hg : ∀ x, spans (g x) ⊆ spans x) :
    (P.map g).Places S := by
  rintro ts y ⟨x, hx, rfl⟩ s hs
  exact hP ts x hx s (hg x hs)

protected theorem or (hP : P.Places S) (hQ : Q.Places S) : (P.or Q).Places S := by
  rintro ts x (hx | hx) s hs
  · exact hP ts x hx s hs
  · exact hQ ts x hx s hs

protected theorem optional (hP : P.Places S) : P.optional.Places S := by
  intro ts x hx s hs
  cases x with
  | none => cases hs
  | some x => exact hP ts x hx s hs

protected theorem many (hP : P.Places S) : P.many.Places S := by
  intro ts xs hxs s hs
  induction hxs with
  | nil => cases hs
  | @cons us vs x xs hx _ ih =>
    rcases List.mem_append.1 hs with hs | hs
    · exact (hP us x hx s hs).imp_right fun hs ↦ hs.append_right vs
    · exact (ih hs).imp_right fun hs ↦ hs.append_left us

theorem separated₁ (hP : P.Places S) : P.separated₁.Places S := by
  intro ts xs hxs s hs
  induction hxs with
  | @one ts x hx =>
    rcases List.mem_append.1 hs with hs | hs
    · exact hP ts x hx s hs
    · cases hs
  | @cons us vs x xs span hx _ ih =>
    rcases List.mem_append.1 hs with hs | hs
    · exact (hP us x hx s hs).imp_right fun hs ↦ hs.append_right _
    · exact (ih hs).imp_right fun hs ↦ (hs.append_left [_]).append_left us

protected theorem between {opening closing : Sign} (hP : P.Places S) :
    (P.between opening closing).Places S := by
  refine .after fun _ ↦ hP.bind fun x ↦ .after fun _ ↦ .pure fun s hs ↦ .inl hs

theorem located (hP : P.Places S) (hsolid : P.located.Solid) : P.located.Places S := by
  rintro ts x hx s hs
  rcases List.mem_cons.1 hs with rfl | hs
  · exact .inr ⟨[], ts, [], by simp, hsolid ts x hx, hx.2⟩
  · exact hP ts x.node hx.1 s hs

/-! ### Recovery -/

theorem resumed (hP : P.Places S) : P.resumed.Places S := by
  rintro ts x ⟨us, vs, rfl, hx⟩ s hs
  exact (hP vs x hx s hs).imp_right fun hs ↦ hs.append_left us

theorem statement (hP : P.Places S) : P.statement.Places S := by
  rintro ts v ⟨hv, -⟩ s hs
  cases hv with
  | whole hx => exact hP ts _ hx s hs
  | rest hsuffix _ hx _ =>
    obtain ⟨us, rfl⟩ := hsuffix
    exact (hP _ _ hx s hs).imp_right fun hs ↦ hs.append_left us
  | nothing => cases hs

end Places

end Production

/-! ## The strict rules -/

namespace Strict

open Production Grammar

variable {S : Span → Prop}

theorem places_located_quotedText : quotedText.located.Places S :=
  .located (.of_empty fun _ ↦ rfl) solid_quotedText.located

theorem places_number : number.Places S :=
  .located (.of_empty fun _ ↦ rfl) (.located (.bind_right _ fun _ ↦ (Solid.token _).bind _))

theorem places_key : key.Places S :=
  .located (.of_empty fun _ ↦ rfl) solid_key

theorem places_value : value.Places S :=
  places_key.or (places_located_quotedText.or places_number)

theorem places_envRef : envRef.Places S :=
  .after fun _ ↦ .after fun _ ↦ places_located_quotedText.bind fun _ ↦ .after fun _ ↦
    .pure fun _ hs ↦ .inl hs

theorem places_initEntry : initEntry.Places S := by
  refine .located (places_key.bind fun k ↦ .after fun _ ↦ ?_) (.located (solid_key.bind _))
  have hvalue : initValue.located.Places fun s ↦ s ∈ spans k ∨ S s :=
    .located (.of_empty fun _ ↦ rfl) solid_initValue.located
  exact hvalue.bind fun v ↦ .pure fun s hs ↦ (List.mem_append.1 hs).symm.imp_right .inl

theorem places_initialization : initialization.Places S :=
  .after fun _ ↦ .after fun _ ↦ places_initEntry.separated₁.between.bind fun _ ↦ .after fun _ ↦
    .pure fun _ hs ↦ .inl hs

theorem places_parameter : parameter.Places S :=
  .located (places_key.bind fun _ ↦ .after fun _ ↦ places_value.bind fun _ ↦
    .pure fun _ hs ↦ (List.mem_append.1 hs).symm.imp_right .inl) (.located (solid_key.bind _))

theorem places_agentFile : agentFile.Places S := by
  refine .located (places_located_quotedText.bind fun path ↦ ?_) solid_agentFile
  refine places_parameter.separated₁.between.optional.bind fun parameters ↦ .after fun _ ↦ ?_
  refine .pure fun s hs ↦ ?_
  rcases List.mem_append.1 hs with hs | hs
  · exact .inr (.inl hs)
  · exact .inl (HasSpans.spans_getD parameters hs)

theorem places_target : target.Places S :=
  .located (.of_empty fun _ ↦ rfl) (.located (.token _))

theorem places_launchName : launchName.Places S :=
  .located (.of_empty fun _ ↦ rfl) (.located (.token _))

theorem places_launchNumber : launchNumber.Places S :=
  .between (.after fun _ ↦ .after fun _ ↦ places_value)

theorem places_launchComponent : launchComponent.Places S := by
  refine .located (places_launchName.bind fun name ↦ ?_) (.located (.bind (.located (.token _)) _))
  refine places_launchNumber.optional.bind fun number ↦ .after fun _ ↦ ?_
  refine places_target.bind fun file ↦ .pure fun s hs ↦ ?_
  rcases List.mem_append.1 hs with hs | hs
  · exact .inr (.inr (.inl hs))
  · exact (List.mem_append.1 hs).symm.imp_right .inl

theorem places_launch : launch.Places S :=
  .after fun _ ↦ places_launchComponent.separated₁.bind fun _ ↦ .after fun _ ↦
    .pure fun _ hs ↦ .inl hs

theorem places_constraint : constraint.Places S :=
  .located (.after fun _ ↦ .after fun _ ↦ places_value.bind fun _ ↦ .pure fun _ hs ↦ .inl hs)
    (.located ((Solid.token _).bind _))

theorem places_entity : entity.Places S := by
  refine .located (.bind (.or ?_ ?_) fun _ ↦ .after fun _ ↦ .pure fun _ hs ↦ .inl hs) ?_
  · exact places_constraint.separated₁.between.map fun _ ↦ List.Subset.refl _
  · refine .token fun t x hx ↦ ?_
    split at hx <;> cases hx <;> rfl
  · exact .located (.bind_right _ fun _ ↦ (Solid.exactly _).bind _)

theorem places_launchRule : launchRule.Places S := by
  refine .located (.or ?_ ?_) solid_launchRule
  · refine .after fun _ ↦ places_entity.bind fun condition ↦ .after fun _ ↦ ?_
    exact places_launch.bind fun _ ↦ .pure fun s hs ↦ (List.mem_append.1 hs).symm.imp_right .inl
  · exact places_launch.map fun _ ↦ List.Subset.refl _

theorem places_masRef : masRef.Places S :=
  .after fun _ ↦ .after fun _ ↦ places_located_quotedText.bind fun _ ↦ .after fun _ ↦
    .pure fun _ hs ↦ .inl hs

theorem places_timeout : timeout.Places S :=
  .after fun _ ↦ .after fun _ ↦ places_number.bind fun _ ↦ .after fun _ ↦
    .pure fun _ hs ↦ .inl hs

theorem places_located_identifier : identifier.located.Places S :=
  .located (.of_empty fun _ ↦ rfl) (.located (.token _))

theorem places_moduleRef : moduleRef.Places S :=
  .after fun _ ↦ places_located_identifier.bind fun _ ↦ .after fun _ ↦ .pure fun _ hs ↦ .inl hs

theorem places_term : term.Places S :=
  .located (.of_empty fun _ ↦ rfl) solid_term

theorem places_mentalAtom : mentalAtom.Places S :=
  .after fun _ ↦ places_term.between.bind fun _ ↦ .pure fun _ hs ↦ .inl hs

theorem places_negatedLiteral : negatedLiteral.Places S :=
  .after fun _ ↦ places_mentalAtom.between.bind fun _ ↦ .pure fun _ hs ↦ .inl hs

theorem places_mentalLiteral : mentalLiteral.Places S :=
  .located (places_negatedLiteral.or (places_mentalAtom.map fun _ ↦ List.Subset.refl _))
    solid_mentalLiteral

theorem places_testCondition : testCondition.Places S := by
  refine .located (.after fun _ ↦ ?_) solid_testCondition
  exact places_mentalLiteral.separated₁.bind fun _ ↦ .after fun _ ↦ .pure fun _ hs ↦ .inl hs

end Strict

/-! ## The rules with recovery -/

namespace Loose

open Production Grammar

variable {S : Span → Prop}

theorem places_archive : archive.Places S := by
  refine (Strict.places_envRef.statement.located (solid_statement _).located).bind fun path ↦ ?_
  refine .pure fun s hs ↦ .inl ?_
  obtain ⟨node, span⟩ := path
  cases node with
  | none =>
    obtain rfl := List.mem_singleton.1 hs
    exact List.mem_cons_self
  | some path => exact List.mem_cons_of_mem span hs

theorem places_environment : environment.Places S := by
  refine .located (.after fun _ ↦ .after fun _ ↦ places_archive.bind fun path ↦ ?_)
    (.located ((Solid.exactly _).bind _))
  refine Strict.places_initialization.statement.optional.bind fun init ↦ .after fun _ ↦ ?_
  refine .pure fun s hs ↦ ?_
  rcases List.mem_append.1 hs with hs | hs
  · exact .inr (.inl hs)
  · exact .inl (HasSpans.spans_join init (HasSpans.spans_getD init.join hs))

theorem places_agentFiles : agentFiles.Places S :=
  .after fun _ ↦ Strict.places_agentFile.statement.many.between.bind fun files ↦
    .pure fun _ hs ↦ .inl (HasSpans.spans_filterMap files hs)

theorem places_launchPolicy : launchPolicy.Places S :=
  .located (.after fun _ ↦ Strict.places_launchRule.statement.many.between.bind fun rules ↦
    .pure fun _ hs ↦ .inl (HasSpans.spans_filterMap rules hs))
    (.located ((Solid.exactly _).bind _))

theorem places_anySection : anySection.Places S := by
  refine .resumed (.or (.or ?_ (.or ?_ ?_)) ?_)
  · exact places_environment.map fun _ ↦ List.Subset.refl _
  · exact places_agentFiles.map fun _ ↦ List.Subset.refl _
  · exact places_launchPolicy.map fun _ ↦ List.Subset.refl _
  · rintro ts _ rfl s hs
    cases hs

theorem spans_environmentsOf (sections : List Section) :
    spans (Strict.environmentsOf sections) ⊆ spans sections := by
  intro s hs
  obtain ⟨env, henv, hsenv⟩ := List.mem_flatMap.1 hs
  obtain ⟨sec, hsec, hof⟩ := List.mem_filterMap.1 henv
  refine List.mem_flatMap.2 ⟨sec, hsec, ?_⟩
  cases sec <;> cases hof
  exact hsenv

theorem spans_agentFilesOf (sections : List Section) :
    spans (Strict.agentFilesOf sections) ⊆ spans sections := by
  intro s hs
  obtain ⟨file, hfile, hsfile⟩ := List.mem_flatMap.1 hs
  obtain ⟨sec, hsec, hof⟩ := List.mem_flatMap.1 hfile
  refine List.mem_flatMap.2 ⟨sec, hsec, ?_⟩
  cases sec with
  | agentFiles files => exact List.mem_flatMap.2 ⟨file, hof, hsfile⟩
  | _ => cases hof

theorem spans_policiesOf (sections : List Section) :
    spans (Strict.policiesOf sections) ⊆ spans sections := by
  intro s hs
  obtain ⟨policy, hpolicy, hspolicy⟩ := List.mem_flatMap.1 hs
  obtain ⟨sec, hsec, hof⟩ := List.mem_filterMap.1 hpolicy
  refine List.mem_flatMap.2 ⟨sec, hsec, ?_⟩
  cases sec <;> cases hof
  exact hspolicy

/-- The policies are made one under the place of the first. -/
theorem spans_mergedPolicy (policies : List (Located LaunchPolicy)) :
    spans (policies.head?.map fun first ↦
      (⟨⟨policies.flatMap fun policy ↦ policy.node.rules⟩, first.span⟩ : Located LaunchPolicy)) ⊆
      spans policies := by
  intro s hs
  cases policies with
  | nil => cases hs
  | cons first policies =>
    rcases List.mem_cons.1 hs with rfl | hs
    · exact HasSpans.span_mem_spans (x := first) List.mem_cons_self
    · obtain ⟨rule, hrule, hsrule⟩ := List.mem_flatMap.1 hs
      obtain ⟨policy, hpolicy, hrule⟩ := List.mem_flatMap.1 hrule
      have hs : s ∈ spans policy.node := List.mem_flatMap.2 ⟨rule, hrule, hsrule⟩
      exact List.mem_flatMap.2 ⟨policy, hpolicy, List.mem_cons_of_mem _ hs⟩

theorem spans_fileOf (sections : List Section) :
    spans (Strict.fileOf sections) ⊆ spans sections := by
  intro s hs
  rcases List.mem_append.1 hs with hs | hs
  · exact spans_environmentsOf sections (HasSpans.spans_head? _ hs)
  rcases List.mem_append.1 hs with hs | hs
  · obtain ⟨env, henv, rfl⟩ := List.mem_map.1 hs
    exact spans_environmentsOf sections (HasSpans.span_mem_spans (List.mem_of_mem_tail henv))
  rcases List.mem_append.1 hs with hs | hs
  · exact spans_agentFilesOf sections hs
  · exact spans_policiesOf sections (spans_mergedPolicy _ hs)

theorem places_masFile : masFile.Places S :=
  places_anySection.many.map spans_fileOf

theorem places_agentTest : agentTest.Places S := by
  refine .located (Strict.places_located_identifier.bind fun agent ↦ .after fun _ ↦ ?_)
    (.located (.bind (.located (.token _)) _))
  refine Strict.places_moduleRef.optional.bind fun module ↦ ?_
  refine Strict.places_testCondition.statement.many.bind fun conditions ↦ .after fun _ ↦ ?_
  refine .pure fun s hs ↦ ?_
  rcases List.mem_append.1 hs with hs | hs
  · exact .inr (.inr (.inl hs))
  · rcases List.mem_append.1 hs with hs | hs
    · exact .inr (.inl hs)
    · exact .inl (HasSpans.spans_filterMap conditions hs)

theorem places_testScript : testScript.Places S := by
  refine .after fun _ ↦ .after fun _ ↦ Strict.places_masRef.bind fun mas ↦ ?_
  refine Strict.places_timeout.optional.bind fun seconds ↦ ?_
  refine places_agentTest.resumed.many.bind fun tests ↦ .after fun _ ↦ .pure fun s hs ↦ ?_
  rcases List.mem_append.1 hs with hs | hs
  · exact .inr (.inr (.inl hs))
  · exact (List.mem_append.1 hs).symm.imp_right .inl

end Loose

end MasCheck
