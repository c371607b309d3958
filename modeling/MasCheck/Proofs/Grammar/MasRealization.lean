import MasCheck.Proofs.Grammar.RecoveryFree
import MasCheck.Proofs.Grammar.StrictMas

/-!
# The parser of MAS files realizes the strict grammar

One theorem for each rule, from names and values up to whole files. What may follow matters in two
places only: an initial value must not be followed by an opening parenthesis, and a file must not
be followed by anything.
-/

namespace MasCheck.Grammar

open MasCheck.Parser

/-! ## Names, texts and values -/

theorem realizes_quotedText : Realizes quotedText Strict.quotedText anywhere :=
  (Realizes.select _).labelled _

theorem solid_quotedText : Strict.quotedText.Solid :=
  .token _

theorem realizes_located_quotedText :
    Realizes (located quotedText) (Strict.quotedText.located) anywhere :=
  realizes_quotedText.located solid_quotedText

theorem realizes_key : Realizes key Strict.key anywhere :=
  ((Realizes.select _).located (.token _)).labelled _

/-- The first token of a number. -/
theorem number_head {ts : List Lexeme} {x : Located String} (h : Strict.number ts x) :
    ∃ l us, ts = l :: us ∧ l.token.isKeyword = false ∧ (∀ text, l.token ≠ .identifier text) ∧
      ∀ quote text, l.token ≠ .quoted quote text := by
  obtain ⟨⟨us, vs, minus, rfl, hminus, ws, zs, digits, rfl, ⟨l, rfl, hl⟩, -⟩, -⟩ := h
  cases minus with
  | none =>
    obtain rfl : us = [] := hminus
    refine ⟨l, zs, rfl, ?_⟩
    dsimp only at hl
    split at hl
    · next h => simp [h, Token.isKeyword]
    · next h => simp [h, Token.isKeyword]
    · cases hl
  | some u =>
    obtain ⟨span, rfl⟩ := hminus
    exact ⟨_, _, rfl, rfl, nofun, nofun⟩

theorem realizes_number : Realizes number Strict.number anywhere := by
  refine Realizes.labelled (Realizes.located ?_ ?_) _
  · refine (Realizes.exactly _).optional_anywhere.bind (fun _ ↦ (Realizes.select _).andReturn _) ?_
    rintro minus us y rest ⟨vs, ws, digits, rfl, ⟨l, rfl, hl⟩, -⟩ -
    apply refuses_exactly_cons
    intro h
    simp [h] at hl
  · exact .bind_right _ fun _ ↦ (Production.Solid.token _).bind _

theorem realizes_value : Realizes value Strict.value anywhere := by
  refine realizes_key.or (realizes_located_quotedText.or realizes_number ?_) ?_
  · intro ts x rest h _
    obtain ⟨l, us, rfl, -, -, hquoted⟩ := number_head h
    apply refuses_located
    apply refuses_labelled
    apply refuses_select_cons
    split
    · next h => exact absurd h (hquoted _ _)
    · rfl
  · intro ts x rest h _
    apply refuses_labelled
    apply refuses_located
    rcases h with ⟨⟨l, rfl, hl⟩, -⟩ | h
    · apply refuses_select_cons
      dsimp only at hl
      split at hl
      · next h => simp [h]
      · cases hl
    · obtain ⟨l, us, rfl, hkeyword, hidentifier, -⟩ := number_head h
      apply refuses_select_cons
      split
      · next h => exact absurd h (hidentifier _)
      · next h => simp [h, Token.isKeyword] at hkeyword
      · rfl

theorem solid_key : Strict.key.Solid :=
  (Production.Solid.token _).located

/-! ## The environment -/

theorem realizes_envRef : Realizes envRef Strict.envRef anywhere := by
  apply Realizes.rule
  exact (Realizes.keyword _).andThen fun _ ↦ (Realizes.sign _).andThen fun _ ↦
    realizes_located_quotedText.andThen fun _ ↦ (Realizes.sign _).andReturn _

theorem solid_envRef : Strict.envRef.Solid :=
  (Production.Solid.exactly _).bind _

/-- Initial values with a bound on their depth, alternatives in the order of the parser. -/
def boundedInitValue : Nat → Production InitValue
  | 0 => Production.token fun _ ↦ none
  | depth + 1 =>
    Production.or
      (do
        let name ← Production.token fun
          | .identifier text => some text
          | _ => none
        let args ← Production.between .leftParen .rightParen
          (Production.separated₁ (boundedInitValue depth))
        return .function name args)
      (Production.or
        (do
          let items ← Production.between .leftBracket .rightBracket
            (Production.separated (boundedInitValue depth))
          return .list items)
        (Production.token fun
          | .identifier text => some (.identifier text)
          | .integer text => some (.integer text)
          | .decimal text => some (.decimal text)
          | .quoted _ text => some (.string text)
          | _ => none))

theorem refuses_initValueWithin (depth : Nat) {l : Lexeme} {rest : List Lexeme}
    (hl : l.token = .sign .rightBracket) : (initValueWithin depth).Refuses (l :: rest) := by
  cases depth with
  | zero => exact refuses_select_cons rfl
  | succ depth =>
    have hfunction : (l.token : Token) ≠ .sign .leftBracket := by simp [hl]
    apply refuses_rule
    apply refuses_or
    · exact refuses_bind (refuses_select_cons (by simp [hl])) _
    · exact refuses_or (refuses_bind (refuses_between _ hfunction) _)
        (refuses_select_cons (by simp [hl]))

theorem realizes_initValueWithin (depth : Nat) :
    Realizes (initValueWithin depth) (boundedInitValue depth) (notBefore (.sign .leftParen)) := by
  induction depth with
  | zero => exact (Realizes.select _).mono fun _ _ ↦ trivial
  | succ depth ih =>
    have hcomma : ∀ l rest, l.token = .sign .comma →
        notBefore (.sign .leftParen) (l :: rest) := by
      intro l rest hl
      rw [notBefore_cons, hl]
      nofun
    apply Realizes.rule
    refine Realizes.or ?_ (Realizes.or ?_ ?_ ?_) ?_
    · refine Realizes.mono (F := anywhere) ?_ fun _ _ ↦ trivial
      refine (Realizes.select _).andThen fun name ↦ Realizes.andReturn ?_ _
      refine (ih.separated₁ hcomma).between ?_
      intro l rest hl
      rw [notBefore_cons, notBefore_cons, hl]
      exact ⟨nofun, nofun⟩
    · refine Realizes.mono (F := anywhere) ?_ fun _ _ ↦ trivial
      refine Realizes.andReturn ?_ _
      refine (ih.separated hcomma).between ?_
      intro l rest hl
      rw [notBefore_cons, notBefore_cons, hl]
      exact ⟨nofun, nofun, refuses_initValueWithin depth hl⟩
    · exact (Realizes.select _).mono fun _ _ ↦ trivial
    · rintro ts x rest ⟨l, rfl, hl⟩ -
      refine refuses_bind (refuses_between _ ?_) _
      intro h
      simp [h] at hl
    · -- A function is told from a name and from a list by its first two tokens.
      rintro ts x rest (⟨us, vs, items, rfl, hus, rfl, rfl⟩ | ⟨l, rfl, hl⟩) hrest
      · obtain ⟨a, ws, b, rfl, -⟩ := Production.between_iff.1 hus
        exact refuses_bind (refuses_select_cons rfl) _
      · refine refuses_token_bind _ _ fun name _ ↦ refuses_bind ?_ _
        cases rest with
        | nil => exact refuses_bind (refuses_exactly_nil _) _
        | cons k rest => exact refuses_between _ (notBefore_cons.1 hrest)

theorem initValueOf_of_bounded {depth : Nat} {ts : List Lexeme} {v : InitValue}
    (h : boundedInitValue depth ts v) : Strict.InitValueOf ts v := by
  induction depth generalizing ts v with
  | zero =>
    obtain ⟨l, -, hl⟩ := h
    cases hl
  | succ depth ih =>
    rcases h with ⟨us, vs, name, rfl, ⟨⟨t, a⟩, rfl, hname⟩, hargs⟩ | h | ⟨⟨t, a⟩, rfl, hatom⟩
    · obtain ⟨ws, zs, args, rfl, hbetween, rfl, rfl⟩ := hargs
      obtain ⟨b, us, c, rfl, hus⟩ := Production.between_iff.1 hbetween
      obtain rfl : t = .identifier name := by
        cases t <;> simp_all
      rw [List.append_nil]
      exact .function (hus.imp fun _ _ _ ↦ ih)
    · obtain ⟨us, vs, items, rfl, hbetween, rfl, rfl⟩ := h
      obtain ⟨a, us, b, rfl, hus⟩ := Production.between_iff.1 hbetween
      rw [List.append_nil]
      obtain ⟨found, hfound, rfl⟩ := hus
      cases found with
      | none =>
        obtain rfl : us = [] := hfound
        exact .empty
      | some items => exact .list (Production.Separated.imp hfound fun _ _ _ ↦ ih)
    · cases t <;> simp only [reduceCtorEq, Option.some.injEq] at hatom <;> subst hatom <;>
        constructor

theorem bounded_of_initValueOf {depth : Nat} {ts : List Lexeme} {v : InitValue}
    (h : Strict.InitValueOf ts v) (hdepth : ts.length < depth) : boundedInitValue depth ts v := by
  induction depth generalizing ts v with
  | zero => omega
  | succ depth ih =>
    cases h with
    | identifier => exact .inr (.inr ⟨_, rfl, rfl⟩)
    | integer => exact .inr (.inr ⟨_, rfl, rfl⟩)
    | decimal => exact .inr (.inr ⟨_, rfl, rfl⟩)
    | string => exact .inr (.inr ⟨_, rfl, rfl⟩)
    | @function name us args a b c hargs =>
      simp only [List.cons_append, List.length_cons, List.length_append] at hdepth
      have hbounded : Production.separated₁ (boundedInitValue depth) us args :=
        hargs.imp fun ws x hws hx ↦ ih hx (by omega)
      have hbetween : Production.between .leftParen .rightParen
          (Production.separated₁ (boundedInitValue depth))
          (⟨.sign .leftParen, b⟩ :: us ++ [⟨.sign .rightParen, c⟩]) args :=
        Production.between_iff.2 ⟨b, us, c, rfl, hbounded⟩
      exact .inl ⟨[⟨.identifier name, a⟩], _, name, rfl, ⟨_, rfl, rfl⟩, _, [], args,
        (List.append_nil _).symm, hbetween, rfl, rfl⟩
    | @empty a b =>
      have hnone : Production.separated (boundedInitValue depth) [] [] := ⟨none, rfl, rfl⟩
      have hbetween : Production.between .leftBracket .rightBracket
          (Production.separated (boundedInitValue depth))
          (⟨.sign .leftBracket, a⟩ :: [] ++ [⟨.sign .rightBracket, b⟩]) [] :=
        Production.between_iff.2 ⟨a, [], b, rfl, hnone⟩
      exact .inr (.inl ⟨_, [], [], (List.append_nil _).symm, hbetween, rfl, rfl⟩)
    | @list us items a b hitems =>
      simp only [List.cons_append, List.length_cons, List.length_append] at hdepth
      have hbounded : Production.separated₁ (boundedInitValue depth) us items :=
        hitems.imp fun ws x hws hx ↦ ih hx (by omega)
      have hsome : Production.separated (boundedInitValue depth) us items :=
        ⟨some items, hbounded, rfl⟩
      have hbetween : Production.between .leftBracket .rightBracket
          (Production.separated (boundedInitValue depth))
          (⟨.sign .leftBracket, a⟩ :: us ++ [⟨.sign .rightBracket, b⟩]) items :=
        Production.between_iff.2 ⟨a, us, b, rfl, hsome⟩
      exact .inr (.inl ⟨_, [], items, (List.append_nil _).symm, hbetween, rfl, rfl⟩)

/-- The depth that the parser allows is never reached, because each level takes a token. -/
theorem realizes_initValue :
    Realizes initValue Strict.initValue (notBefore (.sign .leftParen)) where
  sound := by
    intro c n x d h
    obtain ⟨ts, hd, hts⟩ := (realizes_initValueWithin (c.rest.length + 1)).sound h
    exact ⟨ts, hd, initValueOf_of_bounded hts⟩
  complete := by
    intro c n ts x d hd hts hsuit
    have hlength : ts.length < c.rest.length + 1 := by
      rw [hd.rest_eq, List.length_append]
      omega
    exact (realizes_initValueWithin _).complete hd (bounded_of_initValueOf hts hlength) hsuit
  explains := fun c n h ↦ (realizes_initValueWithin (c.rest.length + 1)).explains c n h

theorem solid_initValue : Strict.initValue.Solid := by
  rintro ts x h rfl
  cases h

theorem realizes_initEntry :
    Realizes initEntry Strict.initEntry (notBefore (.sign .leftParen)) := by
  apply Realizes.rule
  refine Realizes.located ?_ (solid_key.bind _)
  exact realizes_key.andThen fun _ ↦ (Realizes.sign _).andThen fun _ ↦
    (realizes_initValue.located solid_initValue).andReturn _

theorem realizes_initialization : Realizes initialization Strict.initialization anywhere := by
  have hentries : Realizes (between .leftBracket .rightBracket (separated₁ initEntry))
      (.between .leftBracket .rightBracket Strict.initEntry.separated₁) anywhere := by
    refine (realizes_initEntry.separated₁ ?_).between ?_
    · intro l rest hl
      rw [notBefore_cons, hl]
      nofun
    · intro l rest hl
      rw [notBefore_cons, notBefore_cons, hl]
      exact ⟨nofun, nofun⟩
  apply Realizes.rule
  exact (Realizes.keyword _).andThen fun _ ↦ (Realizes.sign _).andThen fun _ ↦
    hentries.andThen fun _ ↦ (Realizes.sign _).andReturn _

/-- Where recovery is not needed the reference to the archive is found. -/
theorem realizes_archive : Realizes archive Strict.envRef anywhere := by
  have h := (realizes_envRef.statement.located (solid_envRef.map some)).map
    fun path ↦ path.node.getD ⟨"", path.span⟩
  have heq : (Strict.envRef.map some).located.map (fun path ↦ path.node.getD ⟨"", path.span⟩) =
      Strict.envRef := by
    ext ts x
    constructor
    · rintro ⟨⟨path, span⟩, ⟨⟨y, hy, rfl⟩, -⟩, rfl⟩
      exact hy
    · intro hx
      exact ⟨⟨some x, Lexeme.spanOf ts⟩, ⟨⟨x, hx, rfl⟩, rfl⟩, rfl⟩
  rw [heq] at h
  exact h

theorem realizes_environmentSection :
    Realizes environmentSection Strict.environment anywhere := by
  have hinit : Realizes (optional (statement initialization))
      (Strict.initialization.optional.map (Option.map some))
      (statement initialization).Refuses := by
    rw [← Production.optional_map]
    exact realizes_initialization.statement.optional_anywhere
  have hclose : ∀ l rest, l.token = .sign .rightBrace →
      (statement initialization).Refuses (l :: rest) := by
    intro l rest hl
    have hkeyword : l.token ≠ .keyword .init := by simp [hl]
    exact refuses_statement hl (refuses_rule _ (refuses_bind (refuses_keyword_cons hkeyword) _))
  have hjoin : ∀ init : Option (List (Located InitEntry)), (init.map some).join = init := by
    intro init
    cases init <;> rfl
  apply Realizes.rule
  refine Realizes.located ?_ ((Production.Solid.exactly _).bind _)
  refine (Realizes.keyword _).andThen fun _ ↦ (Realizes.sign _).andThen fun _ ↦
    realizes_archive.andThen fun path ↦ ?_
  have h := hinit.andSign hclose fun init _ ↦ Realizes.pure
    ({ archive := path, init := init.join.getD [] } : Environment)
  rw [Production.map_bind] at h
  simp only [hjoin] at h
  exact h

/-! ## Agent files -/

theorem realizes_parameter : Realizes parameter Strict.parameter anywhere := by
  apply Realizes.rule
  refine Realizes.located ?_ (solid_key.bind _)
  exact realizes_key.andThen fun _ ↦ (Realizes.sign _).andThen fun _ ↦ realizes_value.andReturn _

theorem solid_agentFile : Strict.agentFile.Solid :=
  .located (.bind (.located (.token _)) _)

theorem realizes_agentFile : Realizes agentFile Strict.agentFile anywhere := by
  apply Realizes.rule
  refine Realizes.located ?_ solid_agentFile.of_located
  refine realizes_located_quotedText.andThen fun path ↦ ?_
  refine realizes_parameter.bracketed.optional_anywhere.andSign ?_ fun _ _ ↦ .pure _
  intro l rest hl
  exact refuses_between _ (by simp [hl])

theorem refuses_agentFile (l : Lexeme) (rest : List Lexeme) (hl : l.token = .sign .rightBrace) :
    agentFile.Refuses (l :: rest) := by
  apply refuses_rule
  apply refuses_located
  apply refuses_bind
  apply refuses_located
  exact refuses_labelled _ (refuses_select_cons (by simp [hl]))

theorem realizes_agentFilesSection :
    Realizes agentFilesSection Strict.agentFiles anywhere := by
  have hblock := realizes_agentFile.block solid_agentFile refuses_agentFile id
  rw [Production.map_id] at hblock
  exact ((Realizes.keyword _).andThen fun _ ↦ hblock).rule _

/-! ## The launch policy -/

theorem realizes_target : Realizes target Strict.target anywhere :=
  ((Realizes.select _).located (.token _)).named _

theorem realizes_launchName : Realizes launchName Strict.launchName anywhere :=
  ((Realizes.select _).located (.token _)).labelled _

theorem realizes_launchNumber : Realizes launchNumber Strict.launchNumber anywhere := by
  refine Realizes.between (F := anywhere) ?_ fun _ _ _ ↦ trivial
  exact (Realizes.keyword _).andThen fun _ ↦ (Realizes.sign _).andThen fun _ ↦ realizes_value

theorem realizes_launchComponent :
    Realizes launchComponent Strict.launchComponent anywhere := by
  apply Realizes.rule
  refine Realizes.located ?_ (.bind (.located (.token _)) _)
  refine realizes_launchName.andThen fun name ↦ ?_
  refine realizes_launchNumber.optional_anywhere.andSign ?_ fun _ _ ↦ realizes_target.andReturn _
  intro l rest hl
  exact refuses_between _ (by simp [hl])

theorem realizes_launch : Realizes launch Strict.launch anywhere := by
  apply Realizes.rule
  refine (Realizes.keyword _).andThen fun _ ↦ ?_
  refine realizes_launchComponent.separated₁_anywhere.andSign ?_ fun _ _ ↦ .pure _
  intro l rest hl
  rw [notBefore_cons, hl]
  nofun

theorem realizes_constraint : Realizes constraint Strict.constraint anywhere := by
  apply Realizes.rule
  refine Realizes.located ?_ ((Production.Solid.token _).bind _)
  exact ((Realizes.select _).labelled _).andThen fun _ ↦ (Realizes.sign _).andThen fun _ ↦
    realizes_value.andReturn _

theorem realizes_entity : Realizes entity Strict.entity anywhere := by
  apply Realizes.rule
  refine Realizes.located ?_ (.bind_right _ fun _ ↦ (Production.Solid.exactly _).bind _)
  refine Realizes.andThen ?_ fun _ ↦ (Realizes.sign _).andReturn _
  refine (realizes_constraint.bracketed.map _).or ((Realizes.select _).labelled _) ?_
  rintro ts x rest ⟨l, rfl, hl⟩ -
  refine refuses_bind (refuses_between _ ?_) _
  intro h
  simp [h] at hl

theorem solid_launchRule : Strict.launchRule.Solid :=
  .located (.or (.bind (.exactly _) _) (.map (.bind (.exactly _) _) _))

theorem realizes_launchRule : Realizes launchRule Strict.launchRule anywhere := by
  apply Realizes.rule
  refine Realizes.located ?_ solid_launchRule.of_located
  refine Realizes.or ?_ (realizes_launch.map _) ?_
  · exact (Realizes.keyword _).andThen fun _ ↦ realizes_entity.andThen fun _ ↦
      (Realizes.keyword _).andThen fun _ ↦ realizes_launch.andReturn _
  · rintro ts x rest ⟨components, ⟨us, vs, y, rfl, ⟨span, rfl⟩, -⟩, -⟩ -
    have hwhen : (⟨.keyword .launch, span⟩ : Lexeme).token ≠ .keyword .when := by simp
    exact refuses_bind (refuses_keyword_cons hwhen) _

theorem refuses_launchRule (l : Lexeme) (rest : List Lexeme) (hl : l.token = .sign .rightBrace) :
    launchRule.Refuses (l :: rest) := by
  have hwhen : l.token ≠ .keyword .when := by simp [hl]
  have hlaunch : l.token ≠ .keyword .launch := by simp [hl]
  apply refuses_rule
  apply refuses_located
  apply refuses_or
  · exact refuses_bind (refuses_keyword_cons hwhen) _
  · exact refuses_bind (refuses_rule _ (refuses_bind (refuses_keyword_cons hlaunch) _)) _

theorem realizes_launchPolicySection :
    Realizes launchPolicySection Strict.launchPolicy anywhere := by
  have hblock := realizes_launchRule.block solid_launchRule refuses_launchRule fun rules ↦
    ({ rules } : LaunchPolicy)
  rw [← Production.bind_pure_eq_map] at hblock
  apply Realizes.rule
  refine Realizes.located ?_ ((Production.Solid.exactly _).bind _)
  exact (Realizes.keyword _).andThen fun _ ↦ hblock

/-! ## The file -/

theorem refuses_environmentSection {l : Lexeme} {rest : List Lexeme}
    (hl : l.token ≠ .keyword .environment) : environmentSection.Refuses (l :: rest) :=
  refuses_rule _ (refuses_located (refuses_bind (refuses_keyword_cons hl) _))

theorem refuses_agentFilesSection {l : Lexeme} {rest : List Lexeme}
    (hl : l.token ≠ .keyword .agentFiles) : agentFilesSection.Refuses (l :: rest) :=
  refuses_rule _ (refuses_bind (refuses_keyword_cons hl) _)

/-- The sections are told apart by their keywords. -/
theorem realizes_soundSection :
    Realizes soundSection Strict.oneSection anywhere := by
  refine (realizes_environmentSection.map _).or
    ((realizes_agentFilesSection.map _).or (realizes_launchPolicySection.map _) ?_) ?_
  · rintro ts x rest ⟨policy, ⟨⟨us, vs, u, rfl, ⟨span, rfl⟩, -⟩, -⟩, -⟩ -
    exact refuses_bind (refuses_agentFilesSection (by simp)) _
  · intro ts x rest h _
    obtain ⟨l, us, rfl, hl⟩ : ∃ l us, ts = l :: us ∧ l.token ≠ .keyword .environment := by
      rcases h with ⟨files, ⟨us, vs, u, rfl, ⟨span, rfl⟩, -⟩, -⟩ |
        ⟨policy, ⟨⟨us, vs, u, rfl, ⟨span, rfl⟩, -⟩, -⟩, -⟩
      · exact ⟨_, _, rfl, by simp⟩
      · exact ⟨_, _, rfl, by simp⟩
    exact refuses_bind (refuses_environmentSection hl) _

theorem solid_oneSection : Strict.oneSection.Solid :=
  .or (.map (.located (.bind (.exactly _) _)) _)
    (.or (.map (.bind (.exactly _) _) _) (.map (.located (.bind (.exactly _) _)) _))

theorem realizes_anySection : Realizes anySection Strict.oneSection anywhere :=
  (realizes_soundSection.recoverBy _).resumeBefore _

/-- At the end there is neither a section to read nor one to skip. -/
theorem refuses_anySection_nil : anySection.Refuses [] := by
  have hread : soundSection.Refuses [] := by
    apply refuses_or
    · apply refuses_bind
      apply refuses_rule
      apply refuses_located
      exact refuses_bind (refuses_keyword_nil _) _
    · apply refuses_or
      · apply refuses_bind
        apply refuses_rule
        exact refuses_bind (refuses_keyword_nil _) _
      · apply refuses_bind
        apply refuses_rule
        apply refuses_located
        exact refuses_bind (refuses_keyword_nil _) _
  have hskip : skipSection.Refuses [] :=
    refuses_bind (refuses_or (refuses_keyword_nil _)
      (refuses_or (refuses_keyword_nil _) (refuses_keyword_nil _))) _
  exact refuses_resumeBefore_nil _ (refuses_recoverBy hread hskip)

theorem fileOf_concat (sections : List Section) (s : Section) :
    Strict.fileOf (sections ++ [s]) = addSection (Strict.fileOf sections) s := by
  cases s with
  | environment env =>
    have henvironments : Strict.environmentsOf (sections ++ [.environment env]) =
        Strict.environmentsOf sections ++ [env] := by
      simp [Strict.environmentsOf]
    cases h : Strict.environmentsOf sections with
    | nil =>
      simp [Strict.fileOf, addSection, henvironments, h, Strict.agentFilesOf, Strict.policiesOf]
    | cons first others =>
      simp [Strict.fileOf, addSection, henvironments, h, Strict.agentFilesOf, Strict.policiesOf]
  | agentFiles files =>
    simp [Strict.fileOf, addSection, Strict.environmentsOf, Strict.agentFilesOf, Strict.policiesOf]
  | launchPolicy policy =>
    have hpolicies : Strict.policiesOf (sections ++ [.launchPolicy policy]) =
        Strict.policiesOf sections ++ [policy] := by
      simp [Strict.policiesOf]
    cases h : Strict.policiesOf sections with
    | nil =>
      simp [Strict.fileOf, addSection, hpolicies, h, Strict.environmentsOf, Strict.agentFilesOf]
    | cons first others =>
      simp [Strict.fileOf, addSection, hpolicies, h, Strict.environmentsOf, Strict.agentFilesOf]
  | broken =>
    simp [Strict.fileOf, addSection, Strict.environmentsOf, Strict.agentFilesOf, Strict.policiesOf]

/-- Adding sections one after the other makes the tree of all of them. -/
theorem foldl_addSection (us vs : List Section) :
    vs.foldl addSection (Strict.fileOf us) = Strict.fileOf (us ++ vs) := by
  induction vs generalizing us with
  | nil => rw [List.append_nil, List.foldl_nil]
  | cons s vs ih =>
    rw [List.foldl_cons, ← fileOf_concat, ih, List.append_assoc, List.singleton_append]

theorem realizes_sections : Realizes (many anySection) Strict.sections anySection.Refuses :=
  realizes_anySection.many_anywhere solid_oneSection

theorem sections_unique {ts : List Lexeme} {us vs : List Section} (hus : Strict.sections ts us)
    (hvs : Strict.sections ts vs) : us = vs :=
  realizes_sections.value_unique refuses_anySection_nil hus hvs

theorem realizes_masFile : Realizes masFile Strict.masFile (· = []) := by
  have hend : ∀ sections : List Section,
      Realizes (do endOfInput; return sections.foldl addSection MasFile.empty)
        (pure (Strict.fileOf sections)) (· = []) := by
    intro sections
    rw [← List.nil_append sections, ← foldl_addSection]
    exact .atEnd _
  have hwhole := realizes_sections.bind hend (by
    rintro sections us file rest ⟨rfl, -⟩ rfl
    exact refuses_anySection_nil)
  rw [Production.bind_pure_eq_map] at hwhole
  exact hwhole.named _

end MasCheck.Grammar
