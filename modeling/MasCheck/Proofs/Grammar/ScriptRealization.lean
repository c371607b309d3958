import MasCheck.Proofs.Grammar.RecoveryFree
import MasCheck.Proofs.Grammar.Term
import MasCheck.Proofs.Grammar.MasRealization

/-!
# The parser of test scripts realizes the strict grammar

A term ends where no item of it can follow, which the closing parenthesis behind it makes sure of.
A part that may be missing is told from what follows by its keyword.
-/

namespace MasCheck.Grammar

open MasCheck.Parser

/-! ## Terms -/

/-- A plain token, or a body in parentheses. The value is the list of the tokens. -/
def termItemOf : Production (List Token) := fun ts items ↦
  items = ts.map Lexeme.token ∧
    ((∃ l, ts = [l] ∧ isPlainTermToken l.token = true) ∨
      ∃ a us b, ts = ⟨.sign .leftParen, a⟩ :: us ++ [⟨.sign .rightParen, b⟩] ∧
        Strict.IsTermBody (us.map Lexeme.token))

/-- Items with a bound on their depth, alternatives in the order of the parser. -/
def boundedTermItem : Nat → Production (List Token)
  | 0 => Production.token fun _ ↦ none
  | depth + 1 =>
    Production.or
      (do
        Production.sign .leftParen
        let inner ← Production.many (boundedTermItem depth)
        Production.sign .rightParen
        return .sign .leftParen :: inner.flatten ++ [.sign .rightParen])
      (do
        let t ← Production.token fun t ↦ if isPlainTermToken t then some t else none
        return [t])

theorem solid_boundedTermItem (depth : Nat) : (boundedTermItem depth).Solid := by
  cases depth with
  | zero => exact .token _
  | succ depth => exact .or (.bind (.exactly _) _) (.bind (.token _) _)

theorem refuses_termItemWithin (depth : Nat) {l : Lexeme} {rest : List Lexeme}
    (hl : l.token = .sign .rightParen) : (termItemWithin depth).Refuses (l :: rest) := by
  cases depth with
  | zero => exact refuses_select_cons rfl
  | succ depth =>
    apply refuses_or
    · exact refuses_bind (refuses_sign_cons (by simp [hl])) _
    · exact refuses_bind (refuses_token_cons _ _ (by simp [hl, isPlainTermToken])) _

theorem realizes_termItemWithin (depth : Nat) :
    Realizes (termItemWithin depth) (boundedTermItem depth) anywhere := by
  induction depth with
  | zero => exact Realizes.select _
  | succ depth ih =>
    refine Realizes.or ?_ ((Realizes.token _ _ _).andReturn _) ?_
    · refine (Realizes.sign _).andThen fun _ ↦ ?_
      refine (ih.many_anywhere (solid_boundedTermItem depth)).andSign ?_ fun _ _ ↦ .pure _
      exact fun l rest hl ↦ refuses_termItemWithin depth hl
    · rintro ts x rest ⟨us, vs, t, rfl, ⟨l, rfl, hl⟩, -⟩ -
      refine refuses_bind (refuses_sign_cons ?_) _
      intro h
      simp [h, isPlainTermToken] at hl

theorem body_of_items {ts : List Lexeme} {items : List (List Token)}
    (h : termItemOf.many ts items) :
    items.flatten = ts.map Lexeme.token ∧ Strict.IsTermBody (ts.map Lexeme.token) := by
  induction h with
  | nil => exact ⟨rfl, .nil⟩
  | @cons us vs x xs hx _ ih =>
    obtain ⟨rfl, hus⟩ := hx
    obtain ⟨hflatten, hvs⟩ := ih
    rw [List.flatten_cons, hflatten, List.map_append]
    refine ⟨rfl, Strict.IsTermBody.append ?_ hvs⟩
    rcases hus with ⟨l, rfl, hl⟩ | ⟨a, ws, b, rfl, hws⟩
    · exact .single hl
    · simpa using hws.nest

theorem termItemOf_of_bounded {depth : Nat} {ts : List Lexeme} {item : List Token}
    (h : boundedTermItem depth ts item) : termItemOf ts item := by
  induction depth generalizing ts item with
  | zero =>
    obtain ⟨l, -, hl⟩ := h
    cases hl
  | succ depth ih =>
    rcases h with h | ⟨us, vs, t, rfl, ⟨l, rfl, hl⟩, rfl, rfl⟩
    · obtain ⟨a, us, rfl, ws, zs, items, rfl, hitems, hclose⟩ := Production.sign_bind_iff.1 h
      obtain ⟨b, rest, rfl, rfl, rfl⟩ := Production.sign_bind_iff.1 hclose
      have hinner : termItemOf.many ws items := Production.Many.imp hitems fun _ _ ↦ ih
      obtain ⟨hflatten, hbody⟩ := body_of_items hinner
      exact ⟨by simp [hflatten], .inr ⟨a, ws, b, rfl, hbody⟩⟩
    · dsimp only at hl
      split at hl
      · next hplain =>
        obtain rfl := Option.some.inj hl
        exact ⟨rfl, .inl ⟨l, rfl, hplain⟩⟩
      · cases hl

theorem boundedTermItem_plain (depth : Nat) {l : Lexeme} (hl : isPlainTermToken l.token = true) :
    boundedTermItem (depth + 1) [l] [l.token] :=
  .inr ⟨[l], [], l.token, rfl, ⟨l, rfl, if_pos hl⟩, rfl, rfl⟩

theorem boundedTermItem_nest {depth : Nat} {us : List Lexeme} {inner : List (List Token)}
    (hinner : (boundedTermItem depth).many us inner) (a b : Span) :
    boundedTermItem (depth + 1) (⟨.sign .leftParen, a⟩ :: us ++ [⟨.sign .rightParen, b⟩])
      (.sign .leftParen :: inner.flatten ++ [.sign .rightParen]) := by
  refine .inl (Production.sign_bind_iff.2 ⟨a, _, rfl, us, _, inner, rfl, hinner, ?_⟩)
  exact Production.sign_bind_iff.2 ⟨b, [], rfl, rfl, rfl⟩

/-- A body is a list of items, which nest less deep than the body is long. -/
theorem exists_items (ts : List Lexeme) {depth : Nat} (hdepth : ts.length ≤ depth)
    (h : Strict.IsTermBody (ts.map Lexeme.token)) :
    ∃ items, (boundedTermItem depth).many ts items ∧ items.flatten = ts.map Lexeme.token := by
  induction hn : ts.length using Nat.strongRecOn generalizing ts depth with
  | _ n ih =>
    cases ts with
    | nil => exact ⟨[], .nil, rfl⟩
    | cons l ts =>
      obtain ⟨t, a⟩ := l
      rw [List.length_cons] at hdepth hn
      obtain ⟨k, rfl⟩ : ∃ k, depth = k + 1 := ⟨depth - 1, by omega⟩
      rcases h.cases_cons with ⟨hplain, hts⟩ | ⟨rfl, us, vs, heq, hus, hvs⟩
      · have hlength : ts.length ≤ k + 1 := by omega
        obtain ⟨items, hitems, hflatten⟩ := ih ts.length (by omega) ts hlength hts rfl
        have hitem := boundedTermItem_plain k (l := ⟨t, a⟩) hplain
        exact ⟨_, .cons hitem hitems, by simp [hflatten]⟩
      · obtain ⟨us, ws, rfl, rfl, hws⟩ := List.map_eq_append_iff.1 heq
        obtain ⟨⟨u, b⟩, vs, rfl, rfl, rfl⟩ := List.map_eq_cons_iff.1 hws
        simp only [List.length_append, List.length_cons] at hdepth hn
        have hus' : us.length ≤ k := by omega
        have hvs' : vs.length ≤ k + 1 := by omega
        obtain ⟨inner, hinner, hinnerFlatten⟩ := ih us.length (by omega) us hus' hus rfl
        obtain ⟨items, hitems, hflatten⟩ := ih vs.length (by omega) vs hvs' hvs rfl
        have hall : (boundedTermItem (k + 1)).many _ _ :=
          .cons (boundedTermItem_nest hinner a b) hitems
        exact ⟨_, by simpa using hall, by simp [hinnerFlatten, hflatten]⟩

theorem bounded_of_termItemOf {depth : Nat} {ts : List Lexeme} {item : List Token}
    (h : termItemOf ts item) (hdepth : ts.length ≤ depth) : boundedTermItem depth ts item := by
  obtain ⟨rfl, ⟨l, rfl, hl⟩ | ⟨a, us, b, rfl, hus⟩⟩ := h
  · obtain ⟨k, rfl⟩ : ∃ k, depth = k + 1 := ⟨depth - 1, by simp at hdepth; omega⟩
    exact boundedTermItem_plain k hl
  · simp only [List.cons_append, List.length_cons, List.length_append, List.length_nil] at hdepth
    obtain ⟨k, rfl⟩ : ∃ k, depth = k + 1 := ⟨depth - 1, by omega⟩
    have hlength : us.length ≤ k := by omega
    obtain ⟨inner, hinner, hflatten⟩ := exists_items us hlength hus
    simpa [hflatten] using boundedTermItem_nest hinner a b

theorem realizes_termItem : Realizes termItem termItemOf anywhere where
  sound := by
    intro c n x d h
    obtain ⟨ts, hd, hts⟩ := (realizes_termItemWithin (c.rest.length + 1)).sound h
    exact ⟨ts, hd, termItemOf_of_bounded hts⟩
  complete := by
    intro c n ts x d hd hts hsuit
    have hlength : ts.length ≤ c.rest.length + 1 := by
      rw [hd.rest_eq, List.length_append]
      omega
    exact (realizes_termItemWithin _).complete hd (bounded_of_termItemOf hts hlength) hsuit
  explains := fun c n h ↦ (realizes_termItemWithin (c.rest.length + 1)).explains c n h

theorem solid_termItem : termItemOf.Solid := by
  rintro ts x ⟨-, ⟨l, rfl, -⟩ | ⟨a, us, b, rfl, -⟩⟩
  · exact List.cons_ne_nil l []
  · exact List.cons_ne_nil _ _

theorem refuses_termItem {l : Lexeme} {rest : List Lexeme} (hl : l.token = .sign .rightParen) :
    termItem.Refuses (l :: rest) :=
  fun c n hrest ↦ refuses_termItemWithin (c.rest.length + 1) hl c n hrest

/-- At least one item makes a term. -/
theorem map_items_eq_term :
    (do
      let x ← termItemOf
      let xs ← Production.many termItemOf
      return x :: xs : Production (List (List Token))).map
        (fun items ↦ Token.layout items.flatten) =
      fun ts text ↦ Strict.IsTerm (ts.map Lexeme.token) ∧
        text = Token.layout (ts.map Lexeme.token) := by
  ext ts text
  constructor
  · rintro ⟨items, ⟨us, vs, x, rfl, hx, ws, zs, xs, rfl, hxs, rfl, rfl⟩, rfl⟩
    have hall : termItemOf.many (us ++ ws) (x :: xs) := .cons hx hxs
    obtain ⟨hflatten, hbody⟩ := body_of_items hall
    rw [List.append_nil]
    refine ⟨⟨hbody, ?_⟩, congrArg Token.layout hflatten⟩
    simp [solid_termItem us x hx]
  · rintro ⟨⟨hbody, hnonempty⟩, rfl⟩
    obtain ⟨items, hitems, hflatten⟩ := exists_items ts (Nat.le_refl _) hbody
    rw [← hflatten]
    have hall : termItemOf.many ts items :=
      Production.Many.imp hitems fun _ _ ↦ termItemOf_of_bounded
    cases hall with
    | nil => exact absurd rfl hnonempty
    | @cons us vs x xs hx hxs =>
      exact ⟨x :: xs, ⟨us, vs, x, rfl, hx, vs, [], xs, (List.append_nil vs).symm, hxs, rfl, rfl⟩,
        rfl⟩

theorem solid_term : Strict.term.Solid := by
  rintro ts x ⟨⟨hterm, -⟩, -⟩ rfl
  exact hterm.nonempty rfl

theorem realizes_term : Realizes term Strict.term termItem.Refuses := by
  have hitems := realizes_termItem.many_anywhere solid_termItem
  have hmany₁ := (realizes_termItem.andThen fun x ↦ hitems.andReturn (x :: ·)).map
    fun items ↦ Token.layout items.flatten
  rw [map_items_eq_term] at hmany₁
  exact Realizes.named (hmany₁.located solid_term.of_located) _

theorem realizes_mentalAtom : Realizes mentalAtom Strict.mentalAtom anywhere := by
  have hterm : Realizes (between .leftParen .rightParen term)
      (.between .leftParen .rightParen Strict.term) anywhere :=
    realizes_term.between fun _ _ hl ↦ refuses_termItem hl
  exact ((Realizes.select _).andThen fun _ ↦ hterm.andReturn _).rule _

/-! ## Conditions -/

theorem solid_mentalLiteral : Strict.mentalLiteral.Solid :=
  .located (.or (.bind (.exactly _) _) (.map (.bind (.token _) _) _))

theorem realizes_mentalLiteral : Realizes mentalLiteral Strict.mentalLiteral anywhere := by
  have hatom : Realizes (between .leftParen .rightParen mentalAtom)
      (.between .leftParen .rightParen Strict.mentalAtom) anywhere :=
    realizes_mentalAtom.between fun _ _ _ ↦ trivial
  apply Realizes.rule
  refine Realizes.located ?_ solid_mentalLiteral.of_located
  refine Realizes.or ?_ (realizes_mentalAtom.map _) ?_
  · exact (Realizes.keyword _).andThen fun _ ↦ hatom.andReturn _
  · rintro ts x rest ⟨atom, ⟨us, vs, operator, rfl, ⟨l, rfl, hl⟩, -⟩, -⟩ -
    refine refuses_bind (refuses_keyword_cons ?_) _
    intro h
    simp [h] at hl

theorem realizes_mentalCondition :
    Realizes mentalCondition Strict.mentalLiteral.separated₁ (notBefore (.sign .comma)) :=
  realizes_mentalLiteral.separated₁_anywhere.rule _

theorem solid_testCondition : Strict.testCondition.Solid :=
  .located (.bind (.token _) _)

theorem realizes_testCondition : Realizes testCondition Strict.testCondition anywhere := by
  apply Realizes.rule
  refine Realizes.located ?_ solid_testCondition.of_located
  refine (Realizes.select _).andThen fun operator ↦ ?_
  refine realizes_mentalCondition.andSign ?_ fun _ _ ↦ .pure _
  intro l rest hl
  rw [notBefore_cons, hl]
  nofun

theorem refuses_testCondition {l : Lexeme} {rest : List Lexeme}
    (hl : l.token = .sign .rightBrace) : testCondition.Refuses (l :: rest) :=
  refuses_rule _ (refuses_located (refuses_bind (refuses_select_cons (by simp [hl])) _))

/-! ## Tests -/

theorem realizes_located_identifier :
    Realizes (located identifier) Strict.identifier.located anywhere :=
  ((Realizes.select _).labelled _).located (.token _)

theorem realizes_moduleRef : Realizes moduleRef Strict.moduleRef anywhere :=
  ((Realizes.keyword _).andThen fun _ ↦ realizes_located_identifier.andThen fun _ ↦
    (Realizes.sign _).andReturn _).rule _

theorem refuses_moduleRef {l : Lexeme} {rest : List Lexeme} (hl : l.token ≠ .keyword .doing) :
    moduleRef.Refuses (l :: rest) :=
  refuses_rule _ (refuses_bind (refuses_keyword_cons hl) _)

theorem solid_agentTest : Strict.agentTest.Solid :=
  .located (.bind (.located (.token _)) _)

/-- A condition, or the end of its test, is not the name of a module. -/
theorem refuses_moduleRef_of_conditions {us rest : List Lexeme} {x : AgentTest}
    {g : List (Located TestCondition) → AgentTest}
    (h : (do
      let conditions ← Production.many Strict.testCondition
      Production.sign .rightBrace
      return g conditions : Production AgentTest) us x) : moduleRef.Refuses (us ++ rest) := by
  obtain ⟨vs, ws, conditions, rfl, hconditions, hclose⟩ := h
  cases hconditions with
  | nil =>
    obtain ⟨span, zs, rfl, -⟩ := Production.sign_bind_iff.1 hclose
    exact refuses_moduleRef (by simp)
  | cons hx _ =>
    obtain ⟨⟨us, vs, operator, rfl, ⟨l, rfl, hl⟩, -⟩, -⟩ := hx
    refine refuses_moduleRef ?_
    intro h
    simp [h] at hl

theorem realizes_agentTest : Realizes agentTest Strict.agentTest anywhere := by
  have hbody : ∀ g : List (Located TestCondition) → AgentTest,
      Realizes (do
        let conditions ← many (statement testCondition)
        sign .rightBrace
        return g (conditions.filterMap id)) (do
        let conditions ← Production.many Strict.testCondition
        Production.sign .rightBrace
        return g conditions) anywhere := by
    intro g
    have h := (realizes_testCondition.statements solid_testCondition).andSign
      (fun l rest hl ↦ refuses_statement hl (refuses_testCondition hl))
      fun conditions _ ↦ Realizes.pure (g (conditions.filterMap id))
    rw [Production.map_bind] at h
    simpa using h
  apply Realizes.rule
  refine Realizes.located ?_ solid_agentTest.of_located
  refine realizes_located_identifier.andThen fun agent ↦ (Realizes.sign _).andThen fun _ ↦ ?_
  refine realizes_moduleRef.optional_anywhere.bind (fun module ↦ hbody _) ?_
  exact fun module us x rest h _ ↦ refuses_moduleRef_of_conditions h

theorem realizes_anyTest : Realizes anyTest Strict.agentTest anywhere :=
  realizes_agentTest.resumeBefore _

theorem refuses_anyTest {l : Lexeme} {rest : List Lexeme} (hl : l.token = .sign .rightBrace) :
    anyTest.Refuses (l :: rest) := by
  have htest : agentTest.Refuses (l :: rest) := by
    refine refuses_rule _ (refuses_located (refuses_bind (refuses_located ?_) _))
    exact refuses_labelled _ (refuses_select_cons (by simp [hl]))
  refine refuses_resumeBefore htest ?_
  rintro c n hrest
  simp [sign, exactly, token, hrest, hl, Outcome.done]

/-! ## The script -/

theorem realizes_masRef : Realizes masRef Strict.masRef anywhere :=
  ((Realizes.keyword _).andThen fun _ ↦ (Realizes.sign _).andThen fun _ ↦
    realizes_located_quotedText.andThen fun _ ↦ (Realizes.sign _).andReturn _).rule _

theorem realizes_timeout : Realizes timeout Strict.timeout anywhere :=
  ((Realizes.keyword _).andThen fun _ ↦ (Realizes.sign _).andThen fun _ ↦
    realizes_number.andThen fun _ ↦ (Realizes.sign _).andReturn _).rule _

theorem refuses_timeout {l : Lexeme} {rest : List Lexeme} (hl : l.token ≠ .keyword .timeout) :
    timeout.Refuses (l :: rest) :=
  refuses_rule _ (refuses_bind (refuses_keyword_cons hl) _)

/-- A test, or the end of the script, is not a bound on the time. -/
theorem refuses_timeout_of_tests {us rest : List Lexeme} {x : TestScript}
    {g : List (Located AgentTest) → TestScript}
    (h : (do
      let tests ← Production.many Strict.agentTest
      Production.sign .rightBrace
      return g tests : Production TestScript) us x) : timeout.Refuses (us ++ rest) := by
  obtain ⟨vs, ws, tests, rfl, htests, hclose⟩ := h
  cases htests with
  | nil =>
    obtain ⟨span, zs, rfl, -⟩ := Production.sign_bind_iff.1 hclose
    exact refuses_timeout (by simp)
  | cons hx _ =>
    obtain ⟨⟨us, vs, agent, rfl, ⟨⟨l, rfl, hl⟩, -⟩, -⟩, -⟩ := hx
    refine refuses_timeout ?_
    intro h
    simp [h] at hl

theorem realizes_testScript : Realizes testScript Strict.testScript (· = []) := by
  have hbody : ∀ g : List (Located AgentTest) → TestScript,
      Realizes (do
        let tests ← many anyTest
        sign .rightBrace
        endOfInput
        return g tests) (do
        let tests ← Production.many Strict.agentTest
        Production.sign .rightBrace
        return g tests) (· = []) := by
    intro g
    refine (realizes_anyTest.many_anywhere solid_agentTest).andSign ?_ fun _ _ ↦ .atEnd _
    exact fun l rest hl ↦ refuses_anyTest hl
  apply Realizes.rule
  refine (Realizes.keyword _).andThen fun _ ↦ (Realizes.sign _).andThen fun _ ↦
    realizes_masRef.andThen fun mas ↦ ?_
  refine realizes_timeout.optional_anywhere.bind (fun seconds ↦ hbody _) ?_
  exact fun seconds us x rest h _ ↦ refuses_timeout_of_tests h

end MasCheck.Grammar
