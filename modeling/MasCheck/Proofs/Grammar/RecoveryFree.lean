import MasCheck.Proofs.Grammar.CleanRun

/-!
# Clean runs do without recovery

A parser with recovery realizes the same production as the parser without it. Recovery begins with
a failure, the failure is explained, and what recovery passes over it emits, so that a run with
recovery in it is never clean. Nor does recovery disturb a derivation, since it begins only after
the parser itself has failed.

At the end of a block a statement refuses: there is nothing to skip.
-/

namespace MasCheck.Parser

variable {α β : Type} {p : Parser α} {P : Production α} {F : List Lexeme → Prop}

namespace Realizes

/-! ## Lists with commas -/

private theorem afterComma (hp : Realizes p P F) :
    Realizes (do
      Parser.sign .comma
      p) (do
      Production.sign .comma
      P) F :=
  (sign .comma).andThen fun _ ↦ hp

theorem separated₁ (hp : Realizes p P F)
    (hcomma : ∀ l rest, l.token = .sign .comma → F (l :: rest)) :
    Realizes (separated₁ p) P.separated₁ fun rest ↦ F rest ∧ notBefore (.sign .comma) rest := by
  have hsolid : (do Production.sign .comma; P : Production α).Solid :=
    (Production.Solid.exactly _).bind _
  have hnext : ∀ us x rest, (do Production.sign .comma; P : Production α) us x →
      F (us ++ rest) := by
    intro us x rest h
    obtain ⟨span, vs, rfl, -⟩ := Production.sign_bind_iff.1 h
    exact hcomma _ _ rfl
  have hmore : Realizes (moreAfterCommas p) (Production.many (do Production.sign .comma; P))
      fun rest ↦ F rest ∧ notBefore (.sign .comma) rest := by
    refine (hp.afterComma.many hsolid hnext).mono ?_
    rintro rest ⟨hF, hrest⟩
    refine ⟨hF, ?_⟩
    cases rest with
    | nil => exact refuses_bind (refuses_token_nil _ _ _) _
    | cons l rest =>
      have hl := notBefore_cons.1 hrest
      exact refuses_bind (refuses_token_cons _ _ (if_neg hl)) _
  rw [Production.separated₁_eq]
  refine hp.bind (fun x ↦ ?_) ?_
  · exact hmore.andReturn _
  · rintro x us y rest ⟨us, vs, xs, rfl, hmany, rfl, rfl⟩ ⟨hF, -⟩
    cases hmany with
    | nil => exact hF
    | cons hx _ =>
      rw [List.append_nil, List.append_assoc]
      exact hnext _ _ _ hx

theorem separated₁_anywhere (hp : Realizes p P anywhere) :
    Realizes (Parser.separated₁ p) P.separated₁ (notBefore (.sign .comma)) :=
  (hp.separated₁ fun _ _ _ ↦ trivial).mono fun _ hrest ↦ ⟨trivial, hrest⟩

theorem bracketed (hp : Realizes p P anywhere) :
    Realizes (Parser.between .leftBracket .rightBracket (Parser.separated₁ p))
      (.between .leftBracket .rightBracket P.separated₁) anywhere := by
  refine hp.separated₁_anywhere.between ?_
  intro l rest hl
  rw [notBefore_cons, hl]
  nofun

/-- In front of a list with commas there must be something by which an item can be told from
what follows an empty list. -/
theorem separated (hp : Realizes p P F)
    (hcomma : ∀ l rest, l.token = .sign .comma → F (l :: rest)) :
    Realizes (separated p) P.separated
      fun rest ↦ F rest ∧ notBefore (.sign .comma) rest ∧ p.Refuses rest := by
  refine ((hp.separated₁ hcomma).optional.map _).mono ?_
  rintro rest ⟨hF, hrest, hrefuses⟩
  exact ⟨⟨hF, hrest⟩, refuses_bind hrefuses _⟩

/-! ## Recovery -/

theorem recoverBy (hp : Realizes p P F) (skip : Parser α) :
    Realizes (recoverBy skip p) P F where
  sound := by
    intro c n x d h
    unfold Parser.recoverBy at h
    cases hv : (p c n).value with
    | some y =>
      simp only [hv] at h
      exact hp.sound h
    | none =>
      obtain ⟨f, hf⟩ := Option.isSome_iff_exists.1 (hp.explains c n hv)
      simp only [hv] at h
      split at h
      · have hemitted := (List.append_eq_nil_iff.1 h.emitted).2
        simp [hf] at hemitted
      · exact absurd h Outcome.not_failed_yields
  complete := by
    intro c n ts x d hd hP hsuit
    have h := hp.complete (n := n) hd hP hsuit
    unfold Parser.recoverBy
    simp only [h.value]
    exact h
  explains := explains_recoverBy skip hp.explains

/-- A search that succeeds emits the failure that it got over. -/
theorem held_eq_none_of_yields {stop : Parser Unit} {held : Option Pending} {c d : Cursor}
    {n : Notes} {x : α} (h : (searchBefore stop p held c n).Yields x d) : held = none := by
  fun_induction searchBefore stop p held c n with
  | case1 => exact absurd h Outcome.not_failed_yields
  | case2 => exact absurd h Outcome.not_failed_yields
  | case3 c n s hs notes l ls hrest a hgood => simpa using h.emitted
  | case4 c n s hs notes l ls hrest a hbad ih => exact ih h

theorem resumeBefore (hp : Realizes p P F) (stop : Parser Unit) :
    Realizes (resumeBefore stop p) P F where
  sound := by
    intro c n x d h
    unfold Parser.resumeBefore at h
    cases hv : (p c n).value with
    | some y =>
      simp only [hv] at h
      exact hp.sound h
    | none =>
      obtain ⟨f, hf⟩ := Option.isSome_iff_exists.1 (hp.explains c n hv)
      simp only [hv] at h
      cases hf.symm.trans (held_eq_none_of_yields h)
  complete := by
    intro c n ts x d hd hP hsuit
    have h := hp.complete (n := n) hd hP hsuit
    unfold Parser.resumeBefore
    simp only [h.value]
    exact h
  explains := explains_resumeBefore stop hp.explains

theorem statement (hp : Realizes p P F) : Realizes (Grammar.statement p) (P.map some) F :=
  ((hp.map some).resumeBefore _).recoverBy _

theorem statements (hp : Realizes p P anywhere) (hP : P.Solid) :
    Realizes (many (Grammar.statement p)) (P.many.map (List.map some))
      (Grammar.statement p).Refuses := by
  rw [← Production.many_map]
  exact hp.statement.many_anywhere (hP.map some)

end Realizes

/-! ## Statements at the end of a block -/

variable {ts rest : List Lexeme} {l : Lexeme}

theorem admits_statementEnd (hl : l.token = .sign .rightBrace) :
    Grammar.statementEnd.Admits (l :: rest) := by
  rintro c n hrest
  simp [Grammar.statementEnd, Parser.or, sign, exactly, token, hrest, hl, Outcome.failed,
    Outcome.done]

theorem refuses_skipStatement (hl : l.token = .sign .rightBrace) :
    Grammar.skipStatement.Refuses (l :: rest) := by
  have hbody : (tokenBefore Grammar.statementEnd).Refuses (l :: rest) :=
    refuses_tokenBefore (admits_statementEnd hl)
  have hdot : Grammar.dot.Refuses (l :: rest) := refuses_token_cons _ _ (by simp [hl])
  exact refuses_or (refuses_many_bind hbody hdot) (refuses_bind (refuses_bind hbody _) _)

theorem refuses_statement (hl : l.token = .sign .rightBrace) (hp : p.Refuses (l :: rest)) :
    (Grammar.statement p).Refuses (l :: rest) :=
  refuses_recoverBy (refuses_resumeBefore (refuses_bind hp _) (admits_statementEnd hl))
    (refuses_bind (refuses_skipStatement hl) _)

/-- A block is a list of statements, none of which is dropped. -/
theorem Realizes.block (hp : Realizes p P anywhere) (hP : P.Solid)
    (hclose : ∀ l rest, l.token = .sign .rightBrace → p.Refuses (l :: rest)) (g : List α → β) :
    Realizes (do
      let xs ← between .leftBrace .rightBrace (many (Grammar.statement p))
      return g (xs.filterMap id))
      ((Production.between .leftBrace .rightBrace P.many).map g) anywhere := by
  have hblock : Realizes (between .leftBrace .rightBrace (many (Grammar.statement p)))
      (.between .leftBrace .rightBrace (P.many.map (List.map some))) anywhere :=
    (hp.statements hP).between fun l rest hl ↦ refuses_statement hl (hclose l rest hl)
  have h := hblock.map fun xs ↦ g (xs.filterMap id)
  have hg : ((fun xs ↦ g (xs.filterMap id)) ∘ List.map some : List α → β) = g := by
    funext xs
    simp
  rw [Production.between_map, Production.map_map, hg] at h
  exact h

end MasCheck.Parser
