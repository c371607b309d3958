import MasCheck.Proofs.Grammar.Recursion

/-!
# Runs without bounds

Repetition, search and recursion are bounded in the parsers here, by the tokens that are left. A
plan tells how a parser is put together, and along a plan a parser can be run without any bound:
what is repeated is repeated until it fails, and a recursive rule is entered again wherever it is
used. Such a run may fail to end. If repetition and recursion take tokens it ends, with the outcome
of the parser.
-/

namespace MasCheck

namespace Outcome

/-- The parser with this outcome, wherever it is run. -/
def always {α : Type} (o : Outcome α) : Parser α :=
  fun _ _ ↦ o

end Outcome

namespace Parser

/-- How a parser is put together. The parser `inner` may be used as a whole: at once if the flag is
set, and behind a token in any case. What is repeated takes a token each time. -/
inductive Plan {γ : Type} (inner : Parser γ) : Bool → {α : Type} → Parser α → Type 1
  | pure {b : Bool} {α : Type} (x : α) : Plan inner b (pure x : Parser α)
  | token {b : Bool} {α : Type} (atToken atEnd : Expectation) (f : Token → Option α) :
      Plan inner b (token atToken atEnd f)
  | endOfInput {b : Bool} : Plan inner b endOfInput
  | again (hinner : inner.Moves) : Plan inner true inner
  | bind {b b' : Bool} {α β : Type} {p : Parser α} {f : α → Parser β} (P : Plan inner b p)
      (F : ∀ x, Plan inner b' (f x)) (hflag : b' = b ∨ p.Takes) : Plan inner b (p >>= f)
  | or {b : Bool} {α : Type} {p q : Parser α} (P : Plan inner b p) (Q : Plan inner b q) :
      Plan inner b (p.or q)
  | optional {b : Bool} {α : Type} {p : Parser α} (P : Plan inner b p) :
      Plan inner b (optional p)
  | many {b : Bool} {α : Type} {p : Parser α} (P : Plan inner b p) (hp : p.Takes) :
      Plan inner b (many p)
  | located {b : Bool} {α : Type} {p : Parser α} (P : Plan inner b p) : Plan inner b (located p)
  | labelledWith {b : Bool} {α : Type} {p : Parser α} (label : Label) (isRule : Bool)
      (P : Plan inner b p) : Plan inner b (labelledWith label isRule p)
  | recoverBy {b : Bool} {α : Type} {skip p : Parser α} (S : Plan inner b skip)
      (P : Plan inner b p) : Plan inner b (recoverBy skip p)
  | searchBefore {b : Bool} {α : Type} {stop : Parser Unit} {p : Parser α} (S : Plan inner b stop)
      (P : Plan inner b p) (held : Option Pending) : Plan inner b (searchBefore stop p held)
  | resumeBefore {b : Bool} {α : Type} {stop : Parser Unit} {p : Parser α} (S : Plan inner b stop)
      (P : Plan inner b p) : Plan inner b (resumeBefore stop p)
  | tokenBefore {b : Bool} {stop : Parser Unit} (S : Plan inner b stop) :
      Plan inner b (tokenBefore stop)

/-- A rule that is used in its own body, behind a token there. -/
structure Recursion {γ : Type} (inner : Parser γ) where
  around : Parser γ
  inner_eq : inner = around
  body : Plan inner false around

namespace Plan

variable {α β γ : Type} {inner : Parser γ} {b b' : Bool} {p : Parser α} {f : α → Parser β}

/-- The run of the plan ends with the outcome. Parts that are run once are put into the combinator
as parsers with the outcomes that they have there. -/
inductive Ends (R : Recursion inner) : {b : Bool} → {α : Type} → {p : Parser α} →
    Plan inner b p → Cursor → Notes → Outcome α → Prop
  | pure {b : Bool} {α : Type} {x : α} {c : Cursor} {n : Notes} :
      Ends R (.pure x : Plan inner b (Pure.pure x : Parser α)) c n (.done x c n)
  | token {b : Bool} {α : Type} {atToken atEnd : Expectation} {f : Token → Option α} {c : Cursor}
      {n : Notes} :
      Ends R (.token atToken atEnd f : Plan inner b _) c n (Parser.token atToken atEnd f c n)
  | endOfInput {b : Bool} {c : Cursor} {n : Notes} :
      Ends R (.endOfInput : Plan inner b _) c n (Parser.endOfInput c n)
  /-- The rule is entered again, whatever is left. -/
  | again {hinner : inner.Moves} {c : Cursor} {n : Notes} {o : Outcome γ}
      (hbody : Ends R R.body c n o) : Ends R (.again hinner) c n o
  | bind {b b' : Bool} {α β : Type} {p : Parser α} {f : α → Parser β} {P : Plan inner b p}
      {F : ∀ x, Plan inner b' (f x)} {hflag : b' = b ∨ p.Takes} {c : Cursor} {n : Notes}
      {o : Outcome α} {u : α → Outcome β} (hp : Ends R P c n o)
      (hf : ∀ x, o.value = some x → Ends R (F x) o.cursor o.notes (u x)) :
      Ends R (.bind P F hflag) c n ((o.always >>= fun x ↦ (u x).always) c n)
  | or {b : Bool} {α : Type} {p q : Parser α} {P : Plan inner b p} {Q : Plan inner b q}
      {c : Cursor} {n : Notes} {o u : Outcome α} (hp : Ends R P c n o)
      (hq : o.value = none → Ends R Q c o.notes u) :
      Ends R (.or P Q) c n (o.always.or u.always c n)
  | optional {b : Bool} {α : Type} {p : Parser α} {P : Plan inner b p} {c : Cursor} {n : Notes}
      {o : Outcome α} (hp : Ends R P c n o) :
      Ends R (.optional P) c n (Parser.optional o.always c n)
  | manyDone {b : Bool} {α : Type} {p : Parser α} {P : Plan inner b p} {hp : p.Takes}
      {c : Cursor} {n : Notes} {o : Outcome α} (hend : Ends R P c n o) (ho : o.value = none) :
      Ends R (.many P hp) c n (.done [] c o.notes)
  /-- There is one more value, and the repetition goes on behind it. -/
  | manyMore {b : Bool} {α : Type} {p : Parser α} {P : Plan inner b p} {hp : p.Takes}
      {c : Cursor} {n : Notes} {o : Outcome α} {x : α} {u : Outcome (List α)}
      (hend : Ends R P c n o) (ho : o.value = some x)
      (hmore : Ends R (.many P hp) o.cursor o.notes u) :
      Ends R (.many P hp) c n ((u.map (x :: ·)).after o.emitted)
  | located {b : Bool} {α : Type} {p : Parser α} {P : Plan inner b p} {c : Cursor} {n : Notes}
      {o : Outcome α} (hp : Ends R P c n o) :
      Ends R (.located P) c n (Parser.located o.always c n)
  | labelledWith {b : Bool} {α : Type} {p : Parser α} {label : Label} {isRule : Bool}
      {P : Plan inner b p} {c : Cursor} {n : Notes} {o : Outcome α}
      (hp : Ends R P c n.clear o) :
      Ends R (.labelledWith label isRule P) c n (Parser.labelledWith label isRule o.always c n)
  | recoverBy {b : Bool} {α : Type} {skip p : Parser α} {S : Plan inner b skip}
      {P : Plan inner b p} {c : Cursor} {n : Notes} {o u : Outcome α} (hp : Ends R P c n o)
      (hskip : o.value = none → Ends R S c o.notes.clear u) :
      Ends R (.recoverBy S P) c n (Parser.recoverBy u.always o.always c n)
  | searchStop {b : Bool} {α : Type} {stop : Parser Unit} {p : Parser α} {S : Plan inner b stop}
      {P : Plan inner b p} {held : Option Pending} {c : Cursor} {n : Notes} {s : Outcome Unit}
      {u : Unit} (hstop : Ends R S c n s) (hs : s.value = some u) :
      Ends R (.searchBefore S P held) c n (.failed c (s.notes.withPending held))
  | searchEnd {b : Bool} {α : Type} {stop : Parser Unit} {p : Parser α} {S : Plan inner b stop}
      {P : Plan inner b p} {held : Option Pending} {c : Cursor} {n : Notes} {s : Outcome Unit}
      (hstop : Ends R S c n s) (hs : s.value = none) (hrest : c.rest = []) :
      Ends R (.searchBefore S P held) c n (.failed c ((s.notes.look c.index).withPending held))
  | searchFound {b : Bool} {α : Type} {stop : Parser Unit} {p : Parser α}
      {S : Plan inner b stop} {P : Plan inner b p} {held : Option Pending} {c : Cursor} {n : Notes}
      {s : Outcome Unit} {l : Lexeme} {ls : List Lexeme} {o : Outcome α} (hstop : Ends R S c n s)
      (hs : s.value = none) (hrest : c.rest = l :: ls)
      (hp : Ends R P (c.after l ls) (s.notes.look c.index) o)
      (ho : o.value.isSome && o.emitted.isEmpty) :
      Ends R (.searchBefore S P held) c n { o with emitted := held.toList.map Pending.failure }
  /-- The trial behind the next token does not count, and the search goes on there. -/
  | searchOn {b : Bool} {α : Type} {stop : Parser Unit} {p : Parser α} {S : Plan inner b stop}
      {P : Plan inner b p} {held : Option Pending} {c : Cursor} {n : Notes} {s : Outcome Unit}
      {l : Lexeme} {ls : List Lexeme} {o u : Outcome α} (hstop : Ends R S c n s)
      (hs : s.value = none) (hrest : c.rest = l :: ls)
      (hp : Ends R P (c.after l ls) (s.notes.look c.index) o)
      (ho : ¬(o.value.isSome && o.emitted.isEmpty))
      (hmore : Ends R (.searchBefore S P held) (c.after l ls) o.notes.clear u) :
      Ends R (.searchBefore S P held) c n u
  | resumeDone {b : Bool} {α : Type} {stop : Parser Unit} {p : Parser α} {S : Plan inner b stop}
      {P : Plan inner b p} {c : Cursor} {n : Notes} {o : Outcome α} {x : α}
      (hp : Ends R P c n o) (ho : o.value = some x) : Ends R (.resumeBefore S P) c n o
  | resumeSearch {b : Bool} {α : Type} {stop : Parser Unit} {p : Parser α} {S : Plan inner b stop}
      {P : Plan inner b p} {c : Cursor} {n : Notes} {o u : Outcome α} (hp : Ends R P c n o)
      (ho : o.value = none)
      (hsearch : Ends R (.searchBefore S P o.notes.pending) c o.notes.clear u) :
      Ends R (.resumeBefore S P) c n u
  | tokenBefore {b : Bool} {stop : Parser Unit} {S : Plan inner b stop} {c : Cursor} {n : Notes}
      {s : Outcome Unit}
      (hstop : ∀ t, (Parser.token .anyToken .anyToken some c n).value = some t →
        Ends R S c (Parser.token .anyToken .anyToken some c n).notes.clear s) :
      Ends R (.tokenBefore S) c n (Parser.tokenBefore s.always c n)

/-! ## A run and the parser -/

theorem moves (plan : Plan inner b p) : p.Moves := by
  induction plan with
  | pure x => exact (Reads.pure x).moves
  | token atToken atEnd f => exact (Takes.token atToken atEnd f).moves
  | endOfInput => exact Reads.endOfInput.moves
  | again hinner => exact hinner
  | bind _ _ _ ihp ihf => exact ihp.bind ihf
  | or _ _ ihp ihq => exact (Reads.or ihp ihq).moves
  | optional _ ih => exact ih.optional
  | many _ hp => exact hp.moves.many
  | located _ ih => exact ih.located
  | labelledWith label isRule _ ih => exact Reads.labelledWith ih label isRule
  | recoverBy _ _ ihskip ihp => exact (Reads.recoverBy ihp ihskip).moves
  | searchBefore _ _ _ _ ihp => exact (Reads.searchBefore ihp).moves
  | resumeBefore _ _ _ ihp => exact (Reads.resumeBefore _ ihp).moves
  | tokenBefore _ => exact (Takes.tokenBefore _).moves

variable {R : Recursion inner} {plan : Plan inner b p} {c : Cursor} {n : Notes} {o : Outcome α}

/-- Whatever a run ends with is the outcome of the parser. -/
theorem Ends.outcome_eq (h : Ends R plan c n o) : o = p c n := by
  induction h with
  | pure => rfl
  | token => rfl
  | endOfInput => rfl
  | again _ ih => exact ih.trans (congrFun (congrFun R.inner_eq _) _).symm
  | bind _ _ ihp ihf =>
    subst ihp
    exact bind_congr rfl ihf
  | or _ _ ihp ihq =>
    subst ihp
    exact or_congr rfl ihq
  | optional _ ih => exact optional_congr ih
  | manyDone _ ho ih =>
    subst ih
    exact (many_of_none ho).symm
  | @manyMore _ _ _ _ hp _ _ _ _ _ _ ho _ ih ihmore =>
    subst ih ihmore
    exact (many_of_some ho (hp.length_lt ho)).symm
  | located _ ih => exact located_congr ih
  | labelledWith _ ih => exact labelledWith_congr ih
  | recoverBy _ _ ihp ihskip =>
    subst ihp
    exact recoverBy_congr rfl ihskip
  | searchStop _ hs ih =>
    subst ih
    exact (searchBefore_of_stop hs _).symm
  | searchEnd _ hs hrest ih =>
    subst ih
    exact (searchBefore_of_nil hs _ hrest).symm
  | searchFound _ hs hrest _ ho ihstop ihp =>
    subst ihstop ihp
    rw [searchBefore_of_cons hs _ hrest]
    exact (if_pos ho).symm
  | searchOn _ hs hrest _ ho _ ihstop ihp ihmore =>
    subst ihstop ihp ihmore
    rw [searchBefore_of_cons hs _ hrest]
    exact (if_neg ho).symm
  | resumeDone _ ho ih =>
    subst ih
    exact (resumeBefore_of_some _ ho).symm
  | resumeSearch _ ho _ ih ihsearch =>
    subst ih ihsearch
    exact (resumeBefore_of_none _ ho).symm
  | tokenBefore _ ih => exact tokenBefore_congr ih

/-! ## Runs end -/

/-- What is repeated takes tokens, so that the repetition has fewer and fewer of them. -/
theorem ends_many {P : Plan inner b p} {k : Nat} (hp : p.Takes)
    (h : ∀ c n, c.rest.length + b.toNat ≤ k → Ends R P c n (p c n)) (c : Cursor) (n : Notes)
    (hc : c.rest.length + b.toNat ≤ k) : Ends R (.many P hp) c n (Parser.many p c n) := by
  induction hlength : c.rest.length using Nat.strongRecOn generalizing c n with
  | _ length ih =>
    cases hx : (p c n).value with
    | none => exact many_of_none hx ▸ .manyDone (h c n hc) hx
    | some x =>
      have hlt := hp.length_lt hx
      rw [many_of_some hx hlt]
      exact .manyMore (h c n hc) hx (ih _ (hlength ▸ hlt) _ _ (by omega) rfl)

theorem ends_searchBefore {stop : Parser Unit} {S : Plan inner b stop} {P : Plan inner b p}
    {k : Nat} (hstop : ∀ c n, c.rest.length + b.toNat ≤ k → Ends R S c n (stop c n))
    (h : ∀ c n, c.rest.length + b.toNat ≤ k → Ends R P c n (p c n)) (held : Option Pending)
    (c : Cursor) (n : Notes) (hc : c.rest.length + b.toNat ≤ k) :
    Ends R (.searchBefore S P held) c n (Parser.searchBefore stop p held c n) := by
  fun_induction Parser.searchBefore stop p held c n with
  | case1 c n s u hs => exact .searchStop (hstop c n hc) hs
  | case2 c n s hs notes hrest => exact .searchEnd (hstop c n hc) hs hrest
  | case3 c n s hs notes l ls hrest a hgood =>
    have hbehind : (c.after l ls).rest.length + b.toNat ≤ k := by
      rw [hrest, List.length_cons] at hc
      change ls.length + _ ≤ _
      omega
    exact .searchFound (hstop c n hc) hs hrest (h _ _ hbehind) hgood
  | case4 c n s hs notes l ls hrest a hbad ih =>
    have hbehind : (c.after l ls).rest.length + b.toNat ≤ k := by
      rw [hrest, List.length_cons] at hc
      change ls.length + _ ≤ _
      omega
    exact .searchOn (hstop c n hc) hs hrest (h _ _ hbehind) hbad (ih hbehind)

/-- If the recursive rule ends on fewer than `k` tokens, then so does the plan, or even on `k` where
it does not use the rule at once. -/
theorem ends_within {k : Nat}
    (hbody : ∀ c n, c.rest.length < k → Ends R R.body c n (R.around c n))
    (plan : Plan inner b p) (c : Cursor) (n : Notes) (hc : c.rest.length + b.toNat ≤ k) :
    Ends R plan c n (p c n) := by
  -- Where the flag is set one token less is allowed, and so `bind` may set it behind a token.
  induction plan generalizing c n with
  | pure => exact .pure
  | token => exact .token
  | endOfInput => exact .endOfInput
  | again => exact congrFun (congrFun R.inner_eq c) n ▸ .again (hbody c n hc)
  | @bind b b' _ _ p f P F hflag ihp ihf =>
    refine .bind (u := fun x ↦ f x (p c n).cursor (p c n).notes) (ihp c n hc) fun x hx ↦ ?_
    refine ihf x _ _ ?_
    rcases hflag with rfl | hp
    · have hle := P.moves.length_le hx
      omega
    · have hlt := hp.length_lt hx
      have hflag := b'.toNat_le
      omega
  | or _ _ ihp ihq => exact .or (ihp c n hc) fun _ ↦ ihq c _ hc
  | optional _ ih => exact .optional (ih c n hc)
  | many _ hp ih => exact ends_many hp ih c n hc
  | located _ ih => exact .located (ih c n hc)
  | labelledWith _ _ _ ih => exact .labelledWith (ih c n.clear hc)
  | recoverBy _ _ ihskip ihp => exact .recoverBy (ihp c n hc) fun _ ↦ ihskip c _ hc
  | searchBefore _ _ held ihstop ihp => exact ends_searchBefore ihstop ihp held c n hc
  | @resumeBefore _ _ stop p _ _ ihstop ihp =>
    cases hx : (p c n).value with
    | none =>
      rw [resumeBefore_of_none stop hx]
      exact .resumeSearch (ihp c n hc) hx (ends_searchBefore ihstop ihp _ c _ hc)
    | some x =>
      rw [resumeBefore_of_some stop hx]
      exact .resumeDone (ihp c n hc) hx
  | tokenBefore _ ih => exact .tokenBefore fun _ _ ↦ ih c _ hc

theorem ends_body (R : Recursion inner) (c : Cursor) (n : Notes) :
    Ends R R.body c n (R.around c n) := by
  induction hk : c.rest.length using Nat.strongRecOn generalizing c n with
  | _ k ih =>
    exact ends_within (fun d m hd ↦ ih _ hd d m rfl) R.body c n (Nat.le_of_eq hk)

/-- Every run ends, and with nothing but the outcome of the parser. -/
theorem ends_iff (R : Recursion inner) (plan : Plan inner b p) (c : Cursor) (n : Notes)
    (o : Outcome α) : Ends R plan c n o ↔ o = p c n := by
  refine ⟨Ends.outcome_eq, ?_⟩
  rintro rfl
  exact ends_within (fun d m _ ↦ ends_body R d m) plan c n (Nat.le_refl _)

/-! ## Plans of other combinators -/

def exactly (t : Token) : Plan inner b (Parser.exactly t) :=
  .token _ _ _

def keyword (word : Keyword) : Plan inner b (Parser.keyword word) :=
  exactly _

def sign (s : Sign) : Plan inner b (Parser.sign s) :=
  exactly _

def select (f : Token → Option α) : Plan inner b (Parser.select f) :=
  .token _ _ _

def andThen (P : Plan inner b p) (F : ∀ x, Plan inner b (f x)) : Plan inner b (p >>= f) :=
  .bind P F (.inl rfl)

/-- Behind a token the recursive rule may be used at once. -/
def behind (P : Plan inner b p) (hp : p.Takes) (F : ∀ x, Plan inner true (f x)) :
    Plan inner b (p >>= f) :=
  .bind P F (.inr hp)

def andReturn (P : Plan inner b p) (g : α → β) : Plan inner b (do let x ← p; return g x) :=
  P.andThen fun x ↦ .pure (g x)

def labelled (P : Plan inner b p) (notion : Notion) : Plan inner b (Parser.labelled notion p) :=
  .labelledWith _ _ P

def named (P : Plan inner b p) (r : Rule) : Plan inner b (Parser.named r p) :=
  .labelledWith _ _ P

def rule (P : Plan inner b p) (r : Rule) : Plan inner b (Parser.rule r p) :=
  .labelledWith _ _ P

def between {opening closing : Sign} (P : Plan inner true p) :
    Plan inner b (Parser.between opening closing p) :=
  (sign opening).behind (Takes.sign opening) fun _ ↦ P.andThen fun x ↦
    (sign closing).andReturn fun _ ↦ x

def moreAfterCommas (P : Plan inner b p) : Plan inner b (Parser.moreAfterCommas p) :=
  .many ((sign .comma).andThen fun _ ↦ P) ((Takes.sign .comma).bind fun _ ↦ P.moves)

def separated₁ (P : Plan inner b p) : Plan inner b (Parser.separated₁ p) :=
  P.andThen fun x ↦ P.moreAfterCommas.andReturn (x :: ·)

def separated (P : Plan inner b p) : Plan inner b (Parser.separated p) :=
  P.separated₁.optional.andReturn _

def many₁ (P : Plan inner b p) (hp : p.Takes) : Plan inner b (Parser.many₁ p) :=
  P.andThen fun x ↦ (Plan.many P hp).andReturn (x :: ·)

def toEnd (P : Plan inner b p) : Plan inner b p.toEnd :=
  P.andThen fun x ↦ Plan.endOfInput.andReturn fun _ ↦ x

end Plan

end Parser

end MasCheck
