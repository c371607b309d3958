import MasCheck.Proofs.Grammar.Acceptance

/-!
# What failures tell

A failure stands at a token ahead of the cursor at which the parser began, or at the end behind the
tokens, and what it says was found is what stands there. What it says was expected, and in which
rules, is said in the vocabulary of the grammar. All parts of the pending failure change on their
own, when failures are joined, named and put back, so that its number is what keeps them together:
two failures of the same number have the same place and found the same token.
-/

namespace MasCheck

/-- What is said in a grammar: tokens by their spelling, rules, and notions beside the rules. -/
structure Vocabulary where
  tokens : List Token
  rules : List Rule
  notions : List Notion

namespace Vocabulary

def IsRule (V : Vocabulary) (l : Label) : Prop :=
  ∃ r ∈ V.rules, l = .rule r

def HasLabel (V : Vocabulary) : Label → Prop
  | .rule r => r ∈ V.rules
  | .notion n => n ∈ V.notions

/-- The expectation is in the vocabulary, or it has no name. -/
def Has (V : Vocabulary) : Expectation → Prop
  | .token t => t ∈ V.tokens
  | .label l => V.HasLabel l
  | .endOfInput => True
  | .anyToken => True
  | .other => True

end Vocabulary

/-! ## Sites -/

/-- A place and the token there, or none at the end. -/
structure Site where
  span : Span
  found : Option Token

structure TokenStream where
  tokens : List Lexeme
  finish : Nat

def TokenStream.site (s : TokenStream) (index : Nat) : Site :=
  match s.tokens[index]? with
  | some l => ⟨l.span, some l.token⟩
  | none => ⟨⟨s.finish, s.finish⟩, none⟩

/-- A site is that of a token, or the end. -/
theorem TokenStream.site_cases (s : TokenStream) (index : Nat) :
    (∃ l ∈ s.tokens, s.site index = ⟨l.span, some l.token⟩) ∨
      s.site index = ⟨⟨s.finish, s.finish⟩, none⟩ := by
  unfold site
  split
  · next l hl => exact .inl ⟨l, List.mem_of_getElem? hl, rfl⟩
  · exact .inr rfl

structure Cursor.IsIn (s : TokenStream) (c : Cursor) : Prop where
  rest : c.rest = s.tokens.drop c.index
  finish : c.finish = s.finish

namespace Cursor.IsIn

variable {s : TokenStream} {c : Cursor}

theorem start (s : TokenStream) : (Cursor.start s.tokens s.finish).IsIn s :=
  ⟨rfl, rfl⟩

theorem after {l : Lexeme} {ls : List Lexeme} (h : c.IsIn s) (hrest : c.rest = l :: ls) :
    (c.after l ls).IsIn s := by
  refine ⟨?_, h.finish⟩
  have htail := congrArg List.tail (h.rest.symm.trans hrest)
  rw [List.tail_drop] at htail
  exact htail.symm

theorem site_eq (h : c.IsIn s) : s.site c.index = ⟨c.nextSpan, c.rest.head?.map Lexeme.token⟩ := by
  unfold TokenStream.site Cursor.nextSpan
  rw [← List.head?_drop, ← h.rest]
  cases c.rest with
  | nil =>
    rw [h.finish]
    rfl
  | cons l ls => rfl

end Cursor.IsIn

/-! ## Failures -/

/-- The failure stands at this site and speaks in the vocabulary. -/
structure Failure.Tells (V : Vocabulary) (site : Site) (f : Failure) : Prop where
  span : f.span = site.span
  found : f.found = site.found
  expected : ∀ e ∈ f.expected, V.Has e
  contexts : ∀ l ∈ f.contexts, V.IsRule l

def Pending.Tells (V : Vocabulary) (s : TokenStream) (p : Pending) : Prop :=
  p.failure.Tells V (s.site p.index)

variable {V : Vocabulary} {s : TokenStream}

theorem Expectation.mem_union {e : Expectation} {xs ys : List Expectation}
    (h : e ∈ union xs ys) : e ∈ xs ∨ e ∈ ys := by
  induction ys generalizing xs with
  | nil => exact .inl h
  | cons y ys ih =>
    rcases ih h with hmem | hmem
    · dsimp only at hmem
      split at hmem
      · exact .inl hmem
      · rcases List.mem_append.1 hmem with hmem | hmem
        · exact .inl hmem
        · exact .inr (List.mem_singleton.1 hmem ▸ List.mem_cons_self)
    · exact .inr (List.mem_cons_of_mem y hmem)

theorem Vocabulary.has_union {xs ys : List Expectation} (hxs : ∀ e ∈ xs, V.Has e)
    (hys : ∀ e ∈ ys, V.Has e) : ∀ e ∈ Expectation.union xs ys, V.Has e :=
  fun e he ↦ (Expectation.mem_union he).elim (hxs e) (hys e)

theorem Failure.Tells.within {site : Site} {f : Failure} {label : Label} (h : f.Tells V site)
    (hlabel : V.IsRule label) : (f.within label).Tells V site := by
  unfold Failure.within
  split
  · exact h
  · exact ⟨h.span, h.found, h.expected,
      List.forall_mem_append.2 ⟨h.contexts, List.forall_mem_singleton.2 hlabel⟩⟩

namespace Pending.Tells

variable {p : Pending} {old : Option Pending}

theorem of_cursor {c : Cursor} {e : Expectation} (hc : c.IsIn s) (he : V.Has e) :
    (c.failure e).Tells V s := by
  unfold Pending.Tells
  rw [show (c.failure e).index = c.index from rfl, hc.site_eq]
  exact ⟨rfl, rfl, List.forall_mem_singleton.2 he, nofun⟩

theorem add (hp : p.Tells V s) (hold : ∀ q ∈ old, q.Tells V s) : (p.add old).Tells V s := by
  cases old with
  | none => exact hp
  | some old =>
    have hold := hold old rfl
    unfold Pending.add
    dsimp only
    split
    · next hindex =>
      have hfound : p.failure.found = old.failure.found := by
        rw [hp.found, hold.found, hindex]
      refine ⟨hold.span, ?_, Vocabulary.has_union hold.expected hp.expected, hold.contexts⟩
      dsimp only
      rw [hfound, Option.or_self]
      exact hold.found
    · split
      · exact hp
      · exact hold

theorem merge (hp : p.Tells V s) (hold : ∀ q ∈ old, q.Tells V s) : (p.merge old).Tells V s := by
  cases old with
  | none => exact hp
  | some old =>
    have hold := hold old rfl
    unfold Pending.merge
    dsimp only
    split
    · refine ⟨hold.span, hold.found, ?_, hold.contexts⟩
      dsimp only
      split
      · exact Vocabulary.has_union hp.expected hold.expected
      · exact Vocabulary.has_union hold.expected hp.expected
    · split
      · exact hp
      · exact hold

theorem relabel {label : Label} {isRule : Bool} (hp : p.Tells V s) (start : Nat)
    (hlabel : V.HasLabel label) (hrule : isRule = true → V.IsRule label) :
    (p.relabel start label isRule).Tells V s := by
  unfold Pending.relabel
  split
  · exact ⟨hp.span, hp.found, List.forall_mem_singleton.2 hlabel, hp.contexts⟩
  · split
    · next hwithin => exact Failure.Tells.within hp (hrule (Bool.and_eq_true_iff.1 hwithin).1)
    · exact hp

end Pending.Tells

/-! ## Parsers -/

def Notes.Tells (V : Vocabulary) (s : TokenStream) (n : Notes) : Prop :=
  ∀ p ∈ n.pending, p.Tells V s

theorem Notes.Tells.clear (n : Notes) : n.clear.Tells V s :=
  nofun

theorem Notes.Tells.fail {n : Notes} {c : Cursor} {e : Expectation} (hn : n.Tells V s)
    (hc : c.IsIn s) (he : V.Has e) : (n.add (c.failure e)).Tells V s := by
  intro p hp
  obtain rfl := Option.some.inj hp
  exact (Pending.Tells.of_cursor hc he).add hn

/-- All failures stand at sites of the stream, and after a success so does the cursor. -/
structure Outcome.Tells {α : Type} (V : Vocabulary) (s : TokenStream) (o : Outcome α) : Prop where
  pending : o.notes.Tells V s
  emitted : ∀ f ∈ o.emitted, ∃ i, f.Tells V (s.site i)
  cursor : o.value.isSome → o.cursor.IsIn s

namespace Outcome.Tells

variable {α : Type} {o : Outcome α} {c : Cursor} {n : Notes}

theorem done (x : α) (hc : c.IsIn s) (hn : n.Tells V s) : (Outcome.done x c n).Tells V s :=
  ⟨hn, nofun, fun _ ↦ hc⟩

theorem failed (c : Cursor) (hn : n.Tells V s) : (Outcome.failed c n : Outcome α).Tells V s :=
  ⟨hn, nofun, nofun⟩

theorem cursor_of_some {x : α} (h : o.Tells V s) (hx : o.value = some x) : o.cursor.IsIn s :=
  h.cursor (Option.isSome_of_eq_some hx)

end Outcome.Tells

theorem Notes.Tells.failures {pending : Option Pending} (h : ∀ p ∈ pending, p.Tells V s) :
    ∀ f ∈ pending.toList.map Pending.failure, ∃ i, f.Tells V (s.site i) := by
  intro f hf
  obtain ⟨p, hp, rfl⟩ := List.mem_map.1 hf
  exact ⟨p.index, h p (Option.mem_toList.1 hp)⟩

namespace Parser

variable {α β : Type} {p q : Parser α}

/-- The failures of the parser tell where they stand, in the vocabulary. -/
def Tells (V : Vocabulary) (p : Parser α) : Prop :=
  ∀ ⦃s c n⦄, c.IsIn s → n.Tells V s → (p c n).Tells V s

namespace Tells

protected theorem pure (x : α) : (pure x : Parser α).Tells V :=
  fun _ _ _ hc hn ↦ .done x hc hn

theorem token {atToken atEnd : Expectation} (f : Token → Option α) (htoken : V.Has atToken)
    (hend : V.Has atEnd) : (token atToken atEnd f).Tells V := by
  intro s c n hc hn
  unfold Parser.token
  split
  · exact .failed c (Notes.Tells.fail hn hc hend)
  · next l ls hrest =>
    split
    · exact .done _ (hc.after hrest) hn
    · exact .failed c (Notes.Tells.fail hn hc htoken)

theorem select (f : Token → Option α) : (select f).Tells V :=
  token f trivial trivial

theorem tokenWhere (test : Token → Bool) : (tokenWhere test).Tells V :=
  token _ trivial trivial

theorem exactly {t : Token} (h : t ∈ V.tokens) : (exactly t).Tells V :=
  token _ h h

theorem endOfInput : endOfInput.Tells V := by
  intro s c n hc hn
  unfold Parser.endOfInput
  split
  · exact .done () hc hn
  · exact .failed c (Notes.Tells.fail hn hc trivial)

protected theorem bind {f : α → Parser β} (hp : p.Tells V) (hf : ∀ x, (f x).Tells V) :
    (p >>= f).Tells V := by
  intro s c n hc hn
  have hfirst := hp hc hn
  cases hx : (p c n).value with
  | none =>
    rw [bind_eq_of_none hx]
    exact ⟨hfirst.pending, hfirst.emitted, nofun⟩
  | some x =>
    rw [bind_of_some hx]
    have hsecond := hf x (hfirst.cursor_of_some hx) hfirst.pending
    exact ⟨hsecond.pending, List.forall_mem_append.2 ⟨hfirst.emitted, hsecond.emitted⟩,
      hsecond.cursor⟩

protected theorem or (hp : p.Tells V) (hq : q.Tells V) : (p.or q).Tells V := by
  intro s c n hc hn
  cases hx : (p c n).value with
  | none =>
    rw [or_of_none hx]
    exact hq hc (hp hc hn).pending
  | some x =>
    rw [or_of_some hx]
    exact hp hc hn

protected theorem optional (hp : p.Tells V) : (optional p).Tells V := by
  intro s c n hc hn
  have hfirst := hp hc hn
  cases hx : (p c n).value with
  | none =>
    rw [optional_of_none hx]
    exact .done none hc hfirst.pending
  | some x =>
    rw [optional_of_some hx]
    exact ⟨hfirst.pending, hfirst.emitted, fun _ ↦ hfirst.cursor_of_some hx⟩

protected theorem many (hp : p.Tells V) : (many p).Tells V := by
  intro s c n hc hn
  induction hk : c.rest.length using Nat.strongRecOn generalizing c n with
  | _ k ih =>
    have hfirst := hp hc hn
    cases hx : (p c n).value with
    | none =>
      rw [many_of_none hx]
      exact .done [] hc hfirst.pending
    | some x =>
      by_cases hlt : (p c n).cursor.rest.length < c.rest.length
      · have hmore := ih _ (hk ▸ hlt) (hfirst.cursor_of_some hx) hfirst.pending rfl
        rw [many_of_some hx hlt]
        exact ⟨hmore.pending, List.forall_mem_append.2 ⟨hfirst.emitted, hmore.emitted⟩,
          fun _ ↦ hmore.cursor (isSome_many p _ _)⟩
      · rw [many_of_idle hx (Nat.not_lt.1 hlt)]
        exact .done [] hc hfirst.pending

theorem many₁ (hp : p.Tells V) : (many₁ p).Tells V :=
  hp.bind fun _ ↦ hp.many.bind fun _ ↦ .pure _

theorem separated₁ (hcomma : .sign .comma ∈ V.tokens) (hp : p.Tells V) :
    (separated₁ p).Tells V := by
  have hmore : (moreAfterCommas p).Tells V := Tells.many ((exactly hcomma).bind fun _ ↦ hp)
  exact hp.bind fun _ ↦ hmore.bind fun _ ↦ .pure _

theorem separated (hcomma : .sign .comma ∈ V.tokens) (hp : p.Tells V) : (separated p).Tells V :=
  (hp.separated₁ hcomma).optional.bind fun _ ↦ .pure _

protected theorem between {opening closing : Sign} (hopening : .sign opening ∈ V.tokens)
    (hclosing : .sign closing ∈ V.tokens) (hp : p.Tells V) : (between opening closing p).Tells V :=
  (exactly hopening).bind fun _ ↦ hp.bind fun _ ↦ (exactly hclosing).bind fun _ ↦ .pure _

theorem located (hp : p.Tells V) : (located p).Tells V := by
  intro s c n hc hn
  have hinner := hp hc hn
  exact ⟨hinner.pending, hinner.emitted, fun hsome ↦ hinner.cursor (Option.isSome_map ▸ hsome)⟩

theorem labelledWith {label : Label} {isRule : Bool} (hlabel : V.HasLabel label)
    (hrule : isRule = true → V.IsRule label) (hp : p.Tells V) :
    (labelledWith label isRule p).Tells V := by
  intro s c n hc hn
  have hinner := hp hc (Notes.Tells.clear n)
  refine ⟨?_, ?_, hinner.cursor⟩
  · unfold Parser.labelledWith Notes.withPending
    dsimp only
    intro f hf
    cases hnew : (p c n.clear).notes.pending with
    | none =>
      rw [hnew] at hf
      exact hn f hf
    | some new =>
      rw [hnew] at hf
      obtain rfl := Option.some.inj hf
      exact ((hinner.pending new hnew).relabel c.index hlabel hrule).merge hn
  · unfold Parser.labelledWith
    dsimp only
    split
    · next hisRule =>
      refine List.forall_mem_map.2 fun f hf ↦ ?_
      obtain ⟨i, hi⟩ := hinner.emitted f hf
      exact ⟨i, hi.within (hrule hisRule)⟩
    · exact hinner.emitted

theorem labelled {notion : Notion} (h : notion ∈ V.notions) (hp : p.Tells V) :
    (labelled notion p).Tells V :=
  hp.labelledWith h nofun

theorem named {r : Rule} (h : r ∈ V.rules) (hp : p.Tells V) : (named r p).Tells V :=
  hp.labelledWith h nofun

theorem rule {r : Rule} (h : r ∈ V.rules) (hp : p.Tells V) : (rule r p).Tells V :=
  hp.labelledWith h fun _ ↦ ⟨r, h, rfl⟩

/-! ## Recovery -/

theorem recoverBy {skip : Parser α} (hskip : skip.Tells V) (hp : p.Tells V) :
    (recoverBy skip p).Tells V := by
  intro s c n hc hn
  have hfirst := hp hc hn
  unfold Parser.recoverBy
  dsimp only
  split
  · exact hfirst
  · have hskipped := hskip hc (Notes.Tells.clear (p c n).notes)
    split
    · exact ⟨hskipped.pending,
        List.forall_mem_append.2 ⟨hskipped.emitted, Notes.Tells.failures hfirst.pending⟩,
        hskipped.cursor⟩
    · exact .failed c hfirst.pending

theorem tokenBefore (stop : Parser Unit) : (tokenBefore stop).Tells V := by
  intro s c n hc hn
  have hany : (Parser.token .anyToken .anyToken some).Tells V := token some trivial trivial
  have hfirst := hany hc hn
  unfold Parser.tokenBefore
  dsimp only
  split
  · exact hfirst
  · split
    · exact ⟨hfirst.pending, hfirst.emitted, hfirst.cursor⟩
    · exact .failed c (Notes.Tells.fail hfirst.pending hc trivial)

theorem searchBefore {stop : Parser Unit} {held : Option Pending} (hstop : stop.Tells V)
    (hp : p.Tells V) (hheld : ∀ f ∈ held, f.Tells V s) {c : Cursor} {n : Notes}
    (hc : c.IsIn s) (hn : n.Tells V s) : (searchBefore stop p held c n).Tells V s := by
  fun_induction Parser.searchBefore stop p held c n with
  | case1 c n looked u hlooked => exact .failed c hheld
  | case2 c n looked hlooked notes hrest => exact .failed c hheld
  | case3 c n looked hlooked notes l ls hrest trial hgood =>
    have hnotes : notes.Tells V s := (hstop hc hn).pending
    have htrial : trial.Tells V s := hp (hc.after hrest) hnotes
    exact ⟨htrial.pending, Notes.Tells.failures hheld, htrial.cursor⟩
  | case4 c n looked hlooked notes l ls hrest trial hbad ih =>
    exact ih (hc.after hrest) (Notes.Tells.clear trial.notes)

theorem resumeBefore {stop : Parser Unit} (hstop : stop.Tells V) (hp : p.Tells V) :
    (resumeBefore stop p).Tells V := by
  intro s c n hc hn
  have hfirst := hp hc hn
  unfold Parser.resumeBefore
  dsimp only
  split
  · exact hfirst
  · exact hstop.searchBefore hp hfirst.pending hc (Notes.Tells.clear (p c n).notes)

/-! ## Whole parses -/

theorem failures_parse {tokens : List Lexeme} {finish : Nat} (hp : p.Tells V) :
    ∀ f ∈ (p.parse tokens finish).failures,
      ∃ i, f.Tells V (TokenStream.site ⟨tokens, finish⟩ i) := by
  have hall : p.toEnd.Tells V := hp.bind fun _ ↦ endOfInput.bind fun _ ↦ .pure _
  have hdone := hall (.start ⟨tokens, finish⟩) (n := .start) nofun
  rw [parse_eq]
  refine List.forall_mem_append.2 ⟨hdone.emitted, ?_⟩
  split
  · exact Notes.Tells.failures hdone.pending
  · nofun

end Tells

end Parser

end MasCheck
