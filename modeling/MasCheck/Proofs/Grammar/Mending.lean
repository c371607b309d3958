import Mathlib.Data.List.Forall2
import MasCheck.Proofs.Grammar.Confined
import MasCheck.Proofs.Grammar.RecoveryFree

/-!
# Broken statements

A chunk of a block is any list of tokens up to a dot. What a block makes of a chunk does not
depend on what stands around it: the statement that the whole chunk is, or else the longest rest
of the chunk that is one, or else nothing. If the chunk is not a statement as a whole, one failure
is emitted, and it is about a token of the chunk.

The search for a rest goes through the chunk token by token and stops at its dot. The failure that
is emitted is the one that was pending when the search began. It cannot come from an earlier
chunk: the marks that are left there are in front of the cursor, and a failing statement leaves
none in front of it.
-/

namespace MasCheck

/-- Any tokens without a dot or a closing brace, and a dot behind them. -/
structure Chunk where
  body : List Lexeme
  dot : Span
  plain : ∀ l ∈ body, l.token ≠ .sign .dot ∧ l.token ≠ .sign .rightBrace

namespace Chunk

def tokens (k : Chunk) : List Lexeme :=
  k.body ++ [⟨.sign .dot, k.dot⟩]

theorem tokens_append (k : Chunk) (rest : List Lexeme) :
    k.tokens ++ rest = k.body ++ ⟨.sign .dot, k.dot⟩ :: rest := by
  rw [tokens, List.append_assoc, List.singleton_append]

theorem dotless_body (k : Chunk) : Dotless k.body :=
  fun l hl ↦ (k.plain l hl).1

end Chunk

/-- The failure is about a token of the chunk. -/
def Failure.Blames (f : Failure) (k : Chunk) : Prop :=
  ∃ l ∈ k.tokens, f.span = l.span

namespace Production

/-- What is made of tokens that should be a statement. -/
inductive Mended {α : Type} (P : Production α) : List Lexeme → Option α → Prop
  | whole {ts : List Lexeme} {x : α} (h : P ts x) : Mended P ts (some x)
  | rest {ts vs : List Lexeme} {x : α} (hsuffix : vs <:+ ts) (hproper : vs.length < ts.length)
      (h : P vs x) (hlongest : ∀ ws y, ws <:+ ts → P ws y → ws.length ≤ vs.length) :
      Mended P ts (some x)
  | nothing {ts : List Lexeme} (hnone : ∀ ws y, ws <:+ ts → ¬ P ws y) : Mended P ts none

/-- The tokens are no statement as a whole. -/
def Breaks {α : Type} (P : Production α) (ts : List Lexeme) : Prop :=
  ∀ x, ¬ P ts x

namespace Mended

variable {α : Type} {P : Production α} {ts : List Lexeme}

/-- Tokens that are no statement as a whole are worth what they are without the first. -/
theorem of_tail {v : Option α} (hbreaks : P.Breaks ts) (h : Mended P ts.tail v) :
    Mended P ts v := by
  cases ts with
  | nil => exact h
  | cons l ts =>
    have hshorter : ∀ ws y, ws <:+ l :: ts → P ws y → ws <:+ ts := by
      intro ws y hws hy
      rcases List.suffix_cons_iff.1 hws with rfl | hws
      · exact absurd hy (hbreaks y)
      · exact hws
    have htail : ∀ vs, vs <:+ ts → vs <:+ l :: ts :=
      fun vs hvs ↦ hvs.trans (List.suffix_cons l ts)
    cases h with
    | whole h =>
      refine .rest (htail ts List.suffix_rfl) (Nat.lt_succ_self _) h fun ws y hws hy ↦ ?_
      exact (hshorter ws y hws hy).length_le
    | rest hsuffix hproper h hlongest =>
      refine .rest (htail _ hsuffix) (Nat.lt_succ_of_lt hproper) h fun ws y hws hy ↦ ?_
      exact hlongest ws y (hshorter ws y hws hy) hy
    | nothing hnone =>
      exact .nothing fun ws y hws hy ↦ hnone ws y (hshorter ws y hws hy) hy

theorem of_map_some {v : Option (Option α)} (h : Mended (P.map some) ts v) :
    Mended P ts v.join := by
  cases h with
  | whole h =>
    obtain ⟨x, hx, rfl⟩ := h
    exact .whole hx
  | rest hsuffix hproper h hlongest =>
    obtain ⟨x, hx, rfl⟩ := h
    exact .rest hsuffix hproper hx fun ws y hws hy ↦ hlongest ws (some y) hws ⟨y, hy, rfl⟩
  | nothing hnone =>
    exact .nothing fun ws y hws hy ↦ hnone ws (some y) hws ⟨y, hy, rfl⟩

end Mended

open Classical in
/-- The chunks that are no statements as a whole. -/
noncomputable def broken {α : Type} (P : Production α) (chunks : List Chunk) : List Chunk :=
  chunks.filter fun k ↦ P.Breaks k.tokens

section

variable {α β : Type} {P : Production α} {k : Chunk}

theorem broken_of_breaks (h : P.Breaks k.tokens) : P.broken [k] = [k] := by
  simp [broken, h]

theorem broken_of_derives {x : α} (h : P k.tokens x) : P.broken [k] = [] := by
  have hwhole : ¬ P.Breaks k.tokens := fun hbreaks ↦ hbreaks x h
  simp [broken, hwhole]

theorem broken_cons (k : Chunk) (ks : List Chunk) :
    P.broken (k :: ks) = P.broken [k] ++ P.broken ks :=
  List.filter_append [k] ks

theorem broken_map (g : α → β) (P : Production α) : (P.map g).broken = P.broken := by
  have hbreaks : ∀ ts, (P.map g).Breaks ts ↔ P.Breaks ts := by
    intro ts
    constructor
    · exact fun h x hx ↦ h (g x) ⟨x, hx, rfl⟩
    · rintro h y ⟨x, hx, -⟩
      exact h x hx
  funext ks
  exact List.filter_congr fun k _ ↦ decide_eq_decide.2 (hbreaks k.tokens)

end

end Production

/-- The outcome of a run over tokens with broken chunks among them: a value with the given meaning,
the cursor behind the tokens, and one failure for each broken chunk. -/
structure Outcome.Mends {α : Type} (o : Outcome α) (c : Cursor) (ts : List Lexeme)
    (broken : List Chunk) (meaning : α → Prop) : Prop where
  value : ∃ x, o.value = some x ∧ meaning x
  reaches : c.Reaches ts o.cursor
  blames : List.Forall₂ Failure.Blames o.emitted broken

/-- A search has found a value behind some of the tokens: it is behind all of them, has emitted the
failure that was held, and has left no mark behind the given place. -/
structure Outcome.Finds {α : Type} (o : Outcome α) (c : Cursor) (ts : List Lexeme)
    (held : Option Pending) (last : Nat) : Prop where
  reaches : c.Reaches ts o.cursor
  emitted : o.emitted = held.toList.map Pending.failure
  marked : o.notes.Marked fun m ↦ m.index ≤ last

theorem Outcome.Finds.step {α : Type} {o : Outcome α} {c : Cursor} {l : Lexeme}
    {ls ts : List Lexeme} {held : Option Pending} {last : Nat}
    (h : o.Finds (c.after l ls) ts held last) (hrest : c.rest = l :: ls) :
    o.Finds c (l :: ts) held last :=
  ⟨.step hrest h.reaches, h.emitted, h.marked⟩

namespace Parser

variable {α : Type} {p : Parser α} {P : Production α} {c : Cursor} {n : Notes}
  {k : Chunk} {us rest : List Lexeme} {l : Lexeme} {a : Span} {x : α}

/-! ## The end of a statement -/

theorem statementEnd_of_other (hrest : c.rest = l :: rest) (hdot : l.token ≠ .sign .dot)
    (hbrace : l.token ≠ .sign .rightBrace) (n : Notes) :
    (Grammar.statementEnd c n).value = none :=
  refuses_or (refuses_sign_cons hdot) (refuses_sign_cons hbrace) c n hrest

theorem statementEnd_of_dot (hrest : c.rest = ⟨.sign .dot, a⟩ :: rest) (n : Notes) :
    (Grammar.statementEnd c n).value = some () := by
  have hdot : (sign .dot c n).value = some () := by
    rw [sign_of_rest hrest]
    rfl
  unfold Grammar.statementEnd
  rwa [or_of_some hdot]

theorem admits_statementEnd_of_dot (a : Span) (rest : List Lexeme) :
    Grammar.statementEnd.Admits (⟨.sign .dot, a⟩ :: rest) := by
  intro c n hrest
  rw [statementEnd_of_dot hrest]
  rfl

theorem marked_statementEnd {S : Mark → Prop} (hn : n.Marked S) (hc : S c.mark) :
    (Grammar.statementEnd c n).notes.Marked S := by
  have hdot : (sign .dot c n).notes.Marked S := marked_token _ _ _ hn hc
  unfold Grammar.statementEnd
  cases hx : (sign .dot c n).value with
  | none =>
    rw [or_of_none hx]
    exact marked_token _ _ _ hdot hc
  | some x =>
    rw [or_of_some hx]
    exact hdot

theorem tokenBefore_of_other (hrest : c.rest = l :: rest) (hdot : l.token ≠ .sign .dot)
    (hbrace : l.token ≠ .sign .rightBrace) (n : Notes) :
    ∃ n' : Notes, tokenBefore Grammar.statementEnd c n = .done l.token (c.after l rest) n' ∧
      n'.pending = n.pending := by
  have hstop := statementEnd_of_other hrest hdot hbrace (n.look c.index).clear
  refine ⟨(Grammar.statementEnd c (n.look c.index).clear).notes.withPending n.pending, ?_, rfl⟩
  unfold tokenBefore
  rw [token_of_some hrest rfl]
  simp only [Outcome.done, hstop]
  rfl

theorem tokenBefore_of_dot (hrest : c.rest = ⟨.sign .dot, a⟩ :: rest) (n : Notes) :
    ∃ n' : Notes, tokenBefore Grammar.statementEnd c n =
        .failed c (n'.add (c.failure .other)) ∧ n'.pending = n.pending := by
  have hstop := statementEnd_of_dot hrest (n.look c.index).clear
  refine ⟨(Grammar.statementEnd c (n.look c.index).clear).notes.withPending n.pending, ?_, rfl⟩
  unfold tokenBefore
  rw [token_of_some hrest rfl]
  simp only [Outcome.done, hstop]
  rfl

/-! ## Skipping a chunk -/

/-- A cursor in front of a chunk overlooks no token behind its dot. -/
theorem index_le_of_overlooks {d : Cursor} (hrest : c.rest = us ++ ⟨.sign .dot, a⟩ :: rest)
    (h : c.Overlooks d) : d.index ≤ c.index + us.length := by
  obtain ⟨ts, hts, hd⟩ := h
  rw [hd.index_eq]
  refine Nat.add_le_add_left (Nat.le_of_not_lt fun hlt ↦ ?_) c.index
  have hfront : us ++ [⟨.sign .dot, a⟩] <+: ts := by
    have hchunk : us ++ [⟨.sign .dot, a⟩] <+: c.rest := ⟨rest, by simp [hrest]⟩
    have htokens : ts <+: c.rest := ⟨d.rest, hd.rest_eq.symm⟩
    exact List.prefix_of_prefix_length_le hchunk htokens (by simp; omega)
  exact hts ⟨.sign .dot, a⟩ (hfront.subset (by simp)) rfl

/-- Marks near a cursor are not behind the next dot. -/
theorem index_le_of_near (hrest : c.rest = us ++ ⟨.sign .dot, a⟩ :: rest) (hn : n.Marked c.Near) :
    n.Marked fun m ↦ m.index ≤ c.index + us.length := by
  refine hn.mono fun m hm ↦ ?_
  rcases hm with hbefore | ⟨d, hd, rfl⟩
  · omega
  · exact index_le_of_overlooks hrest hd

/-- Marks that are not behind a dot are in front of the cursor behind the dot. -/
theorem near_behind {d : Cursor} (hd : c.Reaches (us ++ [⟨.sign .dot, a⟩]) d)
    (hn : n.Marked fun m ↦ m.index ≤ c.index + us.length) : n.Marked d.Near := by
  refine hn.mono fun m hm ↦ .inl ?_
  rw [hd.index_eq, List.length_append, List.length_singleton]
  omega

theorem Confined.near_behind (h : Confined .whole p) (hn : n.Marked c.Near)
    (hx : (p c n).value = some x) : (p c n).notes.Marked (p c n).cursor.Near := by
  obtain ⟨ts, ⟨us, a, hus, rfl⟩, hd⟩ := h.takes hx
  have hrest : c.rest = us ++ ⟨.sign .dot, a⟩ :: (p c n).cursor.rest := by
    rw [hd.rest_eq, List.append_assoc, List.singleton_append]
  refine Parser.near_behind hd (h.marks (index_le_of_near hrest hn) fun d hd ↦ ?_)
  exact index_le_of_overlooks hrest hd

/-- Passing over the tokens in front of a dot. -/
theorem many_tokenBefore (hus : ∀ l ∈ us, l.token ≠ .sign .dot ∧ l.token ≠ .sign .rightBrace)
    (hrest : c.rest = us ++ ⟨.sign .dot, a⟩ :: rest) {k : Nat} (hk : c.index + us.length = k)
    (hn : n.Marked fun m ↦ m.index ≤ k) :
    ∃ xs d n', many (tokenBefore Grammar.statementEnd) c n = .done xs d n' ∧ c.Reaches us d ∧
      d.rest = ⟨.sign .dot, a⟩ :: rest ∧ n'.Marked fun m ↦ m.index ≤ k := by
  induction us generalizing c n with
  | nil =>
    obtain ⟨n', hrun, hpending⟩ := tokenBefore_of_dot hrest n
    have hvalue : (tokenBefore Grammar.statementEnd c n).value = none := by rw [hrun]; rfl
    refine ⟨[], c, _, many_of_none hvalue, .refl c, hrest, ?_⟩
    rw [hrun]
    refine Notes.Marked.add ?_ (Nat.le_of_eq hk)
    intro f hf
    exact hn f (hpending ▸ hf)
  | cons l us ih =>
    obtain ⟨hdot, hbrace⟩ := hus l List.mem_cons_self
    rw [List.cons_append] at hrest
    obtain ⟨n', hrun, hpending⟩ := tokenBefore_of_other hrest hdot hbrace n
    have hvalue : (tokenBefore Grammar.statementEnd c n).value = some l.token := by
      rw [hrun]; rfl
    have hlt : (tokenBefore Grammar.statementEnd c n).cursor.rest.length < c.rest.length := by
      rw [hrun, hrest]
      exact Nat.lt_succ_self _
    have hn' : n'.Marked fun m ↦ m.index ≤ k := fun f hf ↦ hn f (hpending ▸ hf)
    have hindex : (c.after l (us ++ ⟨.sign .dot, a⟩ :: rest)).index + us.length = k := by
      rw [← hk, List.length_cons]
      simp only [Cursor.after]
      omega
    obtain ⟨xs, d, n'', hmany, hd, hdrest, hn''⟩ :=
      ih (fun k hk ↦ hus k (List.mem_cons_of_mem l hk)) rfl hindex hn'
    refine ⟨l.token :: xs, d, n'', ?_, .step hrest hd, hdrest, hn''⟩
    rw [many_of_some hvalue hlt, hrun]
    simp only [Outcome.done] at hmany ⊢
    rw [hmany]
    rfl

theorem skipStatement_of_chunk
    (hus : ∀ l ∈ us, l.token ≠ .sign .dot ∧ l.token ≠ .sign .rightBrace)
    (hrest : c.rest = us ++ ⟨.sign .dot, a⟩ :: rest)
    (hn : n.Marked fun m ↦ m.index ≤ c.index + us.length) :
    ∃ d n', Grammar.skipStatement c n = .done () d n' ∧ c.Reaches (us ++ [⟨.sign .dot, a⟩]) d ∧
      n'.Marked fun m ↦ m.index ≤ c.index + us.length := by
  obtain ⟨xs, d, n', hmany, hd, hdrest, hn'⟩ := many_tokenBefore hus hrest rfl hn
  have hfirst : (do
      let _ ← many (tokenBefore Grammar.statementEnd)
      Grammar.dot : Parser Unit) c n =
        .done () (d.after ⟨.sign .dot, a⟩ rest) (n'.look d.index) := by
    rw [bind_of_done hmany]
    exact sign_of_rest hdrest
  have hvalue := congrArg Outcome.value hfirst
  have hrun := or_of_some hvalue (do
    let _ ← many₁ (tokenBefore Grammar.statementEnd))
  exact ⟨_, _, hrun.trans hfirst, hd.trans (.single hdrest), hn'⟩

/-! ## Statements among the rests of a chunk -/

theorem exists_reaches_dot (hrest : c.rest = us ++ ⟨.sign .dot, a⟩ :: rest) :
    ∃ d, c.Reaches (us ++ [⟨.sign .dot, a⟩]) d := by
  have hchunk : c.rest = us ++ [⟨.sign .dot, a⟩] ++ rest := by
    rw [hrest, List.append_assoc, List.singleton_append]
  obtain ⟨d, hd, -⟩ := Cursor.Reaches.of_rest hchunk
  exact ⟨d, hd⟩

/-- In front of a chunk a statement parser succeeds when the whole chunk is a statement. -/
theorem Realizes.value_eq_some_iff (hp : Realizes p P anywhere) (hconf : Confined .whole p)
    (hus : Dotless us) (hrest : c.rest = us ++ ⟨.sign .dot, a⟩ :: rest) :
    (p c n).value = some x ↔ P (us ++ [⟨.sign .dot, a⟩]) x := by
  constructor
  · intro hx
    obtain ⟨ts, hd, hP⟩ := hp.sound ⟨hx, rfl, hconf.quiet c n⟩
    obtain ⟨ts', ⟨vs, b, hvs, rfl⟩, hd'⟩ := hconf.takes hx
    have hlength : ts.length = (vs ++ [(⟨.sign .dot, b⟩ : Lexeme)]).length := by
      have hindex := hd.index_eq.symm.trans hd'.index_eq
      omega
    obtain ⟨rfl, -⟩ := List.append_inj (hd.rest_eq.symm.trans hd'.rest_eq) hlength
    have htokens : us ++ ⟨.sign .dot, a⟩ :: rest =
        vs ++ ⟨.sign .dot, b⟩ :: (p c n).cursor.rest := by
      rw [← hrest, hd.rest_eq, List.append_assoc, List.singleton_append]
    obtain ⟨rfl, rfl, -⟩ := hus.append_dot_inj hvs htokens
    exact hP
  · intro hP
    obtain ⟨d, hd⟩ := exists_reaches_dot hrest
    exact (hp.complete hd hP trivial).value

theorem Realizes.reaches_of_value (hp : Realizes p P anywhere) (hconf : Confined .whole p)
    (hus : Dotless us) (hrest : c.rest = us ++ ⟨.sign .dot, a⟩ :: rest)
    (hx : (p c n).value = some x) :
    c.Reaches (us ++ [⟨.sign .dot, a⟩]) (p c n).cursor := by
  have hP := (hp.value_eq_some_iff hconf hus hrest).1 hx
  obtain ⟨d, hd⟩ := exists_reaches_dot hrest
  rw [(hp.complete (n := n) hd hP trivial).cursor]
  exact hd

/-- Trying a statement parser in front of each later token of a chunk. -/
theorem Realizes.search_chunk (hp : Realizes p P anywhere) (hconf : Confined .whole p)
    (hsolid : P.Solid) (held : Option Pending)
    (hus : ∀ l ∈ us, l.token ≠ .sign .dot ∧ l.token ≠ .sign .rightBrace)
    (hrest : c.rest = us ++ ⟨.sign .dot, a⟩ :: rest) {k : Nat} (hk : c.index + us.length = k)
    (hn : n.Marked fun m ↦ m.index ≤ k) {o : Outcome α}
    (ho : searchBefore Grammar.statementEnd p held c n = o) :
    P.Mended (us ++ [(⟨.sign .dot, a⟩ : Lexeme)]).tail o.value ∧
      (o.value.isSome → o.Finds c (us ++ [⟨.sign .dot, a⟩]) held k) := by
  induction us generalizing c n with
  | nil =>
    rw [searchBefore_of_admits (admits_statementEnd_of_dot a rest) held n hrest] at ho
    subst ho
    exact ⟨.nothing fun ws y hws hy ↦ hsolid ws y hy (List.suffix_nil.1 hws), nofun⟩
  | cons l us ih =>
    obtain ⟨hdot, hbrace⟩ := hus l List.mem_cons_self
    have htail : ∀ l ∈ us, l.token ≠ .sign .dot ∧ l.token ≠ .sign .rightBrace :=
      fun k hk ↦ hus k (List.mem_cons_of_mem l hk)
    have hdotless : Dotless us := fun l hl ↦ (htail l hl).1
    rw [List.cons_append] at hrest
    have hstop := statementEnd_of_other hrest hdot hbrace n
    -- The cursor and the notes with which the statement is tried behind the first token.
    let d := c.after l (us ++ ⟨.sign .dot, a⟩ :: rest)
    let n' := (Grammar.statementEnd c n).notes.look c.index
    have hdrest : d.rest = us ++ ⟨.sign .dot, a⟩ :: rest := rfl
    have hdindex : d.index + us.length = k := by
      rw [← hk, List.length_cons]
      simp only [d, Cursor.after]
      omega
    cases hx : (p d n').value with
    | none =>
      have hbreaks : P.Breaks (us ++ [⟨.sign .dot, a⟩]) := by
        intro y hy
        cases hx.symm.trans ((hp.value_eq_some_iff hconf hdotless hdrest).2 hy)
      rw [searchBefore_of_trial_none hstop held hrest rfl hx] at ho
      obtain ⟨hmended, hfinds⟩ := ih htail hdrest hdindex (Notes.marked_clear _ _) ho
      exact ⟨hmended.of_tail hbreaks, fun h ↦ (hfinds h).step hrest⟩
    | some x =>
      have hn' : n'.Marked fun m ↦ m.index ≤ k :=
        marked_statementEnd hn (Nat.le_trans (Nat.le_add_right _ _) (Nat.le_of_eq hk))
      have hmarked : (p d n').notes.Marked fun m ↦ m.index ≤ k := by
        refine hconf.marks hn' fun e he ↦ ?_
        exact Nat.le_trans (index_le_of_overlooks hdrest he) (Nat.le_of_eq hdindex)
      rw [searchBefore_of_trial_some hstop held hrest rfl hx (hconf.quiet d n')] at ho
      have hfinds : o.Finds d (us ++ [⟨.sign .dot, a⟩]) held k :=
        ho ▸ ⟨hp.reaches_of_value hconf hdotless hdrest hx, rfl, hmarked⟩
      have hvalue : o.value = some x := ho ▸ hx
      rw [hvalue]
      exact ⟨.whole ((hp.value_eq_some_iff hconf hdotless hdrest).1 hx), fun _ ↦ hfinds.step hrest⟩

/-! ## Statements in front of chunks -/

/-- A mark that is near a chunk and not in front of it is of a token of the chunk. -/
theorem blames_of_near {f : Pending} (hrest : c.rest = k.tokens ++ rest)
    (hnear : c.Near f.mark) (hindex : c.index ≤ f.index) : f.failure.Blames k := by
  rcases hnear with hbefore | ⟨d, ⟨ts, hts, hd⟩, hmark⟩
  · exact absurd hbefore (Nat.not_lt.2 hindex)
  · have hsplit := hrest.trans (k.tokens_append rest)
    have hlength : ts.length ≤ k.body.length := by
      have hle := index_le_of_overlooks hsplit ⟨ts, hts, hd⟩
      rw [hd.index_eq] at hle
      omega
    have htokens : k.tokens ++ rest = ts ++ d.rest := hrest ▸ hd.rest_eq
    obtain ⟨vs, hvs⟩ : ts <+: k.tokens := by
      refine List.prefix_of_prefix_length_le ⟨_, htokens.symm⟩ (List.prefix_append _ _) ?_
      simp only [Chunk.tokens, List.length_append, List.length_singleton]
      omega
    have hdrest : d.rest = vs ++ rest := by
      rw [← hvs, List.append_assoc] at htokens
      exact (List.append_cancel_left htokens).symm
    have hspan : f.failure.span = d.nextSpan := congrArg Mark.span hmark
    cases vs with
    | nil =>
      have hwhole := congrArg List.length hvs
      simp only [Chunk.tokens, List.length_append, List.length_singleton, List.length_nil]
        at hwhole
      omega
    | cons l vs =>
      refine ⟨l, by simp [← hvs], ?_⟩
      rw [hspan, Cursor.nextSpan, hdrest]
      rfl

/-- What trying a statement parser in front of a chunk, and in front of each later token of it,
comes to. -/
theorem Realizes.resume_chunk (hp : Realizes p P anywhere) (hconf : Confined .whole p)
    (hsolid : P.Solid) (hrest : c.rest = k.tokens ++ rest) (hn : n.Marked c.Near)
    {o : Outcome α} (ho : Parser.resumeBefore Grammar.statementEnd p c n = o) :
    P.Mended k.tokens o.value ∧
      (o.value.isSome → c.Reaches k.tokens o.cursor ∧
        List.Forall₂ Failure.Blames o.emitted (P.broken [k]) ∧ o.notes.Marked o.cursor.Near) ∧
      (o.value = none → P.Breaks k.tokens ∧
        ∃ f, o.notes.pending = some f ∧ f.failure.Blames k) := by
  have hsplit := hrest.trans (k.tokens_append rest)
  cases hx : (p c n).value with
  | some x =>
    obtain rfl : p c n = o := (resumeBefore_of_some Grammar.statementEnd hx).symm.trans ho
    have hP := (hp.value_eq_some_iff hconf k.dotless_body hsplit).1 hx
    have hreaches := hp.reaches_of_value hconf k.dotless_body hsplit hx
    rw [hx]
    refine ⟨.whole hP, fun _ ↦ ⟨hreaches, ?_, hconf.near_behind hn hx⟩, nofun⟩
    rw [hconf.quiet c n, Production.broken_of_derives hP]
    exact .nil
  | none =>
    have hbreaks : P.Breaks k.tokens := by
      intro x hP
      cases hx.symm.trans ((hp.value_eq_some_iff (n := n) hconf k.dotless_body hsplit).2 hP)
    obtain ⟨f, hf, hindex⟩ := hconf.blames hx
    have hblames : f.failure.Blames k := blames_of_near hrest (hconf.near hn f hf) hindex
    rw [resumeBefore_of_none _ hx, hf] at ho
    obtain ⟨hmended, hfinds⟩ := hp.search_chunk hconf hsolid (some f) k.plain hsplit rfl
      (Notes.marked_clear _ _) ho
    refine ⟨hmended.of_tail hbreaks, fun h ↦ ?_, fun h ↦ ⟨hbreaks, f, ?_, hblames⟩⟩
    · have hreaches := (hfinds h).reaches
      refine ⟨hreaches, ?_, near_behind hreaches (hfinds h).marked⟩
      rw [(hfinds h).emitted, Production.broken_of_breaks hbreaks]
      exact .cons hblames .nil
    · rw [← ho] at h ⊢
      exact pending_searchBefore h

/-- A statement of a block, in front of any chunk. -/
theorem Realizes.mends_statement (hp : Realizes p P anywhere) (hconf : Confined .whole p)
    (hsolid : P.Solid) (hrest : c.rest = k.tokens ++ rest) (hn : n.Marked c.Near) :
    (Grammar.statement p c n).Mends c k.tokens (P.broken [k]) (P.Mended k.tokens) ∧
      (Grammar.statement p c n).notes.Marked (Grammar.statement p c n).cursor.Near := by
  have hp' : Realizes (do let x ← p; return some x) (P.map some) anywhere := hp.map some
  obtain ⟨hmended, hsome, hnone⟩ := hp'.resume_chunk (hconf.andReturn some) (hsolid.map some)
    hrest hn rfl
  have hvalue := hmended.of_map_some
  rw [Production.broken_map] at hsome
  unfold Grammar.statement
  cases hv : (Parser.resumeBefore Grammar.statementEnd
      (do let x ← p; return some x : Parser (Option α)) c n).value with
  | some v =>
    obtain ⟨hreaches, hblames, hmarked⟩ := hsome (by rw [hv]; rfl)
    rw [hv] at hvalue
    rw [recoverBy_of_some _ hv]
    exact ⟨⟨⟨v, hv, hvalue⟩, hreaches, hblames⟩, hmarked⟩
  | none =>
    obtain ⟨hbreaks, f, hf, hblames⟩ := hnone hv
    rw [hv] at hvalue
    have hsplit := hrest.trans (k.tokens_append rest)
    obtain ⟨d, n', hskip, hreaches, hmarked⟩ :=
      skipStatement_of_chunk k.plain hsplit (Notes.marked_clear _ _)
    have hskips : (do Grammar.skipStatement; return none : Parser (Option α)) c
        (Parser.resumeBefore Grammar.statementEnd
          (do let x ← p; return some x : Parser (Option α)) c n).notes.clear =
        .done none d n' := by
      rw [bind_of_done hskip]
      rfl
    rw [recoverBy_of_none hv hskips, hf, Production.broken_of_breaks (P := P)]
    · exact ⟨⟨⟨none, rfl, hvalue⟩, hreaches, .cons hblames .nil⟩, near_behind hreaches hmarked⟩
    · exact fun x hx ↦ hbreaks (some x) ⟨x, hx, rfl⟩

end Parser

end MasCheck
