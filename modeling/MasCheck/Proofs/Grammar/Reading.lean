import MasCheck.Proofs.Grammar.Acceptance
import MasCheck.Proofs.Grammar.Mending

/-!
# What parsers read

A parser that succeeds has read the tokens between its two cursors, with recovery or without. Here
it is told what these tokens have to do with the value. Where no recovery is needed they derive it.
A statement that is recovered from is worth the longest of its rests that derives a value, and
nothing if there is none; other recovery passes over tokens in front of a value.
-/

namespace MasCheck

namespace Production

variable {α : Type}

/-- No front part of the tokens is derived. -/
def Fails (P : Production α) (ts : List Lexeme) : Prop :=
  ∀ us x, us <+: ts → ¬ P us x

/-- Some tokens in front are passed over. -/
def resumed (P : Production α) : Production α := fun ts x ↦
  ∃ us vs, ts = us ++ vs ∧ P vs x

/-- What a statement is worth, broken or not. -/
def statement (P : Production α) : Production (Option α) := fun ts v ↦
  P.Mended ts v ∧ ts ≠ []

end Production

namespace Parser

variable {α β : Type} {p q : Parser α} {P Q : Production α} {F : List Lexeme → Prop}

/-- Where the parser succeeds, the tokens that it has read and its value are so related. -/
def Reads (p : Parser α) (P : Production α) : Prop :=
  ∀ ⦃c n x⦄, (p c n).value = some x → ∃ ts, c.Reaches ts (p c n).cursor ∧ P ts x

namespace Reads

theorem mono (h : Reads p P) (hPQ : ∀ ts x, P ts x → Q ts x) : Reads p Q := by
  intro c n x hx
  obtain ⟨ts, hts, hP⟩ := h hx
  exact ⟨ts, hts, hPQ ts x hP⟩

/-- A parser without recovery reads derivations. -/
theorem of_realizes (h : Realizes p P F) (hquiet : ∀ c n, (p c n).emitted = []) : Reads p P :=
  fun c n _ hx ↦ h.sound ⟨hx, rfl, hquiet c n⟩

protected theorem pure (x : α) : Reads (pure x) (pure x) := by
  intro c n y hy
  obtain rfl := Option.some.inj hy
  exact ⟨[], .refl c, rfl, rfl⟩

theorem token (atToken atEnd : Expectation) (f : Token → Option α) :
    Reads (token atToken atEnd f) (.token f) := by
  refine of_realizes (.token atToken atEnd f) fun c n ↦ ?_
  unfold Parser.token
  split
  · rfl
  · split <;> rfl

theorem exactly (t : Token) : Reads (exactly t) (.exactly t) := by
  intro c n x hx
  obtain ⟨ts, hts, l, rfl, hl⟩ := token (.token t) (.token t)
    (fun u ↦ if u = t then some () else none) hx
  obtain ⟨u, span⟩ := l
  refine ⟨[⟨u, span⟩], hts, span, ?_⟩
  dsimp only at hl
  split at hl
  · next h => rw [h]
  · cases hl

theorem keyword (word : Keyword) : Reads (keyword word) (.keyword word) :=
  exactly _

theorem sign (s : Sign) : Reads (sign s) (.sign s) :=
  exactly _

theorem endOfInput : Reads endOfInput (pure ()) := by
  intro c n x hx
  unfold Parser.endOfInput at hx ⊢
  split at hx
  · exact ⟨[], .refl c, rfl, rfl⟩
  · cases hx

protected theorem bind {f : α → Parser β} {G : α → Production β} (hp : Reads p P)
    (hf : ∀ x, Reads (f x) (G x)) : Reads (p >>= f) (P >>= G) := by
  intro c n y hy
  cases hx : (p c n).value with
  | none => cases (bind_of_none hx f).1.symm.trans hy
  | some x =>
    rw [bind_of_some hx] at hy ⊢
    obtain ⟨us, hus, hP⟩ := hp hx
    obtain ⟨vs, hvs, hG⟩ := hf x hy
    exact ⟨us ++ vs, hus.trans hvs, us, vs, x, rfl, hP, hG⟩

theorem map (hp : Reads p P) (g : α → β) : Reads (do let x ← p; return g x) (P.map g) :=
  Production.bind_pure_eq_map g P ▸ hp.bind fun x ↦ .pure (g x)

protected theorem or (hp : Reads p P) (hq : Reads q Q) : Reads (p.or q) (P.or Q) := by
  intro c n x hx
  cases hv : (p c n).value with
  | none =>
    rw [or_of_none hv] at hx ⊢
    obtain ⟨ts, hts, hQ⟩ := hq hx
    exact ⟨ts, hts, .inr hQ⟩
  | some y =>
    rw [or_of_some hv] at hx ⊢
    obtain ⟨ts, hts, hP⟩ := hp hx
    exact ⟨ts, hts, .inl hP⟩

protected theorem optional (hp : Reads p P) : Reads (optional p) P.optional := by
  intro c n x hx
  cases hv : (p c n).value with
  | none =>
    rw [optional_of_none hv] at hx ⊢
    obtain rfl := Option.some.inj hx
    exact ⟨[], .refl c, rfl⟩
  | some y =>
    rw [optional_of_some hv] at hx ⊢
    obtain ⟨z, hz, rfl⟩ := Option.map_eq_some_iff.1 hx
    exact hp hz

protected theorem many (hp : Reads p P) : Reads (many p) P.many := by
  intro c n xs hxs
  induction hk : c.rest.length using Nat.strongRecOn generalizing c n xs with
  | _ k ih =>
    rw [Parser.many] at hxs ⊢
    cases hv : (p c n).value with
    | none =>
      simp only [hv] at hxs ⊢
      obtain rfl := Option.some.inj hxs
      exact ⟨[], .refl c, .nil⟩
    | some x =>
      simp only [hv] at hxs ⊢
      split at hxs
      · next hlt =>
        obtain ⟨ys, hys, rfl⟩ := Option.map_eq_some_iff.1 hxs
        obtain ⟨us, hus, hP⟩ := hp hv
        obtain ⟨vs, hvs, hmany⟩ := ih _ (hk ▸ hlt) hys rfl
        rw [if_pos hlt]
        exact ⟨us ++ vs, hus.trans hvs, .cons hP hmany⟩
      · next hlt =>
        obtain rfl := Option.some.inj hxs
        rw [if_neg hlt]
        exact ⟨[], .refl c, .nil⟩

theorem atEnd (x : α) : Reads (do Parser.endOfInput; return x) (pure x) :=
  Production.map_pure (fun _ ↦ x) () ▸ endOfInput.map fun _ ↦ x

protected theorem between {opening closing : Sign} (hp : Reads p P) :
    Reads (between opening closing p) (.between opening closing P) :=
  (sign opening).bind fun _ ↦ hp.bind fun x ↦ (sign closing).bind fun _ ↦ .pure x

theorem located (hp : Reads p P) (hP : P.Solid) : Reads (located p) P.located := by
  intro c n y hy
  obtain ⟨x, hx, rfl⟩ := Option.map_eq_some_iff.1 hy
  obtain ⟨ts, hts, hPx⟩ := hp hx
  exact ⟨ts, hts, hPx, hts.spanTo_eq (hP ts x hPx)⟩

theorem labelledWith (hp : Reads p P) (label : Label) (isRule : Bool) :
    Reads (labelledWith label isRule p) P :=
  fun _ _ _ hx ↦ hp hx

theorem named (hp : Reads p P) (r : Rule) : Reads (named r p) P :=
  hp.labelledWith _ _

theorem rule (hp : Reads p P) (r : Rule) : Reads (rule r p) P :=
  hp.labelledWith _ _

/-- A parse with a tree has read all tokens and looked behind the last. -/
theorem of_parse {tokens : List Lexeme} {finish : Nat} {x : α} (h : Reads p P)
    (htree : (p.parse tokens finish).tree = some x) :
    P tokens x ∧ tokens.length < (p.parse tokens finish).reach := by
  rw [parse_eq] at htree ⊢
  unfold toEnd at htree ⊢
  cases hvalue : (p (.start tokens finish) .start).value with
  | none => cases (bind_of_none hvalue _).1.symm.trans htree
  | some y =>
    rw [bind_of_some hvalue] at htree ⊢
    obtain ⟨ts, hts, hP⟩ := h hvalue
    cases hrest : (p (.start tokens finish) .start).cursor.rest with
    | cons l ls =>
      have hend : ((do Parser.endOfInput; return y : Parser α) _ _).value = none :=
        (bind_of_none (endOfInput_of_cons hrest (p (.start tokens finish) .start).notes) _).1
      cases hend.symm.trans htree
    | nil =>
      obtain rfl : tokens = ts := (hrest ▸ hts.rest_eq).trans (List.append_nil ts)
      have hindex := hts.index_eq
      rw [bind_of_done (endOfInput_of_nil hrest _)] at htree ⊢
      obtain rfl : y = x := Option.some.inj htree
      refine ⟨hP, ?_⟩
      change _ < max _ _
      simp only [Cursor.start] at hindex ⊢
      omega

/-! ## Recovery -/

theorem recoverBy {skip : Parser α} (hp : Reads p P) (hskip : Reads skip Q) :
    Reads (recoverBy skip p) (P.or Q) := by
  intro c n x hx
  cases hv : (p c n).value with
  | some y =>
    rw [recoverBy_of_some skip hv] at hx ⊢
    obtain ⟨ts, hts, hP⟩ := hp hx
    exact ⟨ts, hts, .inl hP⟩
  | none =>
    unfold Parser.recoverBy at hx ⊢
    simp only [hv] at hx ⊢
    split at hx
    · obtain ⟨ts, hts, hQ⟩ := hskip hx
      exact ⟨ts, hts, .inr hQ⟩
    · cases hx

theorem searchBefore {stop : Parser Unit} {held : Option Pending} (hp : Reads p P) :
    Reads (searchBefore stop p held) P.resumed := by
  intro c n x hx
  fun_induction Parser.searchBefore stop p held c n with
  | case1 => cases hx
  | case2 => cases hx
  | case3 c n s hs notes l ls hrest a hgood =>
    obtain ⟨ts, hts, hP⟩ := hp hx
    exact ⟨l :: ts, .step hrest hts, [l], ts, rfl, hP⟩
  | case4 c n s hs notes l ls hrest a hbad ih =>
    obtain ⟨ts, hts, us, vs, rfl, hP⟩ := ih hx
    exact ⟨l :: (us ++ vs), .step hrest hts, l :: us, vs, rfl, hP⟩

theorem resumeBefore (stop : Parser Unit) (hp : Reads p P) :
    Reads (resumeBefore stop p) P.resumed := by
  intro c n x hx
  cases hv : (p c n).value with
  | some y =>
    rw [resumeBefore_of_some stop hv] at hx ⊢
    obtain ⟨ts, hts, hP⟩ := hp hx
    exact ⟨ts, hts, [], ts, rfl, hP⟩
  | none =>
    rw [resumeBefore_of_none stop hv] at hx ⊢
    exact hp.searchBefore hx

/-- A token is passed over only if it does not stop the passing over. -/
theorem tokenBefore {stop : Parser Unit} (passes : Lexeme → Prop)
    (hstop : ∀ l ls, ¬ passes l → stop.Admits (l :: ls)) :
    Reads (tokenBefore stop) fun ts _ ↦ ∃ l, ts = [l] ∧ passes l := by
  intro c n t ht
  unfold Parser.tokenBefore at ht ⊢
  cases hrest : c.rest with
  | nil =>
    have hnone := refuses_token_nil .anyToken .anyToken (some : Token → Option Token) c n hrest
    simp only [hnone] at ht
    cases ht
  | cons l ls =>
    rw [token_of_some hrest rfl] at ht ⊢
    simp only [Outcome.done] at ht ⊢
    split at ht
    · next hnone =>
      refine ⟨[l], .single hrest, l, rfl, Classical.byContradiction fun hpasses ↦ ?_⟩
      have hadmits := hstop l ls hpasses c (n.look c.index).clear hrest
      rw [hnone] at hadmits
      cases hadmits
    · cases ht

end Reads

/-! ## Statements -/

/-- The token does not end a statement. -/
def Continues (l : Lexeme) : Prop :=
  l.token ≠ .sign .dot ∧ l.token ≠ .sign .rightBrace

theorem admits_statementEnd_of_not_continues {l : Lexeme} (h : ¬ Continues l) (ls : List Lexeme) :
    Grammar.statementEnd.Admits (l :: ls) := by
  by_cases hbrace : l.token = .sign .rightBrace
  · exact admits_statementEnd hbrace
  · obtain ⟨t, a⟩ := l
    obtain rfl : t = .sign .dot := Classical.byContradiction fun hdot ↦ h ⟨hdot, hbrace⟩
    exact admits_statementEnd_of_dot a ls

theorem continues_of_many {ts : List Lexeme} {xs : List Token}
    (h : Production.Many (fun us _ ↦ ∃ l, us = [l] ∧ Continues l) ts xs) :
    ∀ l ∈ ts, Continues l := by
  induction h with
  | nil => nofun
  | cons hx _ ih =>
    obtain ⟨l, rfl, hl⟩ := hx
    intro k hk
    rcases List.mem_cons.1 hk with rfl | hk
    · exact hl
    · exact ih k hk

/-- A skipped statement is something, and only its last token may end it. -/
theorem reads_skipStatement : Reads Grammar.skipStatement fun ts _ ↦
    ts ≠ [] ∧ ∃ us vs, ts = us ++ vs ∧ vs.length ≤ 1 ∧ ∀ l ∈ us, Continues l := by
  have htoken : Reads (tokenBefore Grammar.statementEnd) fun us _ ↦ ∃ l, us = [l] ∧ Continues l :=
    .tokenBefore Continues fun _ ls h ↦ admits_statementEnd_of_not_continues h ls
  have hskip : Reads Grammar.skipStatement _ :=
    (htoken.many.bind fun _ ↦ .sign .dot).or
      ((htoken.bind fun x ↦ htoken.many.bind fun xs ↦ .pure (x :: xs)).bind fun _ ↦ .pure ())
  refine hskip.mono fun ts u h ↦ ?_
  rcases h with ⟨us, vs, xs, rfl, hus, span, rfl⟩ | ⟨us, vs, xs, rfl, hus, rfl, -⟩
  · exact ⟨by simp, us, _, rfl, Nat.le_refl 1, continues_of_many hus⟩
  · obtain ⟨ws, zs, t, rfl, ⟨l, rfl, hl⟩, ps, qs, ts, rfl, hps, rfl, -⟩ := hus
    refine ⟨by simp, l :: ps, [], by simp, Nat.zero_le 1, fun k hk ↦ ?_⟩
    rcases List.mem_cons.1 hk with rfl | hk
    · exact hl
    · exact continues_of_many hps k hk

section

variable {c : Cursor} {n : Notes} {x : α}

/-- Where a parser without recovery fails, nothing is derived. -/
theorem Realizes.fails_of_value (hp : Realizes p P anywhere) (hx : (p c n).value = none) :
    P.Fails c.rest := by
  rintro us x ⟨vs, hrest⟩ hP
  obtain ⟨d, hd, -⟩ := Cursor.Reaches.of_rest hrest.symm
  cases hx.symm.trans (hp.complete (n := n) hd hP trivial).value

/-- The search finds the first place behind which something is derived, up to the end of the
statement. -/
theorem Realizes.search_reads (hp : Realizes p P anywhere) (hquiet : ∀ c n, (p c n).emitted = [])
    (held : Option Pending) (hfirst : P.Fails c.rest) :
    (∀ x, (Parser.searchBefore Grammar.statementEnd p held c n).value = some x →
      ∃ us vs, c.Reaches (us ++ vs) (Parser.searchBefore Grammar.statementEnd p held c n).cursor ∧
        P vs x ∧ ∀ ps qs, c.rest = ps ++ qs → ps.length < us.length → P.Fails qs) ∧
    ((Parser.searchBefore Grammar.statementEnd p held c n).value = none →
      ∀ ps qs, c.rest = ps ++ qs → (∀ l ∈ ps, Continues l) → P.Fails qs) := by
  fun_induction Parser.searchBefore Grammar.statementEnd p held c n with
  | case1 c n s u hs =>
    refine ⟨fun x hx ↦ absurd hx.symm (Option.some_ne_none x), fun _ ps qs hrest hps ↦ ?_⟩
    cases ps with
    | nil => rwa [hrest, List.nil_append] at hfirst
    | cons l ps =>
      obtain ⟨hdot, hbrace⟩ := hps l List.mem_cons_self
      cases (statementEnd_of_other hrest hdot hbrace n).symm.trans hs
  | case2 c n s hs notes hrest =>
    refine ⟨fun x hx ↦ absurd hx.symm (Option.some_ne_none x), fun _ ps qs hsplit _ ↦ ?_⟩
    obtain ⟨rfl, rfl⟩ := List.append_eq_nil_iff.1 (hsplit.symm.trans hrest)
    exact hrest ▸ hfirst
  | case3 c n s hs notes l ls hrest a hgood =>
    refine ⟨fun x hx ↦ ?_, fun hnone ↦ ?_⟩
    · obtain ⟨vs, hvs, hP⟩ := hp.sound ⟨hx, rfl, hquiet _ _⟩
      refine ⟨[l], vs, .step hrest hvs, hP, fun ps qs hsplit hlength ↦ ?_⟩
      obtain rfl := List.length_eq_zero_iff.1 (Nat.lt_one_iff.1 hlength)
      rwa [hsplit, List.nil_append] at hfirst
    · obtain ⟨x, hx⟩ := Option.isSome_iff_exists.1 (Bool.and_eq_true_iff.1 hgood).1
      cases hx.symm.trans hnone
  | case4 c n s hs notes l ls hrest a hbad ih =>
    have hnone : a.value = none := by
      cases hx : a.value with
      | none => rfl
      | some x =>
        have hemitted : a.emitted = [] := hquiet _ _
        exact absurd (by simp [hx, hemitted]) hbad
    obtain ⟨hsome, hfails⟩ := ih (hp.fails_of_value hnone)
    -- In front of the first token nothing is derived, and behind it the search goes on.
    refine ⟨fun x hx ↦ ?_, fun hvalue ps qs hsplit hps ↦ ?_⟩
    · obtain ⟨us, vs, hreaches, hP, hbefore⟩ := hsome x hx
      refine ⟨l :: us, vs, .step hrest hreaches, hP, fun ps qs hsplit hlength ↦ ?_⟩
      cases ps with
      | nil => rwa [hsplit, List.nil_append] at hfirst
      | cons k ps =>
        obtain ⟨rfl, hls⟩ := List.cons.inj (hrest.symm.trans hsplit)
        exact hbefore ps qs hls (Nat.lt_of_succ_lt_succ hlength)
    · cases ps with
      | nil => rwa [hsplit, List.nil_append] at hfirst
      | cons k ps =>
        obtain ⟨rfl, hls⟩ := List.cons.inj (hrest.symm.trans hsplit)
        exact hfails hvalue ps qs hls fun j hj ↦ hps j (List.mem_cons_of_mem _ hj)

/-- A value found behind the first place at which one can be found is that of the longest rest. -/
theorem mended_of_fails {us vs rest tokens : List Lexeme} (htokens : tokens = us ++ vs ++ rest)
    (hP : P vs x) (hfails : ∀ ps qs, tokens = ps ++ qs → ps.length < us.length → P.Fails qs) :
    P.Mended (us ++ vs) (some x) := by
  cases us with
  | nil => exact .whole hP
  | cons l us =>
    have hshorter : vs.length < (l :: us ++ vs).length := by
      rw [List.length_append, List.length_cons]
      omega
    refine .rest (List.suffix_append _ _) hshorter hP fun ws y hws hy ↦ ?_
    obtain ⟨ps, hps⟩ := hws
    refine Nat.le_of_not_lt fun hlonger ↦ ?_
    have hlength := congrArg List.length hps
    rw [List.length_append, List.length_append] at hlength
    have hsplit : tokens = ps ++ (ws ++ rest) := by
      rw [htokens, ← hps, List.append_assoc]
    exact hfails ps _ hsplit (by omega) ws y (List.prefix_append ws rest) hy

/-- If nothing can be found up to the end of a statement, no rest of it has a value. -/
theorem mended_none_of_fails (hsolid : P.Solid) {us vs rest tokens : List Lexeme}
    (htokens : tokens = us ++ vs ++ rest) (hvs : vs.length ≤ 1)
    (hfails : ∀ ps qs, tokens = ps ++ qs → ps <+: us → P.Fails qs) :
    P.Mended (us ++ vs) none := by
  refine .nothing fun ws y hws hy ↦ ?_
  obtain ⟨ps, hps⟩ := hws
  have hpositive := List.length_pos_iff.2 (hsolid ws y hy)
  have hlength := congrArg List.length hps
  rw [List.length_append, List.length_append] at hlength
  have hfront : ps <+: us := List.prefix_of_prefix_length_le ⟨ws, hps⟩
    (List.prefix_append us vs) (by omega)
  have hsplit : tokens = ps ++ (ws ++ rest) := by
    rw [htokens, ← hps, List.append_assoc]
  exact hfails ps _ hsplit hfront ws y (List.prefix_append ws rest) hy

theorem Realizes.resume_reads (hp : Realizes p P anywhere) (hquiet : ∀ c n, (p c n).emitted = [])
    (c : Cursor) (n : Notes) :
    (∀ x, (Parser.resumeBefore Grammar.statementEnd p c n).value = some x →
      ∃ ts, c.Reaches ts (Parser.resumeBefore Grammar.statementEnd p c n).cursor ∧
        P.Mended ts (some x) ∧ ∃ vs, vs <:+ ts ∧ P vs x) ∧
    ((Parser.resumeBefore Grammar.statementEnd p c n).value = none →
      ∀ ps qs, c.rest = ps ++ qs → (∀ l ∈ ps, Continues l) → P.Fails qs) := by
  cases hv : (p c n).value with
  | some x =>
    rw [resumeBefore_of_some _ hv, hv]
    refine ⟨fun y hy ↦ ?_, nofun⟩
    obtain rfl := Option.some.inj hy
    obtain ⟨ts, hts, hP⟩ := hp.sound ⟨hv, rfl, hquiet c n⟩
    exact ⟨ts, hts, .whole hP, ts, List.suffix_rfl, hP⟩
  | none =>
    rw [resumeBefore_of_none _ hv]
    obtain ⟨hsome, hnone⟩ := hp.search_reads hquiet (n := (p c n).notes.clear)
      (p c n).notes.pending (hp.fails_of_value hv)
    refine ⟨fun x hx ↦ ?_, hnone⟩
    obtain ⟨us, vs, hreaches, hP, hfails⟩ := hsome x hx
    have hmended := mended_of_fails hreaches.rest_eq hP hfails
    exact ⟨us ++ vs, hreaches, hmended, vs, List.suffix_append us vs, hP⟩

/-- Wherever it stands, a statement is worth what its tokens are. -/
theorem Realizes.reads_statement (hp : Realizes p P anywhere) (hconf : Confined .whole p)
    (hsolid : P.Solid) : Reads (Grammar.statement p) P.statement := by
  have hp' : Realizes (do let x ← p; return some x) (P.map some) anywhere := hp.map some
  have hsolid' : (P.map some).Solid := hsolid.map some
  intro c n v hvalue
  obtain ⟨hsome, hnone⟩ := hp'.resume_reads (hconf.andReturn some).quiet c n
  unfold Grammar.statement at hvalue ⊢
  cases hv : (Parser.resumeBefore Grammar.statementEnd
      (do let x ← p; return some x : Parser (Option α)) c n).value with
  | some w =>
    rw [recoverBy_of_some _ hv] at hvalue ⊢
    obtain ⟨ts, hts, hmended, vs, hsuffix, hP⟩ := hsome v hvalue
    refine ⟨ts, hts, hmended.of_map_some, ?_⟩
    rintro rfl
    exact hsolid' vs v hP (List.suffix_nil.1 hsuffix)
  | none =>
    have hskip : Reads (do Grammar.skipStatement; return none : Parser (Option α)) _ :=
      reads_skipStatement.bind fun _ ↦ .pure none
    unfold Parser.recoverBy at hvalue ⊢
    simp only [hv] at hvalue ⊢
    split at hvalue
    · next w hw =>
      obtain ⟨_, hts, ts, _, u, rfl, ⟨hne, us, vs, rfl, hvs, hus⟩, rfl, rfl⟩ := hskip hvalue
      rw [List.append_nil] at hts
      refine ⟨us ++ vs, hts, ?_, hne⟩
      refine (mended_none_of_fails hsolid' hts.rest_eq hvs fun ps qs hsplit hps ↦ ?_).of_map_some
      exact hnone hv ps qs hsplit fun l hl ↦ hus l (hps.subset hl)
    · cases hvalue

end

end Parser

end MasCheck
