import MasCheck.Proofs.Grammar.CleanRun
import MasCheck.Proofs.Grammar.Looking

/-!
# Parsers confined to a statement

The parser of a statement, and the parsers of its parts, need no recovery, read a dot only where
the statement ends, and blame no token behind that dot. So the failure of a broken statement is
about one of its own tokens, whatever stands in front of the statement or behind it.

What a failure is about is its mark. Marks move with the cursor: after a part of a statement has
been read, the marks left behind are of tokens in front of the cursor or of tokens up to the next
dot.
-/

namespace MasCheck

/-! ## Tokens in front of a dot -/

def Dotless (ts : List Lexeme) : Prop :=
  ∀ l ∈ ts, l.token ≠ .sign .dot

theorem Dotless.nil : Dotless [] :=
  nofun

theorem Dotless.append {us vs : List Lexeme} (hus : Dotless us) (hvs : Dotless vs) :
    Dotless (us ++ vs) :=
  fun l hl ↦ (List.mem_append.1 hl).elim (hus l) (hvs l)

theorem dotless_singleton {l : Lexeme} : Dotless [l] ↔ l.token ≠ .sign .dot := by
  simp [Dotless]

/-- The dot of a list of tokens is found in one place only. -/
theorem Dotless.append_dot_inj {us vs us' vs' : List Lexeme} {a a' : Span} (hus : Dotless us)
    (hus' : Dotless us') (h : us ++ ⟨.sign .dot, a⟩ :: vs = us' ++ ⟨.sign .dot, a'⟩ :: vs') :
    us = us' ∧ a = a' ∧ vs = vs' := by
  induction us generalizing us' with
  | nil =>
    cases us' with
    | nil =>
      obtain ⟨hdot, rfl⟩ := List.cons.inj h
      exact ⟨rfl, congrArg Lexeme.span hdot, rfl⟩
    | cons l us' =>
      obtain ⟨rfl, -⟩ := List.cons.inj h
      exact absurd rfl (hus' _ List.mem_cons_self)
  | cons l us ih =>
    cases us' with
    | nil =>
      obtain ⟨rfl, -⟩ := List.cons.inj h
      exact absurd rfl (hus _ List.mem_cons_self)
    | cons l' us' =>
      obtain ⟨rfl, htail⟩ := List.cons.inj h
      have hrest : Dotless us := fun k hk ↦ hus k (List.mem_cons_of_mem _ hk)
      have hrest' : Dotless us' := fun k hk ↦ hus' k (List.mem_cons_of_mem _ hk)
      obtain ⟨rfl, rfl, rfl⟩ := ih hrest hrest' htail
      exact ⟨rfl, rfl, rfl⟩

/-- How far a parser reads: within a statement, or up to the dot at its end. -/
inductive Extent
  | part
  | whole

/-- The lists of tokens that a parser of this extent reads. -/
def Extent.Fits : Extent → List Lexeme → Prop
  | part, ts => Dotless ts
  | whole, ts => ∃ us a, Dotless us ∧ ts = us ++ [⟨.sign .dot, a⟩]

theorem Extent.Fits.append {e : Extent} {us vs : List Lexeme} (hus : Dotless us)
    (hvs : e.Fits vs) : e.Fits (us ++ vs) := by
  cases e with
  | part => exact hus.append hvs
  | whole =>
    obtain ⟨ws, a, hws, rfl⟩ := hvs
    exact ⟨us ++ ws, a, hus.append hws, (List.append_assoc _ _ _).symm⟩

/-! ## Marks -/

/-- What a failure is about: a token, by its number and its place. -/
structure Mark where
  index : Nat
  span : Span

def Cursor.mark (c : Cursor) : Mark :=
  ⟨c.index, c.nextSpan⟩

def Pending.mark (p : Pending) : Mark :=
  ⟨p.index, p.failure.span⟩

/-- The second cursor is reached before a dot is read. -/
def Cursor.Overlooks (c d : Cursor) : Prop :=
  ∃ ts, Dotless ts ∧ c.Reaches ts d

/-- The mark is in front of the cursor, or not behind the next dot. -/
def Cursor.Near (c : Cursor) (m : Mark) : Prop :=
  m.index < c.index ∨ ∃ d, c.Overlooks d ∧ m = d.mark

def Notes.Marked (S : Mark → Prop) (n : Notes) : Prop :=
  ∀ p, n.pending = some p → S p.mark

namespace Cursor

variable {c d e : Cursor} {ts us vs : List Lexeme}

theorem Overlooks.refl (c : Cursor) : c.Overlooks c :=
  ⟨[], .nil, .refl c⟩

theorem Overlooks.trans (h : c.Overlooks d) (h' : d.Overlooks e) : c.Overlooks e := by
  obtain ⟨us, hus, hd⟩ := h
  obtain ⟨vs, hvs, he⟩ := h'
  exact ⟨us ++ vs, hus.append hvs, hd.trans he⟩

theorem Overlooks.index_le (h : c.Overlooks d) : c.index ≤ d.index := by
  obtain ⟨ts, -, hd⟩ := h
  rw [hd.index_eq]
  omega

/-- The same tokens lead to the same cursor. -/
theorem Reaches.unique (hd : c.Reaches ts d) (he : c.Reaches ts e) : d = e := by
  induction hd with
  | refl c => exact he.eq_of_nil.symm
  | step hrest _ ih =>
    cases he with
    | step hrest' he =>
      obtain ⟨-, rfl⟩ := List.cons.inj (hrest.symm.trans hrest')
      exact ih he

/-- Of two cursors that are reached, the one further on is reached from the other. -/
theorem Reaches.cancel (hd : c.Reaches us d) (he : c.Reaches vs e) (hle : d.index ≤ e.index) :
    ∃ ws, vs = us ++ ws ∧ d.Reaches ws e := by
  have hlength : us.length ≤ vs.length := by
    rw [hd.index_eq, he.index_eq] at hle
    omega
  have hprefix : us <+: vs := by
    have hus : us <+: c.rest := ⟨d.rest, hd.rest_eq.symm⟩
    have hvs : vs <+: c.rest := ⟨e.rest, he.rest_eq.symm⟩
    exact List.prefix_of_prefix_length_le hus hvs hlength
  obtain ⟨ws, rfl⟩ := hprefix
  obtain ⟨d', hd', hws⟩ := he.split
  obtain rfl := hd.unique hd'
  exact ⟨ws, rfl, hws⟩

theorem Near.forward {m : Mark} (h : c.Near m) (hd : c.Overlooks d) : d.Near m := by
  rcases h with hbefore | ⟨e, ⟨vs, hvs, he⟩, rfl⟩
  · have hle := hd.index_le
    exact .inl (by omega)
  · by_cases hle : d.index ≤ e.index
    · obtain ⟨us, -, hd⟩ := hd
      obtain ⟨ws, rfl, hws⟩ := hd.cancel he hle
      exact .inr ⟨e, ⟨ws, fun l hl ↦ hvs l (List.mem_append_right us hl), hws⟩, rfl⟩
    · exact .inl (Nat.lt_of_not_le hle)

end Cursor

namespace Notes

variable {S T : Mark → Prop} {n : Notes} {p : Pending}

theorem Marked.mono (h : n.Marked S) (hST : ∀ m, S m → T m) : n.Marked T :=
  fun p hp ↦ hST _ (h p hp)

theorem marked_clear (S : Mark → Prop) (n : Notes) : n.clear.Marked S :=
  nofun

/-- The mark of the further failure is kept, and that of the older one at the same token. -/
theorem mark_add (p : Pending) (old : Pending) :
    (p.add (some old)).mark = p.mark ∨ (p.add (some old)).mark = old.mark := by
  unfold Pending.add
  dsimp only
  split
  · exact .inr rfl
  · split
    · exact .inl rfl
    · exact .inr rfl

theorem mark_merge (p : Pending) (old : Pending) :
    (p.merge (some old)).mark = p.mark ∨ (p.merge (some old)).mark = old.mark := by
  unfold Pending.merge
  dsimp only
  split
  · exact .inr rfl
  · split
    · exact .inl rfl
    · exact .inr rfl

theorem mark_relabel (p : Pending) (start : Nat) (label : Label) (isRule : Bool) :
    (p.relabel start label isRule).mark = p.mark := by
  unfold Pending.relabel Failure.within
  split
  · rfl
  · split
    · split <;> rfl
    · rfl

theorem Marked.add (h : n.Marked S) (hp : S p.mark) : (n.add p).Marked S := by
  intro q hq
  obtain rfl := Option.some.inj hq
  cases hold : n.pending with
  | none => exact hp
  | some old =>
    rcases mark_add p old with hmark | hmark
    · rwa [hmark]
    · rw [hmark]
      exact h old hold

theorem index_le_add (p : Pending) (old : Option Pending) : p.index ≤ (p.add old).index := by
  cases old with
  | none => exact Nat.le_refl _
  | some old =>
    unfold Pending.add
    dsimp only
    split
    · next h => exact Nat.le_of_eq h.symm
    · split
      · exact Nat.le_refl _
      · omega

theorem index_le_merge (p : Pending) (old : Option Pending) : p.index ≤ (p.merge old).index := by
  cases old with
  | none => exact Nat.le_refl _
  | some old =>
    unfold Pending.merge
    dsimp only
    split
    · next h => exact Nat.le_of_eq h.symm
    · split
      · exact Nat.le_refl _
      · omega

end Notes

/-! ## Confined parsers -/

namespace Parser

variable {α β : Type} {p q : Parser α} {e : Extent}

/-- Looking at a token leaves no mark but of this token. -/
theorem marked_token (atToken atEnd : Expectation) (f : Token → Option α) {c : Cursor} {n : Notes}
    {S : Mark → Prop} (hn : n.Marked S) (hc : S c.mark) :
    (token atToken atEnd f c n).notes.Marked S := by
  unfold token
  split
  · exact Notes.Marked.add hn hc
  · split
    · exact hn
    · exact Notes.Marked.add hn hc

/-- A label leaves the marks as they are. -/
theorem marked_labelledWith (label : Label) (isRule : Bool) {c : Cursor} {n : Notes}
    {S : Mark → Prop} (hn : n.Marked S) (hinner : (p c n.clear).notes.Marked S) :
    (labelledWith label isRule p c n).notes.Marked S := by
  intro f hf
  unfold labelledWith at hf
  dsimp only [Notes.withPending] at hf
  cases hnew : (p c n.clear).notes.pending with
  | none =>
    rw [hnew] at hf
    exact hn f hf
  | some new =>
    rw [hnew] at hf
    obtain rfl := Option.some.inj hf
    have hmark : S (new.relabel c.index label isRule).mark := by
      rw [Notes.mark_relabel]
      exact hinner new hnew
    cases hold : n.pending with
    | none => exact hmark
    | some old =>
      rcases Notes.mark_merge (new.relabel c.index label isRule) old with h | h
      · rwa [h]
      · rw [h]
        exact hn old hold

/-- The parser runs without recovery, forgets no token that was looked at, reads tokens of its
extent, and leaves no marks but of tokens up to the next dot. When it fails, the pending failure is
not in front of the cursor. -/
structure Confined (e : Extent) (p : Parser α) : Prop where
  keepsReach : KeepsReach p
  quiet : ∀ c n, (p c n).emitted = []
  takes : ∀ {c n x}, (p c n).value = some x → ∃ ts, e.Fits ts ∧ c.Reaches ts (p c n).cursor
  marks : ∀ {c n} {S : Mark → Prop}, n.Marked S → (∀ d, c.Overlooks d → S d.mark) →
    (p c n).notes.Marked S
  blames : ∀ {c n}, (p c n).value = none →
    ∃ f, (p c n).notes.pending = some f ∧ c.index ≤ f.index

/-- The notes after an attempt are as near as before it. -/
theorem Confined.near (h : Confined e p) {c : Cursor} {n : Notes} (hn : n.Marked c.Near) :
    (p c n).notes.Marked c.Near :=
  h.marks hn fun d hd ↦ .inr ⟨d, hd, rfl⟩

namespace Confined

theorem overlooks (h : Confined .part p) {c : Cursor} {n : Notes} {x : α}
    (hx : (p c n).value = some x) : c.Overlooks (p c n).cursor := by
  obtain ⟨ts, hts, hd⟩ := h.takes hx
  exact ⟨ts, hts, hd⟩

/-- After a part of a statement has been read, the notes are near the new cursor. -/
theorem near_after (h : Confined .part p) {c : Cursor} {n : Notes} {x : α}
    (hn : n.Marked c.Near) (hx : (p c n).value = some x) :
    (p c n).notes.Marked (p c n).cursor.Near :=
  (h.near hn).mono fun _ hm ↦ hm.forward (h.overlooks hx)

protected theorem pure (x : α) : Confined .part (pure x) where
  keepsReach := .pure x
  quiet := fun _ _ ↦ rfl
  takes := fun {c _ _} _ ↦ ⟨[], .nil, .refl c⟩
  marks := fun hn _ ↦ hn
  blames := nofun

theorem of_token {atToken atEnd : Expectation} {f : Token → Option α}
    (h : ∀ l : Lexeme, (f l.token).isSome → e.Fits [l]) :
    Confined e (Parser.token atToken atEnd f) where
  keepsReach := .token atToken atEnd f
  quiet := by
    intro c n
    unfold Parser.token
    split
    · rfl
    · split <;> rfl
  takes := by
    intro c n x hx
    cases hrest : c.rest with
    | nil => cases (refuses_token_nil atToken atEnd f c n hrest).symm.trans hx
    | cons l ls =>
      cases hy : f l.token with
      | none => cases (refuses_token_cons atToken atEnd hy c n hrest).symm.trans hx
      | some y =>
        rw [token_of_some hrest hy]
        exact ⟨[l], h l (by rw [hy]; rfl), .single hrest⟩
  marks := fun {c _ _} hn hS ↦ marked_token _ _ _ hn (hS c (.refl c))
  blames := by
    intro c n hnone
    unfold Parser.token at hnone ⊢
    split
    · exact ⟨_, rfl, Notes.index_le_add (c.failure atEnd) _⟩
    · next l ls hrest =>
      split
      · next y hy =>
        simp only [hrest, hy] at hnone
        cases hnone
      · exact ⟨_, rfl, Notes.index_le_add (c.failure atToken) _⟩

/-- A token that is no dot. -/
theorem token {atToken atEnd : Expectation} {f : Token → Option α}
    (h : f (.sign .dot) = none) : Confined .part (Parser.token atToken atEnd f) := by
  refine of_token fun l hl ↦ dotless_singleton.2 fun hdot ↦ ?_
  rw [hdot, h] at hl
  cases hl

theorem select {f : Token → Option α} (h : f (.sign .dot) = none) :
    Confined .part (Parser.select f) :=
  token h

theorem exactly {t : Token} (h : t ≠ .sign .dot) : Confined .part (Parser.exactly t) :=
  token (if_neg h.symm)

theorem keyword (word : Keyword) : Confined .part (Parser.keyword word) :=
  exactly nofun

theorem sign {s : Sign} (h : s ≠ .dot) : Confined .part (Parser.sign s) :=
  exactly fun hs ↦ h (Token.sign.inj hs)

theorem dot : Confined .whole (Parser.sign .dot) := by
  have hfits : ∀ l : Lexeme, (if l.token = .sign .dot then some () else none).isSome = true →
      Extent.whole.Fits [l] := by
    intro l hl
    have hdot : l.token = .sign .dot := by
      refine Decidable.byContradiction fun hother ↦ ?_
      rw [if_neg hother] at hl
      cases hl
    refine ⟨[], l.span, .nil, ?_⟩
    rw [← hdot, List.nil_append]
  exact of_token (f := fun u ↦ if u = .sign .dot then some () else none) hfits

/-! ### Sequences and alternatives -/

theorem andThen {f : α → Parser β} (hp : Confined .part p) (hf : ∀ x, Confined e (f x)) :
    Confined e (p >>= f) where
  keepsReach := hp.keepsReach.bind fun x ↦ (hf x).keepsReach
  quiet := by
    intro c n
    cases hx : (p c n).value with
    | none =>
      rw [bind_eq_of_none hx]
      exact hp.quiet c n
    | some x =>
      rw [bind_of_some hx]
      exact List.append_eq_nil_iff.2 ⟨hp.quiet c n, (hf x).quiet _ _⟩
  takes := by
    intro c n y hy
    cases hx : (p c n).value with
    | none => cases (bind_of_none hx f).1.symm.trans hy
    | some x =>
      rw [bind_of_some hx] at hy ⊢
      obtain ⟨us, hus, hd⟩ := hp.takes hx
      obtain ⟨vs, hvs, hend⟩ := (hf x).takes hy
      exact ⟨us ++ vs, .append hus hvs, hd.trans hend⟩
  marks := by
    intro c n S hn hS
    have hfirst : (p c n).notes.Marked S := hp.marks hn hS
    cases hx : (p c n).value with
    | none =>
      rw [Notes.Marked, (bind_of_none hx f).2]
      exact hfirst
    | some x =>
      rw [bind_of_some hx]
      exact (hf x).marks hfirst fun d hd ↦ hS d ((hp.overlooks hx).trans hd)
  blames := by
    intro c n hnone
    cases hx : (p c n).value with
    | none =>
      rw [(bind_of_none hx f).2]
      exact hp.blames hx
    | some x =>
      rw [bind_of_some hx] at hnone ⊢
      obtain ⟨g, hg, hle⟩ := (hf x).blames hnone
      exact ⟨g, hg, Nat.le_trans (hp.overlooks hx).index_le hle⟩

theorem andReturn (hp : Confined e p) (g : α → β) :
    Confined e (do let x ← p; return g x) where
  keepsReach := hp.keepsReach.bind fun x ↦ .pure (g x)
  quiet := by
    intro c n
    cases hx : (p c n).value with
    | none =>
      rw [bind_eq_of_none hx]
      exact hp.quiet c n
    | some x =>
      rw [bind_of_some hx]
      exact List.append_eq_nil_iff.2 ⟨hp.quiet c n, rfl⟩
  takes := by
    intro c n y hy
    cases hx : (p c n).value with
    | none => cases (bind_of_none hx _).1.symm.trans hy
    | some x =>
      rw [bind_of_some hx]
      exact hp.takes hx
  marks := by
    intro c n S hn hS
    cases hx : (p c n).value with
    | none =>
      rw [Notes.Marked, (bind_of_none hx _).2]
      exact hp.marks hn hS
    | some x =>
      rw [bind_of_some hx]
      exact hp.marks hn hS
  blames := by
    intro c n hnone
    cases hx : (p c n).value with
    | none =>
      rw [(bind_of_none hx _).2]
      exact hp.blames hx
    | some x =>
      rw [bind_of_some hx] at hnone
      cases hnone

protected theorem or (hp : Confined e p) (hq : Confined e q) : Confined e (p.or q) where
  keepsReach := hp.keepsReach.or hq.keepsReach
  quiet := by
    intro c n
    cases hx : (p c n).value with
    | none =>
      rw [or_of_none hx]
      exact hq.quiet c _
    | some x =>
      rw [or_of_some hx]
      exact hp.quiet c n
  takes := by
    intro c n y hy
    cases hx : (p c n).value with
    | none =>
      rw [or_of_none hx] at hy ⊢
      exact hq.takes hy
    | some x =>
      rw [or_of_some hx]
      exact hp.takes hx
  marks := by
    intro c n S hn hS
    have hfirst : (p c n).notes.Marked S := hp.marks hn hS
    cases hx : (p c n).value with
    | none =>
      rw [or_of_none hx]
      exact hq.marks hfirst hS
    | some x =>
      rw [or_of_some hx]
      exact hfirst
  blames := by
    intro c n hnone
    cases hx : (p c n).value with
    | none =>
      rw [or_of_none hx] at hnone ⊢
      exact hq.blames hnone
    | some x =>
      rw [or_of_some hx, hx] at hnone
      cases hnone

protected theorem optional (hp : Confined .part p) : Confined .part (Parser.optional p) where
  keepsReach := hp.keepsReach.optional
  quiet := by
    intro c n
    cases hx : (p c n).value with
    | none =>
      rw [optional_of_none hx]
      rfl
    | some x =>
      rw [optional_of_some hx]
      exact hp.quiet c n
  takes := by
    intro c n y hy
    cases hx : (p c n).value with
    | none =>
      rw [optional_of_none hx]
      exact ⟨[], .nil, .refl c⟩
    | some x =>
      rw [optional_of_some hx]
      exact hp.takes hx
  marks := by
    intro c n S hn hS
    cases hx : (p c n).value with
    | none =>
      rw [optional_of_none hx]
      exact hp.marks hn hS
    | some x =>
      rw [optional_of_some hx]
      exact hp.marks hn hS
  blames := by
    intro c n hnone
    cases hx : (p c n).value with
    | none =>
      rw [optional_of_none hx] at hnone
      cases hnone
    | some x =>
      rw [optional_of_some hx] at hnone
      cases (congrArg (Option.map some) hx).symm.trans hnone

/-! ### Repetitions -/

theorem confines_many (hp : Confined .part p) (c : Cursor) (n : Notes) :
    (Parser.many p c n).emitted = [] ∧ c.Overlooks (Parser.many p c n).cursor ∧
      ∀ S : Mark → Prop, n.Marked S → (∀ d, c.Overlooks d → S d.mark) →
        (Parser.many p c n).notes.Marked S := by
  induction hk : c.rest.length using Nat.strongRecOn generalizing c n with
  | _ k ih =>
    rw [Parser.many]
    cases hx : (p c n).value with
    | none => exact ⟨rfl, .refl c, fun S hn hS ↦ hp.marks hn hS⟩
    | some x =>
      dsimp only
      split
      · next hlt =>
        have hover := hp.overlooks hx
        obtain ⟨hemitted, hcursor, hnotes⟩ := ih _ (hk ▸ hlt) (p c n).cursor (p c n).notes rfl
        refine ⟨List.append_eq_nil_iff.2 ⟨hp.quiet c n, hemitted⟩, hover.trans hcursor, ?_⟩
        exact fun S hn hS ↦ hnotes S (hp.marks hn hS) fun d hd ↦ hS d (hover.trans hd)
      · exact ⟨rfl, .refl c, fun S hn hS ↦ hp.marks hn hS⟩

protected theorem many (hp : Confined .part p) : Confined .part (Parser.many p) where
  keepsReach := hp.keepsReach.many
  quiet := fun c n ↦ (hp.confines_many c n).1
  takes := fun {c n _} _ ↦ (hp.confines_many c n).2.1
  marks := fun {c n S} hn hS ↦ (hp.confines_many c n).2.2 S hn hS
  blames := by
    intro c n hnone
    have hsome := isSome_many p c n
    rw [hnone] at hsome
    cases hsome

theorem many₁ (hp : Confined .part p) : Confined .part (Parser.many₁ p) :=
  hp.andThen fun _ ↦ hp.many.andReturn _

theorem separated₁ (hp : Confined .part p) : Confined .part (Parser.separated₁ p) := by
  have hitem : Confined .part (do
      Parser.sign .comma
      p) := (sign (by decide)).andThen fun _ ↦ hp
  exact hp.andThen fun _ ↦ hitem.many.andReturn _

theorem separated (hp : Confined .part p) : Confined .part (Parser.separated p) :=
  hp.separated₁.optional.andReturn _

theorem between {opening closing : Sign} (hp : Confined .part p) (hopening : opening ≠ .dot)
    (hclosing : closing ≠ .dot) : Confined .part (Parser.between opening closing p) :=
  (sign hopening).andThen fun _ ↦ hp.andThen fun _ ↦ (sign hclosing).andReturn _

/-! ### Places and labels -/

theorem located (hp : Confined e p) : Confined e (Parser.located p) where
  keepsReach := hp.keepsReach.located
  quiet := hp.quiet
  takes := by
    intro c n y hy
    obtain ⟨x, hx, -⟩ := Option.map_eq_some_iff.1 hy
    exact hp.takes hx
  marks := hp.marks
  blames := fun hnone ↦ hp.blames (Option.map_eq_none_iff.1 hnone)

theorem labelledWith (hp : Confined e p) (label : Label) (isRule : Bool) :
    Confined e (Parser.labelledWith label isRule p) where
  keepsReach := hp.keepsReach.labelledWith label isRule
  quiet := by
    intro c n
    unfold Parser.labelledWith
    simp [hp.quiet]
  takes := fun hx ↦ hp.takes hx
  marks := by
    intro c n S hn hS
    exact marked_labelledWith label isRule hn (hp.marks (Notes.marked_clear S n) hS)
  blames := by
    intro c n hnone
    obtain ⟨new, hnew, hle⟩ := hp.blames (n := n.clear) hnone
    unfold Parser.labelledWith
    dsimp only [Notes.withPending]
    rw [hnew]
    refine ⟨_, rfl, Nat.le_trans ?_ (Notes.index_le_merge _ _)⟩
    have hindex := congrArg Mark.index (Notes.mark_relabel new c.index label isRule)
    exact Nat.le_trans hle (Nat.le_of_eq hindex.symm)

theorem labelled (hp : Confined e p) (notion : Notion) : Confined e (Parser.labelled notion p) :=
  hp.labelledWith (.notion notion) false

theorem named (hp : Confined e p) (r : Rule) : Confined e (Parser.named r p) :=
  hp.labelledWith (.rule r) false

theorem rule (hp : Confined e p) (r : Rule) : Confined e (Parser.rule r p) :=
  hp.labelledWith (.rule r) true

end Confined

end Parser

end MasCheck
