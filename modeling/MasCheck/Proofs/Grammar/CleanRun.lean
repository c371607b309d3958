import MasCheck.Proofs.Grammar.Production
import MasCheck.Proofs.Grammar.Refusal

/-!
# Clean runs of parsers

A run is clean when it succeeds and no recovery took place in it. A parser realizes a production
when its clean runs read exactly the lists of tokens that the production derives, with the same
values, and when its failures are explained. Since a parser takes the first alternative that
succeeds and repeats as often as it can, it may need to know something about the tokens that
follow: this is the third argument of `Realizes`.

Each way of putting parsers together has one lemma, which says which production is realized by the
whole when the parts realize theirs.
-/

namespace MasCheck

variable {α β : Type}

/-! ## Clean outcomes -/

/-- The outcome is a success with the value at the cursor, and recovery was not needed. -/
structure Outcome.Yields (o : Outcome α) (x : α) (d : Cursor) : Prop where
  value : o.value = some x
  cursor : o.cursor = d
  emitted : o.emitted = []

namespace Outcome

theorem yields_done (x : α) (c : Cursor) (n : Notes) : (done x c n).Yields x c :=
  ⟨rfl, rfl, rfl⟩

theorem done_yields_iff {x y : α} {c d : Cursor} {n : Notes} :
    (done x c n).Yields y d ↔ x = y ∧ c = d := by
  constructor
  · intro h
    exact ⟨Option.some.inj h.value, h.cursor⟩
  · rintro ⟨rfl, rfl⟩
    exact yields_done x c n

theorem not_failed_yields {x : α} {c d : Cursor} {n : Notes} : ¬ (failed c n).Yields x d :=
  fun h ↦ nomatch h.value

theorem map_yields_iff {f : α → β} {o : Outcome α} {y : β} {d : Cursor} :
    (o.map f).Yields y d ↔ ∃ x, o.Yields x d ∧ f x = y := by
  constructor
  · intro h
    obtain ⟨x, hx, hy⟩ := Option.map_eq_some_iff.1 h.value
    exact ⟨x, ⟨hx, h.cursor, h.emitted⟩, hy⟩
  · rintro ⟨x, h, rfl⟩
    exact ⟨congrArg (Option.map f) h.value, h.cursor, h.emitted⟩

theorem after_yields_iff {before : List Failure} {o : Outcome α} {x : α} {d : Cursor} :
    (o.after before).Yields x d ↔ before = [] ∧ o.Yields x d := by
  constructor
  · intro h
    have he := List.append_eq_nil_iff.1 h.emitted
    exact ⟨he.1, h.value, h.cursor, he.2⟩
  · rintro ⟨rfl, h⟩
    exact ⟨h.value, h.cursor, h.emitted⟩

end Outcome

/-! ## Reading tokens one after the other -/

/-- From the first cursor, reading the tokens leads to the second. -/
inductive Cursor.Reaches : Cursor → List Lexeme → Cursor → Prop
  | refl (c : Cursor) : Reaches c [] c
  | step {c d : Cursor} {l : Lexeme} {ls ts : List Lexeme} :
      c.rest = l :: ls → Reaches (c.after l ls) ts d → Reaches c (l :: ts) d

namespace Cursor.Reaches

variable {c d e : Cursor} {us vs ts : List Lexeme}

theorem rest_eq (h : c.Reaches ts d) : c.rest = ts ++ d.rest := by
  induction h with
  | refl c => rfl
  | step hrest _ ih =>
    rw [hrest, List.cons_append, ← ih]
    rfl

theorem index_eq (h : c.Reaches ts d) : d.index = c.index + ts.length := by
  induction h with
  | refl c => rfl
  | step hrest _ ih =>
    rw [ih, List.length_cons]
    simp only [Cursor.after]
    omega

theorem eq_of_nil (h : c.Reaches [] d) : d = c := by
  cases h
  rfl

theorem single {l : Lexeme} {ls : List Lexeme} (h : c.rest = l :: ls) :
    c.Reaches [l] (c.after l ls) :=
  .step h (.refl _)

theorem trans (h : c.Reaches us d) (h' : d.Reaches vs e) : c.Reaches (us ++ vs) e := by
  induction h with
  | refl c => exact h'
  | step hrest _ ih => exact .step hrest (ih h')

theorem split (h : c.Reaches (us ++ vs) e) : ∃ d, c.Reaches us d ∧ d.Reaches vs e := by
  induction us generalizing c with
  | nil => exact ⟨c, .refl c, h⟩
  | cons l us ih =>
    cases h with
    | step hrest h =>
      obtain ⟨d, hd, he⟩ := ih h
      exact ⟨d, .step hrest hd, he⟩

/-- A cursor can read any front part of its tokens. -/
theorem of_rest {rest : List Lexeme} (h : c.rest = ts ++ rest) :
    ∃ d, c.Reaches ts d ∧ d.rest = rest := by
  induction ts generalizing c with
  | nil => exact ⟨c, .refl c, h⟩
  | cons l ts ih =>
    have hrest : (c.after l (ts ++ rest)).rest = ts ++ rest := rfl
    obtain ⟨d, hd, hdrest⟩ := ih hrest
    exact ⟨d, .step h hd, hdrest⟩

theorem lastStop_eq {l : Lexeme} (h : c.Reaches (l :: ts) d) :
    d.lastStop = ((l :: ts).getLast (List.cons_ne_nil l ts)).span.stop := by
  induction ts generalizing c l with
  | nil =>
    cases h with
    | step hrest h =>
      rw [eq_of_nil h]
      rfl
  | cons k ts ih =>
    cases h with
    | step hrest h => rw [ih h, List.getLast_cons (List.cons_ne_nil k ts)]

/-- The place between two cursors is that of the tokens in between. -/
theorem spanTo_eq (h : c.Reaches ts d) (hts : ts ≠ []) : c.spanTo d = Lexeme.spanOf ts := by
  cases ts with
  | nil => exact absurd rfl hts
  | cons l ts =>
    have hrest : c.rest = l :: (ts ++ d.rest) := h.rest_eq
    simp only [Cursor.spanTo, hrest, Lexeme.spanOf, h.lastStop_eq]

end Cursor.Reaches

namespace Parser

def anywhere : List Lexeme → Prop := fun _ ↦ True

/-- Another token follows, or none. -/
def notBefore (t : Token) : List Lexeme → Prop := fun rest ↦
  ∀ l ∈ rest.head?, l.token ≠ t

/-- The clean runs of the parser are the derivations of the production, provided that what follows
the derived tokens is suitable. -/
structure Realizes (p : Parser α) (P : Production α) (suitable : List Lexeme → Prop) : Prop where
  sound : ∀ {c n x d}, (p c n).Yields x d → ∃ ts, c.Reaches ts d ∧ P ts x
  complete : ∀ {c n ts x d}, c.Reaches ts d → P ts x → suitable d.rest → (p c n).Yields x d
  explains : p.Explains

variable {p q : Parser α} {P Q : Production α} {F F' : List Lexeme → Prop}

theorem notBefore_cons {t : Token} {l : Lexeme} {ls : List Lexeme} :
    notBefore t (l :: ls) ↔ l.token ≠ t := by
  constructor
  · exact fun h ↦ h l rfl
  · rintro h k ⟨⟩
    exact h

/-- Sequences pass values on only after successes. -/
theorem bind_yields_iff {f : α → Parser β} {c e : Cursor} {n : Notes} {y : β} :
    ((p >>= f) c n).Yields y e ↔
      ∃ x d, (p c n).Yields x d ∧ (f x d (p c n).notes).Yields y e := by
  cases hp : (p c n).value with
  | none =>
    constructor
    · intro h
      cases (bind_of_none hp f).1.symm.trans h.value
    · rintro ⟨x, d, h, -⟩
      cases hp.symm.trans h.value
  | some x =>
    rw [bind_of_some hp, Outcome.after_yields_iff]
    constructor
    · rintro ⟨he, h⟩
      exact ⟨x, _, ⟨hp, rfl, he⟩, h⟩
    · rintro ⟨x', d, h, hf⟩
      obtain rfl := Option.some.inj (hp.symm.trans h.value)
      rw [← h.cursor] at hf
      exact ⟨h.emitted, hf⟩

namespace Realizes

/-- A list of tokens has one value. -/
theorem value_unique (h : Realizes p P F) {rest : List Lexeme} (hF : F rest) {ts : List Lexeme}
    {x y : α} (hx : P ts x) (hy : P ts y) : x = y := by
  have hrest : (Cursor.start (ts ++ rest) 0).rest = ts ++ rest := rfl
  obtain ⟨d, hd, rfl⟩ := Cursor.Reaches.of_rest hrest
  have hvx := (h.complete (n := .start) hd hx hF).value
  have hvy := (h.complete (n := .start) hd hy hF).value
  exact Option.some.inj (hvx.symm.trans hvy)

theorem mono (h : Realizes p P F) (hF : ∀ rest, F' rest → F rest) : Realizes p P F' where
  sound := h.sound
  complete := fun hd hP hsuit ↦ h.complete hd hP (hF _ hsuit)
  explains := h.explains

protected theorem pure (x : α) : Realizes (pure x) (pure x) anywhere where
  sound := by
    intro c n y d h
    obtain ⟨rfl, rfl⟩ := Outcome.done_yields_iff.1 h
    exact ⟨[], .refl c, rfl, rfl⟩
  complete := by
    rintro c n ts y d hd ⟨rfl, rfl⟩ -
    rw [hd.eq_of_nil]
    exact Outcome.yields_done y c n
  explains := explains_pure x

theorem token (atToken atEnd : Expectation) (f : Token → Option α) :
    Realizes (token atToken atEnd f) (.token f) anywhere where
  sound := by
    intro c n x d h
    unfold Parser.token at h
    split at h
    · exact absurd h Outcome.not_failed_yields
    · next l ls hrest =>
      split at h
      · next y hy =>
        obtain ⟨rfl, rfl⟩ := Outcome.done_yields_iff.1 h
        exact ⟨[l], .single hrest, l, rfl, hy⟩
      · exact absurd h Outcome.not_failed_yields
  complete := by
    rintro c n ts x d hd ⟨l, rfl, hx⟩ -
    cases hd with
    | step hrest hd =>
      rw [hd.eq_of_nil]
      unfold Parser.token
      simp only [hrest, hx]
      exact Outcome.yields_done _ _ _
  explains := explains_token atToken atEnd f

theorem select (f : Token → Option α) : Realizes (select f) (.token f) anywhere :=
  token .other .other f

theorem exactly (t : Token) : Realizes (exactly t) (.exactly t) anywhere := by
  have h := token (.token t) (.token t) fun u ↦ if u = t then some () else none
  have heq : Production.token (fun u ↦ if u = t then some () else none) = .exactly t := by
    ext ts x
    constructor
    · rintro ⟨⟨u, span⟩, rfl, hu⟩
      by_cases hut : u = t
      · exact ⟨span, by rw [hut]⟩
      · simp [hut] at hu
    · rintro ⟨span, rfl⟩
      exact ⟨⟨t, span⟩, rfl, by simp⟩
  rw [heq] at h
  exact h

theorem keyword (word : Keyword) : Realizes (keyword word) (.keyword word) anywhere :=
  exactly (.keyword word)

theorem sign (s : Sign) : Realizes (sign s) (.sign s) anywhere :=
  exactly (.sign s)

/-- The end takes no token, and has nothing behind it. -/
theorem endOfInput : Realizes endOfInput (pure ()) (· = []) where
  sound := by
    intro c n x d h
    unfold Parser.endOfInput at h
    split at h
    · obtain ⟨rfl, rfl⟩ := Outcome.done_yields_iff.1 h
      exact ⟨[], .refl c, rfl, rfl⟩
    · exact absurd h Outcome.not_failed_yields
  complete := by
    rintro c n ts x d hd ⟨rfl, rfl⟩ hrest
    obtain rfl := hd.eq_of_nil
    unfold Parser.endOfInput
    simp only [hrest]
    exact Outcome.yields_done _ _ _
  explains := explains_endOfInput

protected theorem bind {f : α → Parser β} {G : α → Production β} (hp : Realizes p P F)
    (hf : ∀ x, Realizes (f x) (G x) F')
    (hF : ∀ x us y rest, G x us y → F' rest → F (us ++ rest)) :
    Realizes (p >>= f) (P >>= G) F' where
  sound := by
    intro c n y e h
    obtain ⟨x, d, hx, hy⟩ := bind_yields_iff.1 h
    obtain ⟨us, hus, hP⟩ := hp.sound hx
    obtain ⟨vs, hvs, hG⟩ := (hf x).sound hy
    exact ⟨us ++ vs, hus.trans hvs, us, vs, x, rfl, hP, hG⟩
  complete := by
    rintro c n ts y e he ⟨us, vs, x, rfl, hP, hG⟩ hsuit
    obtain ⟨d, hd, he⟩ := he.split
    have hrest : F d.rest := by
      rw [he.rest_eq]
      exact hF x vs y e.rest hG hsuit
    exact bind_yields_iff.2 ⟨x, d, hp.complete hd hP hrest, (hf x).complete he hG hsuit⟩
  explains := explains_bind hp.explains fun x ↦ (hf x).explains

theorem andThen {f : α → Parser β} {G : α → Production β} (hp : Realizes p P anywhere)
    (hf : ∀ x, Realizes (f x) (G x) F') : Realizes (p >>= f) (P >>= G) F' :=
  hp.bind hf fun _ _ _ _ _ _ ↦ trivial

/-- Between the two parts stands a sign. -/
theorem andSign {s : Sign} {f : α → Unit → Parser β} {G : α → Unit → Production β}
    (hp : Realizes p P F) (hsign : ∀ l rest, l.token = .sign s → F (l :: rest))
    (hf : ∀ x u, Realizes (f x u) (G x u) F') :
    Realizes (do let x ← p; let u ← Parser.sign s; f x u)
      (do let x ← P; let u ← Production.sign s; G x u) F' := by
  refine hp.bind (fun x ↦ (sign s).andThen (hf x)) ?_
  intro x us y rest hG _
  obtain ⟨span, vs, rfl, -⟩ := Production.sign_bind_iff.1 hG
  exact hsign _ _ rfl

theorem andReturn (hp : Realizes p P F) (g : α → β) :
    Realizes (do let x ← p; return g x) (do let x ← P; return g x) F where
  sound := by
    intro c n y e h
    obtain ⟨x, d, hx, hy⟩ := bind_yields_iff.1 h
    obtain ⟨us, hus, hP⟩ := hp.sound hx
    obtain ⟨vs, hvs, hG⟩ := (Realizes.pure (g x)).sound hy
    exact ⟨us ++ vs, hus.trans hvs, us, vs, x, rfl, hP, hG⟩
  complete := by
    rintro c n ts y e he ⟨us, vs, x, rfl, hP, rfl, rfl⟩ hsuit
    rw [List.append_nil] at he
    exact bind_yields_iff.2 ⟨x, e, hp.complete he hP hsuit, Outcome.yields_done _ _ _⟩
  explains := explains_bind hp.explains fun x ↦ explains_pure (g x)

theorem map (hp : Realizes p P F) (g : α → β) :
    Realizes (do let x ← p; return g x) (P.map g) F :=
  Production.bind_pure_eq_map g P ▸ hp.andReturn g

theorem atEnd (x : α) : Realizes (do Parser.endOfInput; return x) (pure x) (· = []) :=
  Production.map_pure (fun _ ↦ x) () ▸ endOfInput.map fun _ ↦ x

/-- The second alternative is for tokens that the first one refuses. -/
protected theorem or (hp : Realizes p P F) (hq : Realizes q Q F)
    (hpq : ∀ ts x rest, Q ts x → F rest → p.Refuses (ts ++ rest)) :
    Realizes (p.or q) (P.or Q) F where
  sound := by
    intro c n x d h
    unfold Parser.or at h
    cases hv : (p c n).value with
    | none =>
      simp only [hv] at h
      obtain ⟨ts, hd, hQ⟩ := hq.sound h
      exact ⟨ts, hd, .inr hQ⟩
    | some y =>
      simp only [hv] at h
      obtain ⟨ts, hd, hP⟩ := hp.sound h
      exact ⟨ts, hd, .inl hP⟩
  complete := by
    intro c n ts x d hd hPQ hsuit
    unfold Parser.or
    cases hPQ with
    | inl hP =>
      have h := hp.complete (n := n) hd hP hsuit
      simp only [h.value]
      exact h
    | inr hQ =>
      have hv := hpq ts x d.rest hQ hsuit c n hd.rest_eq
      simp only [hv]
      exact hq.complete hd hQ hsuit
  explains := explains_or p hq.explains

protected theorem optional (hp : Realizes p P F) :
    Realizes (optional p) P.optional fun rest ↦ F rest ∧ p.Refuses rest where
  sound := by
    intro c n x d h
    unfold Parser.optional at h
    cases hv : (p c n).value with
    | none =>
      simp only [hv] at h
      obtain ⟨rfl, rfl⟩ := Outcome.done_yields_iff.1 h
      exact ⟨[], .refl c, rfl⟩
    | some y =>
      simp only [hv] at h
      obtain ⟨z, hz, rfl⟩ := Outcome.map_yields_iff.1 h
      exact hp.sound hz
  complete := by
    intro c n ts x d hd hP hsuit
    unfold Parser.optional
    cases x with
    | none =>
      obtain rfl : ts = [] := hP
      obtain rfl := hd.eq_of_nil
      simp only [hsuit.2 d n rfl]
      exact Outcome.yields_done _ _ _
    | some x =>
      have h := hp.complete (n := n) hd hP hsuit.1
      simp only [h.value]
      exact Outcome.map_yields_iff.2 ⟨x, h, rfl⟩
  explains := explains_optional p

/-- An item that may stand anywhere is left out where it is refused. -/
theorem optional_anywhere (hp : Realizes p P anywhere) :
    Realizes (Parser.optional p) P.optional p.Refuses :=
  hp.optional.mono fun _ hrest ↦ ⟨trivial, hrest⟩

theorem sound_many (hp : Realizes p P F) {c : Cursor} {n : Notes} {xs : List α} {d : Cursor}
    (h : (many p c n).Yields xs d) : ∃ ts, c.Reaches ts d ∧ P.many ts xs := by
  induction hk : c.rest.length using Nat.strongRecOn generalizing c n xs with
  | _ k ih =>
    rw [Parser.many] at h
    cases hv : (p c n).value with
    | none =>
      simp only [hv] at h
      obtain ⟨rfl, rfl⟩ := Outcome.done_yields_iff.1 h
      exact ⟨[], .refl c, .nil⟩
    | some x =>
      simp only [hv] at h
      split at h
      · next hlt =>
        obtain ⟨he, h⟩ := Outcome.after_yields_iff.1 h
        obtain ⟨ys, hys, rfl⟩ := Outcome.map_yields_iff.1 h
        obtain ⟨us, hus, hP⟩ := hp.sound ⟨hv, rfl, he⟩
        obtain ⟨vs, hvs, hmany⟩ := ih _ (hk ▸ hlt) hys rfl
        exact ⟨us ++ vs, hus.trans hvs, .cons hP hmany⟩
      · obtain ⟨rfl, rfl⟩ := Outcome.done_yields_iff.1 h
        exact ⟨[], .refl c, .nil⟩

theorem complete_many (hp : Realizes p P F) (hP : P.Solid)
    (hF : ∀ us x rest, P us x → F (us ++ rest)) {ts : List Lexeme} {xs : List α}
    (h : P.many ts xs) {c d : Cursor} {n : Notes} (hd : c.Reaches ts d) (hsuit : F d.rest)
    (hstop : p.Refuses d.rest) : (many p c n).Yields xs d := by
  induction h generalizing c n with
  | nil =>
    obtain rfl := hd.eq_of_nil
    rw [Parser.many]
    simp only [hstop d n rfl]
    exact Outcome.yields_done _ _ _
  | @cons us vs x xs hx hxs ih =>
    obtain ⟨e, hus, hvs⟩ := hd.split
    -- The items behind this one, or what follows them all, let the item end here.
    have hnext : F e.rest := by
      rw [hvs.rest_eq]
      cases hxs with
      | nil => exact hsuit
      | cons hy _ =>
        rw [List.append_assoc]
        exact hF _ _ _ hy
    have hitem := hp.complete (n := n) hus hx hnext
    have hlt : (p c n).cursor.rest.length < c.rest.length := by
      rw [hitem.cursor, hus.rest_eq, List.length_append]
      have := List.length_pos_iff.2 (hP us x hx)
      omega
    rw [Parser.many]
    simp only [hitem.value, hlt, ↓reduceIte]
    rw [Outcome.after_yields_iff, Outcome.map_yields_iff, hitem.cursor]
    exact ⟨hitem.emitted, xs, ih hvs, rfl⟩

/-- A repetition ends where its item is refused. -/
protected theorem many (hp : Realizes p P F) (hP : P.Solid)
    (hF : ∀ us x rest, P us x → F (us ++ rest)) :
    Realizes (many p) P.many fun rest ↦ F rest ∧ p.Refuses rest where
  sound := hp.sound_many
  complete := fun hd h hsuit ↦ hp.complete_many hP hF h hd hsuit.1 hsuit.2
  explains := explains_many p

theorem many_anywhere (hp : Realizes p P anywhere) (hP : P.Solid) :
    Realizes (Parser.many p) P.many p.Refuses :=
  (hp.many hP fun _ _ _ _ ↦ trivial).mono fun _ hrest ↦ ⟨trivial, hrest⟩

/-- A place is known from the tokens, because there is at least one. -/
theorem located (hp : Realizes p P F) (hP : P.Solid) : Realizes (located p) P.located F where
  sound := by
    intro c n x d h
    obtain ⟨y, hy, rfl⟩ := Outcome.map_yields_iff.1 h
    obtain ⟨ts, hd, hts⟩ := hp.sound hy
    refine ⟨ts, hd, hts, ?_⟩
    rw [hy.cursor]
    exact hd.spanTo_eq (hP ts y hts)
  complete := by
    rintro c n ts ⟨x, span⟩ d hd ⟨hts, hspan⟩ hsuit
    have h := hp.complete (n := n) hd hts hsuit
    refine Outcome.map_yields_iff.2 ⟨x, h, ?_⟩
    rw [h.cursor, hd.spanTo_eq (hP ts x hts), ← hspan]
  explains := explains_located hp.explains

/-- Labels leave clean runs as they are. -/
theorem labelledWith (hp : Realizes p P F) (label : Label) (isRule : Bool) :
    Realizes (labelledWith label isRule p) P F := by
  have hyields : ∀ c n x d, (Parser.labelledWith label isRule p c n).Yields x d ↔
      (p c n.clear).Yields x d := by
    intro c n x d
    unfold Parser.labelledWith
    constructor
    · intro h
      have he := h.emitted
      refine ⟨h.value, h.cursor, ?_⟩
      cases isRule with
      | false => exact he
      | true => exact List.map_eq_nil_iff.1 he
    · intro h
      refine ⟨h.value, h.cursor, ?_⟩
      simp [h.emitted]
  constructor
  · intro c n x d h
    exact hp.sound ((hyields c n x d).1 h)
  · intro c n ts x d hd hP hsuit
    exact (hyields c n x d).2 (hp.complete hd hP hsuit)
  · exact explains_labelledWith label isRule hp.explains

theorem labelled (hp : Realizes p P F) (notion : Notion) : Realizes (labelled notion p) P F :=
  hp.labelledWith (.notion notion) false

theorem named (hp : Realizes p P F) (r : Rule) : Realizes (named r p) P F :=
  hp.labelledWith (.rule r) false

theorem rule (hp : Realizes p P F) (r : Rule) : Realizes (rule r p) P F :=
  hp.labelledWith (.rule r) true

protected theorem between {opening closing : Sign} (hp : Realizes p P F)
    (hclose : ∀ l rest, l.token = .sign closing → F (l :: rest)) :
    Realizes (between opening closing p) (.between opening closing P) anywhere :=
  (sign opening).andThen fun _ ↦ hp.andSign hclose fun x _ ↦ .pure x

end Realizes

end Parser

end MasCheck
