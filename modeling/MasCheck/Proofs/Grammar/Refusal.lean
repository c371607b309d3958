import MasCheck.Grammar.Statement

/-!
# Failures of parsers

Two facts about failing are needed again and again. A parser refuses a list of tokens when it
fails in front of them, whatever the notes so far are; most parsers do so because of the first
token. A parser explains its failures when each of them leaves a pending failure behind, so that
recovery has something to emit and a failed parse something to report.

Both are passed on from the parts of a parser to the whole.
-/

namespace MasCheck.Parser

variable {α β : Type} {p q : Parser α} {ts ls : List Lexeme} {l : Lexeme}

/-- The parser fails in front of the tokens. -/
def Refuses (p : Parser α) (ts : List Lexeme) : Prop :=
  ∀ c n, c.rest = ts → (p c n).value = none

/-- The parser succeeds in front of the tokens. -/
def Admits (p : Parser α) (ts : List Lexeme) : Prop :=
  ∀ c n, c.rest = ts → (p c n).value.isSome

/-- No failure without a pending failure. -/
def Explains (p : Parser α) : Prop :=
  ∀ c n, (p c n).value = none → (p c n).notes.pending.isSome

/-! ## Sequences -/

theorem bind_of_none {c : Cursor} {n : Notes} (hp : (p c n).value = none) (f : α → Parser β) :
    ((p >>= f) c n).value = none ∧ ((p >>= f) c n).notes = (p c n).notes := by
  change (Parser.bind p f c n).value = none ∧ (Parser.bind p f c n).notes = (p c n).notes
  unfold Parser.bind
  simp only [hp, and_self]

theorem bind_of_some {c : Cursor} {n : Notes} {x : α} (hp : (p c n).value = some x)
    (f : α → Parser β) :
    (p >>= f) c n = (f x (p c n).cursor (p c n).notes).after (p c n).emitted := by
  change Parser.bind p f c n = _
  unfold Parser.bind
  simp only [hp]

/-! ## Refusal -/

@[simp] theorem refuses_token_nil (atToken atEnd : Expectation) (f : Token → Option α) :
    (token atToken atEnd f).Refuses [] := by
  intro c n hrest
  unfold token
  simp only [hrest]
  rfl

@[simp] theorem refuses_token_cons (atToken atEnd : Expectation) {f : Token → Option α}
    (h : f l.token = none) : (token atToken atEnd f).Refuses (l :: ls) := by
  intro c n hrest
  unfold token
  simp only [hrest, h]
  rfl

@[simp] theorem refuses_bind (hp : p.Refuses ts) (f : α → Parser β) : (p >>= f).Refuses ts :=
  fun c n hrest ↦ (bind_of_none (hp c n hrest) f).1

/-- A sequence may also fail at its second token. -/
theorem refuses_token_bind (atToken atEnd : Expectation) {f : Token → Option α}
    {g : α → Parser β} (h : ∀ x, f l.token = some x → (g x).Refuses ls) :
    (token atToken atEnd f >>= g).Refuses (l :: ls) := by
  cases hf : f l.token with
  | none => exact refuses_bind (refuses_token_cons atToken atEnd hf) g
  | some x =>
    intro c n hrest
    have hvalue : (token atToken atEnd f c n).value = some x := by
      unfold token
      simp only [hrest, hf]
      rfl
    have hcursor : (token atToken atEnd f c n).cursor.rest = ls := by
      unfold token
      simp only [hrest, hf]
      rfl
    rw [bind_of_some hvalue]
    exact h x hf _ _ hcursor

@[simp] theorem refuses_or (hp : p.Refuses ts) (hq : q.Refuses ts) : (p.or q).Refuses ts := by
  intro c n hrest
  unfold Parser.or
  simp only [hp c n hrest]
  exact hq c _ hrest

@[simp] theorem refuses_located (hp : p.Refuses ts) : (located p).Refuses ts := by
  intro c n hrest
  exact congrArg (Option.map _) (hp c n hrest)

@[simp] theorem refuses_labelledWith (label : Label) (isRule : Bool) (hp : p.Refuses ts) :
    (labelledWith label isRule p).Refuses ts :=
  fun c n hrest ↦ hp c n.clear hrest

@[simp] theorem refuses_labelled (notion : Notion) (hp : p.Refuses ts) :
    (labelled notion p).Refuses ts :=
  refuses_labelledWith _ _ hp

@[simp] theorem refuses_named (r : Rule) (hp : p.Refuses ts) : (named r p).Refuses ts :=
  refuses_labelledWith _ _ hp

@[simp] theorem refuses_rule (r : Rule) (hp : p.Refuses ts) : (rule r p).Refuses ts :=
  refuses_labelledWith _ _ hp

@[simp] theorem refuses_select_cons {f : Token → Option α} (h : f l.token = none) :
    (select f).Refuses (l :: ls) :=
  refuses_token_cons _ _ h

@[simp] theorem refuses_exactly_nil (t : Token) : (exactly t).Refuses [] :=
  refuses_token_nil _ _ _

@[simp] theorem refuses_exactly_cons {t : Token} (h : l.token ≠ t) :
    (exactly t).Refuses (l :: ls) :=
  refuses_token_cons _ _ (if_neg h)

@[simp] theorem refuses_keyword_nil (word : Keyword) : (keyword word).Refuses [] :=
  refuses_exactly_nil _

@[simp] theorem refuses_keyword_cons {word : Keyword} (h : l.token ≠ .keyword word) :
    (keyword word).Refuses (l :: ls) :=
  refuses_exactly_cons h

@[simp] theorem refuses_sign_cons {s : Sign} (h : l.token ≠ .sign s) :
    (sign s).Refuses (l :: ls) :=
  refuses_exactly_cons h

@[simp] theorem refuses_between {opening closing : Sign} (p : Parser α)
    (h : l.token ≠ .sign opening) : (between opening closing p).Refuses (l :: ls) :=
  refuses_bind (refuses_sign_cons h) _

@[simp] theorem refuses_recoverBy {skip : Parser α} (hp : p.Refuses ts) (hskip : skip.Refuses ts) :
    (recoverBy skip p).Refuses ts := by
  intro c n hrest
  unfold recoverBy
  simp only [hp c n hrest, hskip c _ hrest]
  rfl

/-- At a place where it has to stop, a search does not begin. -/
theorem refuses_resumeBefore {stop : Parser Unit} (hp : p.Refuses ts) (hstop : stop.Admits ts) :
    (resumeBefore stop p).Refuses ts := by
  intro c n hrest
  unfold resumeBefore
  simp only [hp c n hrest]
  rw [searchBefore]
  obtain ⟨u, hu⟩ := Option.isSome_iff_exists.1 (hstop c (p c n).notes.clear hrest)
  simp only [hu]
  rfl

@[simp] theorem refuses_resumeBefore_nil (stop : Parser Unit) (hp : p.Refuses []) :
    (resumeBefore stop p).Refuses [] := by
  intro c n hrest
  unfold resumeBefore
  simp only [hp c n hrest]
  rw [searchBefore]
  split
  · rfl
  · split
    · rfl
    · next h => cases hrest.symm.trans h

theorem refuses_tokenBefore {stop : Parser Unit} (hstop : stop.Admits ts) :
    (tokenBefore stop).Refuses ts := by
  intro c n hrest
  unfold tokenBefore
  cases hv : (token .anyToken .anyToken some c n).value with
  | none =>
    simp only [hv]
  | some t =>
    obtain ⟨u, hu⟩ := Option.isSome_iff_exists.1
      (hstop c (token .anyToken .anyToken some c n).notes.clear hrest)
    simp only [hv, hu]
    rfl

/-- A repetition that takes nothing leaves the failing to what follows. -/
theorem refuses_many_bind {f : List α → Parser β} (hp : p.Refuses ts) (hf : (f []).Refuses ts) :
    (many p >>= f).Refuses ts := by
  intro c n hrest
  have hmany : many p c n = .done [] c (p c n).notes := by
    rw [many]
    simp only [hp c n hrest]
  have hvalue : (many p c n).value = some [] := by rw [hmany]; rfl
  rw [bind_of_some hvalue, hmany]
  exact hf c _ hrest

/-! ## Explained failures -/

theorem explains_pure (x : α) : Explains (pure x : Parser α) :=
  fun _ _ h ↦ nomatch h

theorem explains_token (atToken atEnd : Expectation) (f : Token → Option α) :
    Explains (token atToken atEnd f) := by
  intro c n h
  unfold token at h ⊢
  split
  · rfl
  · split
    · next hrest _ _ hx =>
      simp only [hrest, hx] at h
      cases h
    · rfl

theorem explains_endOfInput : Explains endOfInput := by
  intro c n h
  unfold endOfInput at h ⊢
  split
  · next hrest =>
    simp only [hrest] at h
    cases h
  · rfl

theorem explains_bind {f : α → Parser β} (hp : Explains p) (hf : ∀ x, Explains (f x)) :
    Explains (p >>= f) := by
  intro c n h
  cases hv : (p c n).value with
  | none =>
    rw [(bind_of_none hv f).2]
    exact hp c n hv
  | some x =>
    rw [bind_of_some hv] at h ⊢
    exact hf x _ _ h

/-- Only the last alternative leaves a failure. -/
theorem explains_or (p : Parser α) (hq : Explains q) : Explains (p.or q) := by
  intro c n h
  unfold Parser.or at h ⊢
  cases hv : (p c n).value with
  | none =>
    simp only [hv] at h ⊢
    exact hq c _ h
  | some x =>
    simp only [hv] at h
    cases h

theorem explains_optional (p : Parser α) : Explains (optional p) := by
  intro c n h
  unfold optional at h
  cases hv : (p c n).value with
  | none =>
    simp only [hv] at h
    cases h
  | some x =>
    simp only [hv] at h
    cases (congrArg (Option.map some) hv).symm.trans h

/-- A repetition does not fail. -/
theorem isSome_many (p : Parser α) (c : Cursor) (n : Notes) : (many p c n).value.isSome := by
  induction hk : c.rest.length using Nat.strongRecOn generalizing c n with
  | _ k ih =>
    rw [many]
    cases hv : (p c n).value with
    | none => rfl
    | some x =>
      dsimp only
      split
      · next hlt =>
        have htail := ih _ (hk ▸ hlt) (p c n).cursor (p c n).notes rfl
        simpa [Outcome.after, Outcome.map] using htail
      · rfl

theorem explains_many (p : Parser α) : Explains (many p) := by
  intro c n h
  have hsome := isSome_many p c n
  simp [h] at hsome

theorem explains_located (hp : Explains p) : Explains (located p) := by
  intro c n h
  exact hp c n (Option.map_eq_none_iff.1 h)

theorem explains_labelledWith (label : Label) (isRule : Bool) (hp : Explains p) :
    Explains (labelledWith label isRule p) := by
  intro c n h
  obtain ⟨f, hf⟩ := Option.isSome_iff_exists.1 (hp c n.clear h)
  unfold labelledWith
  simp only [hf]
  rfl

theorem explains_recoverBy (skip : Parser α) (hp : Explains p) :
    Explains (recoverBy skip p) := by
  intro c n h
  unfold recoverBy at h ⊢
  cases hv : (p c n).value with
  | some x =>
    simp only [hv] at h
    cases h
  | none =>
    simp only [hv] at h ⊢
    split
    · next hs =>
      simp only [hs] at h
      cases h
    · exact hp c n hv

/-- A search that fails keeps the failure that it was to get over. -/
theorem pending_searchBefore {stop : Parser Unit} {held : Option Pending} {c : Cursor} {n : Notes}
    (h : (searchBefore stop p held c n).value = none) :
    (searchBefore stop p held c n).notes.pending = held := by
  fun_induction searchBefore stop p held c n with
  | case1 => rfl
  | case2 => rfl
  | case3 c n s hs notes l ls hrest a hgood =>
    obtain ⟨x, hx⟩ := Option.isSome_iff_exists.1 (Bool.and_eq_true_iff.1 hgood).1
    cases hx.symm.trans h
  | case4 c n s hs notes l ls hrest a hbad ih => exact ih h

theorem explains_resumeBefore (stop : Parser Unit) (hp : Explains p) :
    Explains (resumeBefore stop p) := by
  intro c n h
  unfold resumeBefore at h ⊢
  cases hv : (p c n).value with
  | some x =>
    simp only [hv] at h
    cases h
  | none =>
    simp only [hv] at h ⊢
    rw [pending_searchBefore h]
    exact hp c n hv

end MasCheck.Parser
