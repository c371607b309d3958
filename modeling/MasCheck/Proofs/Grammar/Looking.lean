import MasCheck.Proofs.Grammar.Run

/-!
# How far parsers look

A parser may look at tokens behind those that it reads. What has been looked at stays looked at,
and a parser that fails early has not looked far.
-/

namespace MasCheck

theorem Notes.reach_look_pos (n : Notes) (index : Nat) : 0 < (n.look index).reach :=
  Nat.lt_of_lt_of_le index.succ_pos (Nat.le_max_right _ _)

namespace Parser

variable {α β : Type} {p q : Parser α} {ts ls : List Lexeme} {l : Lexeme} {k : Nat}

/-! ## What is looked at stays looked at -/

def KeepsReach (p : Parser α) : Prop :=
  ∀ c n, n.reach ≤ (p c n).notes.reach

namespace KeepsReach

protected theorem pure (x : α) : KeepsReach (pure x : Parser α) :=
  fun _ n ↦ Nat.le_refl n.reach

theorem token (atToken atEnd : Expectation) (f : Token → Option α) :
    KeepsReach (token atToken atEnd f) := by
  intro c n
  unfold Parser.token
  split
  · exact Nat.le_max_left _ _
  · split <;> exact Nat.le_max_left _ _

theorem exactly (t : Token) : KeepsReach (exactly t) :=
  token _ _ _

theorem endOfInput : KeepsReach endOfInput := by
  intro c n
  unfold Parser.endOfInput
  split <;> exact Nat.le_max_left _ _

protected theorem bind {f : α → Parser β} (hp : KeepsReach p) (hf : ∀ x, KeepsReach (f x)) :
    KeepsReach (p >>= f) := by
  intro c n
  cases hx : (p c n).value with
  | none =>
    rw [(bind_of_none hx f).2]
    exact hp c n
  | some x =>
    rw [bind_of_some hx]
    exact Nat.le_trans (hp c n) (hf x _ _)

protected theorem or (hp : KeepsReach p) (hq : KeepsReach q) : KeepsReach (p.or q) := by
  intro c n
  cases hx : (p c n).value with
  | none =>
    rw [or_of_none hx]
    exact Nat.le_trans (hp c n) (hq c _)
  | some x =>
    rw [or_of_some hx]
    exact hp c n

protected theorem optional (hp : KeepsReach p) : KeepsReach (optional p) := by
  intro c n
  cases hx : (p c n).value with
  | none =>
    rw [optional_of_none hx]
    exact hp c n
  | some x =>
    rw [optional_of_some hx]
    exact hp c n

protected theorem many (hp : KeepsReach p) : KeepsReach (many p) := by
  intro c n
  fun_induction Parser.many p c n with
  | case1 c n a hx => exact hp c n
  | case2 c n a x hx hlt ih => exact Nat.le_trans (hp c n) ih
  | case3 c n a x hx hlt => exact hp c n

theorem located (hp : KeepsReach p) : KeepsReach (located p) :=
  hp

theorem labelledWith (hp : KeepsReach p) (label : Label) (isRule : Bool) :
    KeepsReach (labelledWith label isRule p) :=
  fun c n ↦ hp c n.clear

theorem tokenBefore {stop : Parser Unit} (hstop : KeepsReach stop) :
    KeepsReach (tokenBefore stop) := by
  intro c n
  have hfirst := token .anyToken .anyToken some c n
  have hlast := Nat.le_trans hfirst
    (hstop c (Parser.token .anyToken .anyToken some c n).notes.clear)
  unfold Parser.tokenBefore
  dsimp only
  split
  · exact hfirst
  · split
    · exact hlast
    · exact hlast

theorem recoverBy {skip : Parser α} (hp : KeepsReach p) (hskip : KeepsReach skip) :
    KeepsReach (recoverBy skip p) := by
  intro c n
  have hlast := Nat.le_trans (hp c n) (hskip c (p c n).notes.clear)
  unfold Parser.recoverBy
  dsimp only
  split
  · exact hp c n
  · split
    · exact hlast
    · exact hlast

theorem searchBefore {stop : Parser Unit} (hstop : KeepsReach stop) (hp : KeepsReach p)
    (held : Option Pending) : KeepsReach (searchBefore stop p held) := by
  intro c n
  fun_induction Parser.searchBefore stop p held c n with
  | case1 c n s u hs => exact hstop c n
  | case2 c n s hs notes hrest => exact Nat.le_trans (hstop c n) (Nat.le_max_left _ _)
  | case3 c n s hs notes l ls hrest a hgood =>
    have hnotes : n.reach ≤ notes.reach := Nat.le_trans (hstop c n) (Nat.le_max_left _ _)
    exact Nat.le_trans hnotes (hp _ _)
  | case4 c n s hs notes l ls hrest a hbad ih =>
    have hnotes : n.reach ≤ notes.reach := Nat.le_trans (hstop c n) (Nat.le_max_left _ _)
    exact Nat.le_trans (Nat.le_trans hnotes (hp _ _)) ih

theorem resumeBefore {stop : Parser Unit} (hstop : KeepsReach stop) (hp : KeepsReach p) :
    KeepsReach (resumeBefore stop p) := by
  intro c n
  cases hx : (p c n).value with
  | none =>
    rw [resumeBefore_of_none stop hx]
    exact Nat.le_trans (hp c n)
      (hstop.searchBefore hp (p c n).notes.pending c (p c n).notes.clear)
  | some x =>
    rw [resumeBefore_of_some stop hx]
    exact hp c n

end KeepsReach

/-! ## Something is looked at -/

def Looks (p : Parser α) : Prop :=
  ∀ c n, 0 < (p c n).notes.reach

namespace Looks

theorem token (atToken atEnd : Expectation) (f : Token → Option α) :
    (token atToken atEnd f).Looks := by
  intro c n
  have hlook := n.reach_look_pos c.index
  unfold Parser.token
  split
  · exact hlook
  · split <;> exact hlook

theorem exactly (t : Token) : (exactly t).Looks :=
  token _ _ _

theorem endOfInput : endOfInput.Looks := by
  intro c n
  have hlook := n.reach_look_pos c.index
  unfold Parser.endOfInput
  split <;> exact hlook

protected theorem bind {f : α → Parser β} (hp : p.Looks) (hf : ∀ x, KeepsReach (f x)) :
    (p >>= f).Looks := by
  intro c n
  cases hx : (p c n).value with
  | none =>
    rw [(bind_of_none hx f).2]
    exact hp c n
  | some x =>
    rw [bind_of_some hx]
    exact Nat.lt_of_lt_of_le (hp c n) (hf x _ _)

/-- After a part that cannot fail. -/
theorem bind_of_isSome {f : α → Parser β} (hp : ∀ c n, (p c n).value.isSome)
    (hf : ∀ x, (f x).Looks) : (p >>= f).Looks := by
  intro c n
  obtain ⟨x, hx⟩ := Option.isSome_iff_exists.1 (hp c n)
  rw [bind_of_some hx]
  exact hf x _ _

theorem labelledWith (hp : p.Looks) (label : Label) (isRule : Bool) :
    (labelledWith label isRule p).Looks :=
  fun c n ↦ hp c n.clear

end Looks

/-! ## How far is looked -/

/-- In front of these tokens the parser looks at the first `k` at most. -/
def LooksWithin (p : Parser α) (ts : List Lexeme) (k : Nat) : Prop :=
  ∀ c n, c.rest = ts → (p c n).notes.reach ≤ max n.reach (c.index + k)

namespace LooksWithin

theorem mono {j : Nat} (h : p.LooksWithin ts j) (hle : j ≤ k) : p.LooksWithin ts k := by
  intro c n hrest
  have hreach := h c n hrest
  omega

protected theorem pure (x : α) (ts : List Lexeme) : (pure x : Parser α).LooksWithin ts k :=
  fun _ _ _ ↦ Nat.le_max_left _ _

theorem token (atToken atEnd : Expectation) (f : Token → Option α) (ts : List Lexeme) :
    (token atToken atEnd f).LooksWithin ts 1 := by
  intro c n hrest
  unfold Parser.token
  split
  · exact Nat.le_refl _
  · split <;> exact Nat.le_refl _

theorem exactly (t : Token) (ts : List Lexeme) : (exactly t).LooksWithin ts 1 :=
  token _ _ _ _

theorem endOfInput (ts : List Lexeme) : endOfInput.LooksWithin ts 1 := by
  intro c n hrest
  unfold Parser.endOfInput
  split <;> exact Nat.le_refl _

protected theorem or (hp : p.LooksWithin ts k) (hq : q.LooksWithin ts k) :
    (p.or q).LooksWithin ts k := by
  intro c n hrest
  have hfirst := hp c n hrest
  cases hx : (p c n).value with
  | none =>
    rw [or_of_none hx]
    have hsecond := hq c (p c n).notes hrest
    omega
  | some x =>
    rw [or_of_some hx]
    exact hfirst

theorem recoverBy {skip : Parser α} (hp : p.LooksWithin ts k) (hskip : skip.LooksWithin ts k) :
    (recoverBy skip p).LooksWithin ts k := by
  intro c n hrest
  have hfirst := hp c n hrest
  have hsecond : _ ≤ max (p c n).notes.reach (c.index + k) :=
    hskip c (p c n).notes.clear hrest
  have hlast := Nat.le_trans hsecond (Nat.max_le.2 ⟨hfirst, Nat.le_max_right _ _⟩)
  unfold Parser.recoverBy
  dsimp only
  split
  · exact hfirst
  · split
    · exact hlast
    · exact hlast

theorem tokenBefore {stop : Parser Unit} (hstop : stop.LooksWithin ts 1) :
    (tokenBefore stop).LooksWithin ts 1 := by
  intro c n hrest
  have hfirst := token .anyToken .anyToken (some : Token → Option Token) ts c n hrest
  have hsecond : _ ≤ max (Parser.token .anyToken .anyToken some c n).notes.reach (c.index + 1) :=
    hstop c (Parser.token .anyToken .anyToken some c n).notes.clear hrest
  have hlast := Nat.le_trans hsecond (Nat.max_le.2 ⟨hfirst, Nat.le_max_right _ _⟩)
  unfold Parser.tokenBefore
  dsimp only
  split
  · exact hfirst
  · split
    · exact hlast
    · exact hlast

/-- A repetition that takes nothing, and what follows it. -/
theorem many_bind {f : List α → Parser β} (hp : p.LooksWithin ts k) (hrefuses : p.Refuses ts)
    (hf : (f []).LooksWithin ts k) : (many p >>= f).LooksWithin ts k := by
  intro c n hrest
  rw [bind_of_done (many_of_none (hrefuses c n hrest))]
  have hfirst := hp c n hrest
  have hsecond := hf c (p c n).notes hrest
  omega

end LooksWithin

/-! ## Failing early -/

structure FailsWithin (p : Parser α) (ts : List Lexeme) (k : Nat) : Prop where
  refuses : p.Refuses ts
  looksWithin : p.LooksWithin ts k

namespace FailsWithin

theorem mono {j : Nat} (h : p.FailsWithin ts j) (hle : j ≤ k) : p.FailsWithin ts k :=
  ⟨h.refuses, h.looksWithin.mono hle⟩

theorem exactly {t : Token} (h : l.token ≠ t) : (exactly t).FailsWithin (l :: ls) 1 :=
  ⟨refuses_exactly_cons h, .exactly _ _⟩

theorem endOfInput : endOfInput.FailsWithin (l :: ls) 1 :=
  ⟨fun _ n hrest ↦ endOfInput_of_cons hrest n, .endOfInput _⟩

protected theorem bind (h : p.FailsWithin ts k) (f : α → Parser β) :
    (p >>= f).FailsWithin ts k := by
  refine ⟨refuses_bind h.refuses f, fun c n hrest ↦ ?_⟩
  rw [(bind_of_none (h.refuses c n hrest) f).2]
  exact h.looksWithin c n hrest

/-- A sequence that fails behind its first token. -/
theorem exactly_bind {t : Token} {a : Span} {g : Unit → Parser β} (hg : (g ()).FailsWithin ls k) :
    (Parser.exactly t >>= g).FailsWithin (⟨t, a⟩ :: ls) (k + 1) := by
  have hdone : ∀ c n, c.rest = ⟨t, a⟩ :: ls →
      Parser.exactly t c n = .done () (c.after ⟨t, a⟩ ls) (n.look c.index) :=
    fun c n hrest ↦ token_of_some hrest (if_pos rfl)
  constructor
  · intro c n hrest
    rw [bind_of_done (hdone c n hrest)]
    exact hg.refuses _ _ rfl
  · intro c n hrest
    rw [bind_of_done (hdone c n hrest)]
    have hreach : _ ≤ max (max n.reach (c.index + 1)) (c.index + 1 + k) :=
      hg.looksWithin (c.after ⟨t, a⟩ ls) (n.look c.index) rfl
    omega

protected theorem or (hp : p.FailsWithin ts k) (hq : q.FailsWithin ts k) :
    (p.or q).FailsWithin ts k :=
  ⟨refuses_or hp.refuses hq.refuses, hp.looksWithin.or hq.looksWithin⟩

theorem located (hp : p.FailsWithin ts k) : (located p).FailsWithin ts k :=
  ⟨refuses_located hp.refuses, hp.looksWithin⟩

theorem labelledWith (hp : p.FailsWithin ts k) (label : Label) (isRule : Bool) :
    (labelledWith label isRule p).FailsWithin ts k :=
  ⟨refuses_labelledWith label isRule hp.refuses, fun c n hrest ↦ hp.looksWithin c n.clear hrest⟩

theorem recoverBy {skip : Parser α} (hp : p.FailsWithin ts k) (hskip : skip.FailsWithin ts k) :
    (recoverBy skip p).FailsWithin ts k :=
  ⟨refuses_recoverBy hp.refuses hskip.refuses, hp.looksWithin.recoverBy hskip.looksWithin⟩

theorem many_bind {f : List α → Parser β} (hp : p.FailsWithin ts k)
    (hf : (f []).FailsWithin ts k) : (many p >>= f).FailsWithin ts k :=
  ⟨refuses_many_bind hp.refuses hf.refuses, hp.looksWithin.many_bind hp.refuses hf.looksWithin⟩

/-- A search that finds nothing behind its first token and has to stop there. -/
theorem resumeBefore {stop : Parser Unit} (hp : p.FailsWithin (l :: ls) (k + 1))
    (hnext : p.LooksWithin ls k)
    (hbroken : ∀ c n, c.rest = ls → ¬ ((p c n).value.isSome && (p c n).emitted.isEmpty))
    (hstop : stop.FailsWithin (l :: ls) 1) (hadmits : stop.Admits ls)
    (hlast : stop.LooksWithin ls k) : (resumeBefore stop p).FailsWithin (l :: ls) (k + 1) := by
  have hsearch : ∀ held c n, c.rest = l :: ls →
      (searchBefore stop p held c n).value = none ∧
        (searchBefore stop p held c n).notes.reach ≤ max n.reach (c.index + (k + 1)) := by
    intro held c n hrest
    -- The notes with which the parser is tried behind the first token.
    let n' := (stop c n).notes.look c.index
    have hfirst := hstop.looksWithin c n hrest
    have hsecond : _ ≤ max (max (stop c n).notes.reach (c.index + 1)) (c.index + 1 + k) :=
      hnext (c.after l ls) n' rfl
    have hthird : _ ≤ max (p (c.after l ls) n').notes.reach (c.index + 1 + k) :=
      hlast (c.after l ls) (p (c.after l ls) n').notes.clear rfl
    rw [searchBefore_of_cons (hstop.refuses c n hrest) held hrest]
    dsimp only
    rw [if_neg (hbroken (c.after l ls) _ rfl), searchBefore_of_admits hadmits held _ rfl]
    refine ⟨rfl, Nat.le_trans hthird ?_⟩
    omega
  constructor
  · intro c n hrest
    rw [resumeBefore_of_none stop (hp.refuses c n hrest)]
    exact (hsearch _ c _ hrest).1
  · intro c n hrest
    rw [resumeBefore_of_none stop (hp.refuses c n hrest)]
    have hfirst := hp.looksWithin c n hrest
    have hsecond : _ ≤ max (p c n).notes.reach (c.index + (k + 1)) :=
      (hsearch (p c n).notes.pending c (p c n).notes.clear hrest).2
    omega

end FailsWithin

end Parser

end MasCheck
