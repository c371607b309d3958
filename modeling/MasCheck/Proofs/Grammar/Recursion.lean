import MasCheck.Proofs.Grammar.Progress

/-!
# Recursive rules

Values of initialization entries and parts of terms hold others of their kind. The rules for them
are bounded in depth, and the bound is taken from the tokens that are left. A rule calls itself only
behind a token, so that the bound is never met, and a rule is its body around itself.
-/

namespace MasCheck

namespace Parser

variable {α β γ : Type} {p q : Parser α} {f g : α → Parser β} {c : Cursor} {n : Notes}

/-! ## What an outcome depends on -/

theorem bind_congr (hpq : p c n = q c n) (hfg : ∀ x, (p c n).value = some x →
    f x (p c n).cursor (p c n).notes = g x (p c n).cursor (p c n).notes) :
    (p >>= f) c n = (q >>= g) c n := by
  cases hx : (p c n).value with
  | none => rw [bind_eq_of_none hx, bind_eq_of_none (hpq ▸ hx), hpq]
  | some x => rw [bind_of_some hx, bind_of_some (hpq ▸ hx), hfg x hx, hpq]

theorem or_congr {p' q' : Parser α} (hp : p c n = p' c n)
    (hq : (p c n).value = none → q c (p c n).notes = q' c (p c n).notes) :
    (p.or q) c n = (p'.or q') c n := by
  cases hx : (p c n).value with
  | none => rw [or_of_none hx, or_of_none (hp ▸ hx), hq hx, hp]
  | some x => rw [or_of_some hx, or_of_some (hp ▸ hx), hp]

theorem optional_congr (h : p c n = q c n) : optional p c n = optional q c n := by
  unfold optional
  rw [h]

theorem located_congr (h : p c n = q c n) : located p c n = located q c n := by
  unfold located
  rw [h]

theorem labelledWith_congr {label : Label} {isRule : Bool} (h : p c n.clear = q c n.clear) :
    labelledWith label isRule p c n = labelledWith label isRule q c n := by
  unfold labelledWith
  rw [h]

theorem recoverBy_congr {skip skip' : Parser α} (hp : p c n = q c n)
    (hskip : (p c n).value = none →
      skip c (p c n).notes.clear = skip' c (p c n).notes.clear) :
    recoverBy skip p c n = recoverBy skip' q c n := by
  unfold recoverBy
  rw [← hp]
  cases hx : (p c n).value with
  | none => simp only [hx, hskip hx]
  | some x => simp only [hx]

theorem tokenBefore_congr {stop stop' : Parser Unit}
    (h : ∀ t, (token .anyToken .anyToken some c n).value = some t →
      stop c (token .anyToken .anyToken some c n).notes.clear =
        stop' c (token .anyToken .anyToken some c n).notes.clear) :
    tokenBefore stop c n = tokenBefore stop' c n := by
  unfold tokenBefore
  cases ht : (token .anyToken .anyToken (some : Token → Option Token) c n).value with
  | none => simp only [ht]
  | some t => simp only [ht, h t ht]

/-! ## Short rests -/

/-- The parsers have the same outcomes where fewer than `k` tokens are left. -/
def Agrees (k : Nat) (p q : Parser α) : Prop :=
  ∀ ⦃c⦄, c.rest.length < k → ∀ n, p c n = q c n

namespace Agrees

variable {k : Nat}

theorem refl (k : Nat) (p : Parser α) : Agrees k p p :=
  fun _ _ _ ↦ rfl

protected theorem bind (hpq : Agrees k p q) (hp : p.Moves) (hfg : ∀ x, Agrees k (f x) (g x)) :
    Agrees k (p >>= f) (q >>= g) := by
  intro c hc n
  refine bind_congr (hpq hc n) fun x hx ↦ hfg x ?_ _
  exact Nat.lt_of_le_of_lt (hp.length_le hx) hc

/-- Behind a token fewer tokens are left. -/
theorem behind (hp : p.Takes) (hfg : ∀ x, Agrees k (f x) (g x)) :
    Agrees (k + 1) (p >>= f) (p >>= g) := by
  intro c hc n
  refine bind_congr rfl fun x hx ↦ hfg x ?_ _
  exact Nat.lt_of_lt_of_le (hp.length_lt hx) (Nat.le_of_lt_succ hc)

protected theorem or {p' q' : Parser α} (hp : Agrees k p p') (hq : Agrees k q q') :
    Agrees k (p.or q) (p'.or q') :=
  fun _ hc n ↦ or_congr (hp hc n) fun _ ↦ hq hc _

protected theorem optional (h : Agrees k p q) : Agrees k (optional p) (optional q) :=
  fun _ hc n ↦ optional_congr (h hc n)

protected theorem many (h : Agrees k p q) : Agrees k (many p) (many q) := by
  intro c hc n
  induction hlength : c.rest.length using Nat.strongRecOn generalizing c n with
  | _ length ih =>
    have hpq := h hc n
    cases hx : (p c n).value with
    | none => rw [many_of_none hx, many_of_none (hpq ▸ hx), hpq]
    | some x =>
      by_cases hlt : (p c n).cursor.rest.length < c.rest.length
      · have hmore := ih _ (hlength ▸ hlt) (Nat.lt_trans hlt hc) (p c n).notes rfl
        rw [many_of_some hx hlt, hmore, hpq]
        exact (many_of_some (hpq ▸ hx) (hpq ▸ hlt)).symm
      · have hidle := Nat.le_of_not_lt hlt
        rw [many_of_idle hx hidle, many_of_idle (hpq ▸ hx) (hpq ▸ hidle), hpq]

protected theorem labelledWith (h : Agrees k p q) (label : Label) (isRule : Bool) :
    Agrees k (labelledWith label isRule p) (labelledWith label isRule q) :=
  fun _ hc n ↦ labelledWith_congr (h hc n.clear)

protected theorem separated₁ (h : Agrees k p q) (hp : p.Moves) :
    Agrees k (separated₁ p) (separated₁ q) := by
  have hmore : Agrees k (moreAfterCommas p) (moreAfterCommas q) :=
    ((refl k _).bind (Takes.sign .comma).moves fun _ ↦ h).many
  exact h.bind hp fun _ ↦ hmore.bind hp.moreAfterCommas fun _ ↦ refl k _

protected theorem separated (h : Agrees k p q) (hp : p.Moves) :
    Agrees k (separated p) (separated q) :=
  (h.separated₁ hp).optional.bind hp.separated₁.optional fun _ ↦ refl k _

protected theorem between {opening closing : Sign} (h : Agrees k p q) (hp : p.Moves) :
    Agrees k (between opening closing p) (between opening closing q) :=
  (refl k _).bind (Takes.sign opening).moves fun _ ↦ h.bind hp fun _ ↦ refl k _

/-- What stands between two signs is behind the first one. -/
theorem behind_opening {opening closing : Sign} (h : Agrees k p q) (hp : p.Moves) :
    Agrees (k + 1) (between opening closing p) (between opening closing q) :=
  behind (Takes.sign opening) fun _ ↦ h.bind hp fun _ ↦ refl k _

end Agrees

/-! ## The bound on the depth -/

section

variable {within : Nat → Parser γ} {around : Parser γ → Parser γ} {rule : Parser γ}

/-- Bounds above the number of tokens left are alike, if the rule calls itself behind tokens. -/
theorem agrees_within (hsucc : ∀ depth, within (depth + 1) = around (within depth))
    (haround : ∀ depth k q, Agrees k (within depth) q →
      Agrees (k + 1) (around (within depth)) (around q))
    {k i j : Nat} (hi : k ≤ i) (hj : k ≤ j) : Agrees k (within i) (within j) := by
  induction k generalizing i j with
  | zero => exact fun _ hc ↦ absurd hc (Nat.not_lt_zero _)
  | succ k ih =>
    obtain ⟨i, rfl⟩ := Nat.exists_eq_add_one.2 (Nat.zero_lt_of_lt hi)
    obtain ⟨j, rfl⟩ := Nat.exists_eq_add_one.2 (Nat.zero_lt_of_lt hj)
    rw [hsucc, hsucc]
    exact haround i k _ (ih (Nat.le_of_succ_le_succ hi) (Nat.le_of_succ_le_succ hj))

/-- With the bound that is taken from the tokens left, the rule is its body around itself. -/
theorem eq_around (hsucc : ∀ depth, within (depth + 1) = around (within depth))
    (haround : ∀ depth k q, Agrees k (within depth) q →
      Agrees (k + 1) (around (within depth)) (around q))
    (hrule : ∀ c n, rule c n = within (c.rest.length + 1) c n) : rule = around rule := by
  have hbelow : ∀ k, Agrees k (within k) rule := by
    intro k d hd m
    rw [hrule]
    exact agrees_within hsucc haround hd (Nat.le_refl _) (Nat.lt_succ_self _) m
  funext c n
  rw [hrule, hsucc]
  exact haround _ _ rule (hbelow _) (Nat.lt_succ_self _) n

end

end Parser

namespace Grammar

open MasCheck.Parser

section

variable {k : Nat}

theorem agrees_initValueAround {p q : Parser InitValue} (h : Agrees k p q) (hp : p.Moves) :
    Agrees (k + 1) (initValueAround p) (initValueAround q) := by
  have hargs : Agrees k (between .leftParen .rightParen (separated₁ p))
      (between .leftParen .rightParen (separated₁ q)) :=
    (h.separated₁ hp).between hp.separated₁
  have hitems : Agrees (k + 1) (between .leftBracket .rightBracket (separated p))
      (between .leftBracket .rightBracket (separated q)) :=
    (h.separated hp).behind_opening hp.separated
  apply Agrees.labelledWith
  refine Agrees.or ?_ ((hitems.bind hp.separated.between fun _ ↦ .refl _ _).or (.refl _ _))
  exact .behind (Takes.token _ _ _) fun _ ↦ hargs.bind hp.separated₁.between fun _ ↦ .refl _ _

theorem agrees_termItemAround {p q : Parser (List Token)} (h : Agrees k p q) (hp : p.Moves) :
    Agrees (k + 1) (termItemAround p) (termItemAround q) := by
  refine Agrees.or ?_ (.refl _ _)
  exact .behind (Takes.sign .leftParen) fun _ ↦ h.many.bind hp.many fun _ ↦ .refl _ _

end

theorem initValue_eq : initValue = initValueAround initValue := by
  refine eq_around (fun _ ↦ rfl) (fun depth _ _ h ↦ ?_) fun _ _ ↦ rfl
  exact agrees_initValueAround h (confined_initValueWithin depth).moves

theorem termItem_eq : termItem = termItemAround termItem := by
  refine eq_around (fun _ ↦ rfl) (fun depth _ _ h ↦ ?_) fun _ _ ↦ rfl
  exact agrees_termItemAround h (confined_termItemWithin depth).moves

end Grammar

end MasCheck
