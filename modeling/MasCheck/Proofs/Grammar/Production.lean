import MasCheck.Token.Basic

/-!
# Productions

A production says which lists of tokens it derives and with which value. Nothing is said about how
to look for a derivation: an alternative is a disjunction, a repetition takes any number of items,
and a sequence may be cut anywhere. What a production derives does not depend on the tokens around
it.

The values of productions are trees, so that a grammar made of productions gives a meaning to every
list of tokens in its language.
-/

namespace MasCheck

/-- The lists of tokens that are derived, each with its value. -/
def Production (α : Type) :=
  List Lexeme → α → Prop

namespace Lexeme

/-- The place of a list of tokens, from its first token to its last. -/
def spanOf : List Lexeme → Span
  | [] => ⟨0, 0⟩
  | l :: ls => ⟨l.span.start, ((l :: ls).getLast (List.cons_ne_nil l ls)).span.stop⟩

theorem spanOf_concat (l k : Lexeme) (ls : List Lexeme) :
    spanOf (l :: (ls ++ [k])) = ⟨l.span.start, k.span.stop⟩ := by
  have hlast := List.getLast_concat (l := l :: ls) (a := k)
  exact congrArg (fun last : Lexeme ↦ (⟨l.span.start, last.span.stop⟩ : Span)) hlast

end Lexeme

namespace Production

variable {α β γ : Type}

protected def pure (x : α) : Production α := fun ts y ↦
  ts = [] ∧ y = x

protected def bind (P : Production α) (f : α → Production β) : Production β := fun ts y ↦
  ∃ us vs x, ts = us ++ vs ∧ P us x ∧ f x vs y

instance : Monad Production where
  pure := Production.pure
  bind := Production.bind

def map (g : α → β) (P : Production α) : Production β := fun ts y ↦
  ∃ x, P ts x ∧ g x = y

/-- One token that the function accepts. -/
def token (f : Token → Option α) : Production α := fun ts x ↦
  ∃ l, ts = [l] ∧ f l.token = some x

def exactly (t : Token) : Production Unit := fun ts _ ↦
  ∃ span, ts = [⟨t, span⟩]

def keyword (word : Keyword) : Production Unit :=
  exactly (.keyword word)

def sign (s : Sign) : Production Unit :=
  exactly (.sign s)

def or (P Q : Production α) : Production α := fun ts x ↦
  P ts x ∨ Q ts x

def optional (P : Production α) : Production (Option α)
  | ts, none => ts = []
  | ts, some x => P ts x

inductive Many (P : Production α) : List Lexeme → List α → Prop
  | nil : Many P [] []
  | cons {us vs : List Lexeme} {x : α} {xs : List α} :
      P us x → Many P vs xs → Many P (us ++ vs) (x :: xs)

def many (P : Production α) : Production (List α) :=
  Many P

/-- At least one item, with commas between the items. -/
inductive Separated (P : Production α) : List Lexeme → List α → Prop
  | one {ts : List Lexeme} {x : α} : P ts x → Separated P ts [x]
  | cons {us vs : List Lexeme} {x : α} {xs : List α} {span : Span} :
      P us x → Separated P vs xs → Separated P (us ++ ⟨.sign .comma, span⟩ :: vs) (x :: xs)

def separated₁ (P : Production α) : Production (List α) :=
  Separated P

def separated (P : Production α) : Production (List α) :=
  (optional (separated₁ P)).map fun xs ↦ xs.getD []

def between (opening closing : Sign) (P : Production α) : Production α := do
  sign opening
  let x ← P
  sign closing
  return x

/-- The value with the place of its tokens. -/
def located (P : Production α) : Production (Located α) := fun ts x ↦
  P ts x.node ∧ x.span = Lexeme.spanOf ts

/-- Every derivation takes a token. -/
def Solid (P : Production α) : Prop :=
  ∀ ts x, P ts x → ts ≠ []

@[ext] theorem ext {P Q : Production α} (h : ∀ ts x, P ts x ↔ Q ts x) : P = Q :=
  funext fun ts ↦ funext fun x ↦ propext (h ts x)

/-! ## Derivations, case by case -/

/-- What stands before a sign, the sign, and what stands after it. -/
theorem sign_bind_iff {s : Sign} {f : Unit → Production β} {ts : List Lexeme} {y : β} :
    (sign s >>= f) ts y ↔ ∃ span vs, ts = ⟨.sign s, span⟩ :: vs ∧ f () vs y := by
  constructor
  · rintro ⟨us, vs, x, rfl, ⟨span, rfl⟩, hf⟩
    exact ⟨span, vs, rfl, hf⟩
  · rintro ⟨span, vs, rfl, hf⟩
    exact ⟨[⟨.sign s, span⟩], vs, (), rfl, ⟨span, rfl⟩, hf⟩

theorem between_iff {opening closing : Sign} {P : Production α} {ts : List Lexeme} {x : α} :
    between opening closing P ts x ↔
      ∃ a us b, ts = ⟨.sign opening, a⟩ :: us ++ [⟨.sign closing, b⟩] ∧ P us x := by
  constructor
  · intro h
    obtain ⟨a, vs, rfl, us, ws, y, rfl, hP, hclose⟩ := sign_bind_iff.1 h
    obtain ⟨b, rest, rfl, rfl, rfl⟩ := sign_bind_iff.1 hclose
    exact ⟨a, us, b, rfl, hP⟩
  · rintro ⟨a, us, b, rfl, hP⟩
    have hclose : (do sign closing; return x : Production α) [⟨.sign closing, b⟩] x :=
      sign_bind_iff.2 ⟨b, [], rfl, rfl, rfl⟩
    exact sign_bind_iff.2 ⟨a, us ++ [⟨.sign closing, b⟩], rfl, us, _, x, rfl, hP, hclose⟩

theorem separated₁_eq (P : Production α) : separated₁ P = (do
    let x ← P
    let xs ← many (do
      sign .comma
      P)
    return x :: xs) := by
  ext ts xs
  constructor
  · intro h
    induction h with
    | @one ts x hx =>
      exact ⟨ts, [], x, (List.append_nil ts).symm, hx, [], [], [], rfl, .nil, rfl, rfl⟩
    | @cons us vs x xs span hx _ ih =>
      obtain ⟨ws, zs, y, rfl, hy, ws', zs', ys, rfl, hys, rfl, rfl⟩ := ih
      have hcomma := Many.cons (sign_bind_iff.2 ⟨span, ws, rfl, hy⟩) hys
      exact ⟨us, _, x, rfl, hx, _, [], y :: ys, by simp, hcomma, rfl, rfl⟩
  · rintro ⟨us, vs, x, rfl, hx, ws, zs, xs, rfl, hxs, rfl, rfl⟩
    rw [List.append_nil]
    induction hxs generalizing us x with
    | nil =>
      rw [List.append_nil]
      exact .one hx
    | @cons ts ws y ys hy _ ih =>
      obtain ⟨span, zs, rfl, hP⟩ := sign_bind_iff.1 hy
      exact .cons hx (ih zs y hP)

theorem Many.imp {P Q : Production α} {ts : List Lexeme} {xs : List α} (h : Many P ts xs)
    (hPQ : ∀ us x, P us x → Q us x) : Many Q ts xs := by
  induction h with
  | nil => exact .nil
  | cons hx _ ih => exact .cons (hPQ _ _ hx) ih

theorem Separated.imp {P Q : Production α} {ts : List Lexeme} {xs : List α}
    (h : Separated P ts xs) (hPQ : ∀ us x, us.length ≤ ts.length → P us x → Q us x) :
    Separated Q ts xs := by
  induction h with
  | one hx => exact .one (hPQ _ _ (Nat.le_refl _) hx)
  | @cons us vs x xs span hx _ ih =>
    have hlength : (us ++ ⟨.sign .comma, span⟩ :: vs).length = us.length + (vs.length + 1) := by
      simp
    refine .cons (hPQ us x (by omega) hx) (ih fun ws y hws hy ↦ hPQ ws y ?_ hy)
    omega

/-- An item is derived by some of the tokens. -/
theorem Many.exists_of_mem {P : Production α} {ts : List Lexeme} {xs : List α} {x : α}
    (h : Many P ts xs) (hx : x ∈ xs) : ∃ us, us ⊆ ts ∧ P us x := by
  induction h with
  | nil => exact absurd hx List.not_mem_nil
  | @cons us vs y ys hy _ ih =>
    rcases List.mem_cons.1 hx with rfl | hx
    · exact ⟨us, List.subset_append_left us vs, hy⟩
    · obtain ⟨ws, hws, hP⟩ := ih hx
      exact ⟨ws, List.subset_append_of_subset_right us hws, hP⟩

theorem Separated.exists_of_mem {P : Production α} {ts : List Lexeme} {xs : List α} {x : α}
    (h : Separated P ts xs) (hx : x ∈ xs) : ∃ us, us ⊆ ts ∧ P us x := by
  induction h with
  | @one us y hy =>
    obtain rfl := List.mem_singleton.1 hx
    exact ⟨us, List.Subset.refl us, hy⟩
  | @cons us vs y ys span hy _ ih =>
    rcases List.mem_cons.1 hx with rfl | hx
    · exact ⟨us, List.subset_append_left us _, hy⟩
    · obtain ⟨ws, hws, hP⟩ := ih hx
      exact ⟨ws, List.subset_append_of_subset_right us (List.subset_cons_of_subset _ hws), hP⟩

/-! ## Changing values -/

@[simp] theorem map_map (g : β → γ) (f : α → β) (P : Production α) :
    (P.map f).map g = P.map (g ∘ f) := by
  ext ts z
  constructor
  · rintro ⟨y, ⟨x, hx, rfl⟩, rfl⟩
    exact ⟨x, hx, rfl⟩
  · rintro ⟨x, hx, rfl⟩
    exact ⟨f x, ⟨x, hx, rfl⟩, rfl⟩

@[simp] theorem map_id (P : Production α) : P.map id = P := by
  ext ts x
  constructor
  · rintro ⟨y, hy, rfl⟩
    exact hy
  · exact fun hx ↦ ⟨x, hx, rfl⟩

@[simp] theorem map_pure (g : α → β) (x : α) : (pure x : Production α).map g = pure (g x) := by
  ext ts y
  constructor
  · rintro ⟨z, ⟨rfl, rfl⟩, rfl⟩
    exact ⟨rfl, rfl⟩
  · rintro ⟨rfl, rfl⟩
    exact ⟨x, ⟨rfl, rfl⟩, rfl⟩

theorem bind_pure_eq_map (g : α → β) (P : Production α) :
    (do let x ← P; return g x) = P.map g := by
  ext ts y
  constructor
  · rintro ⟨us, vs, x, rfl, hx, rfl, rfl⟩
    exact ⟨x, by rwa [List.append_nil], rfl⟩
  · rintro ⟨x, hx, rfl⟩
    exact ⟨ts, [], x, (List.append_nil ts).symm, hx, rfl, rfl⟩

theorem map_bind (g : α → β) (P : Production α) (f : β → Production γ) :
    P.map g >>= f = P >>= fun x ↦ f (g x) := by
  ext ts z
  constructor
  · rintro ⟨us, vs, y, rfl, ⟨x, hx, rfl⟩, hz⟩
    exact ⟨us, vs, x, rfl, hx, hz⟩
  · rintro ⟨us, vs, x, rfl, hx, hz⟩
    exact ⟨us, vs, g x, rfl, ⟨x, hx, rfl⟩, hz⟩

theorem between_map (opening closing : Sign) (g : α → β) (P : Production α) :
    between opening closing (P.map g) = (between opening closing P).map g := by
  ext ts y
  constructor
  · intro h
    obtain ⟨a, us, b, rfl, x, hx, rfl⟩ := between_iff.1 h
    exact ⟨x, between_iff.2 ⟨a, us, b, rfl, hx⟩, rfl⟩
  · rintro ⟨x, h, rfl⟩
    obtain ⟨a, us, b, rfl, hx⟩ := between_iff.1 h
    exact between_iff.2 ⟨a, us, b, rfl, x, hx, rfl⟩

theorem optional_map (g : α → β) (P : Production α) :
    (P.map g).optional = P.optional.map (Option.map g) := by
  ext ts y
  cases y with
  | none =>
    constructor
    · exact fun h ↦ ⟨none, h, rfl⟩
    · rintro ⟨x | x, hx, h⟩
      · exact hx
      · cases h
  | some y =>
    constructor
    · rintro ⟨x, hx, rfl⟩
      exact ⟨some x, hx, rfl⟩
    · rintro ⟨x | x, hx, h⟩
      · cases h
      · exact ⟨x, hx, Option.some.inj h⟩

theorem many_map (g : α → β) (P : Production α) :
    (P.map g).many = P.many.map (List.map g) := by
  ext ts ys
  constructor
  · intro h
    induction h with
    | nil => exact ⟨[], .nil, rfl⟩
    | cons hx _ ih =>
      obtain ⟨x, hx, rfl⟩ := hx
      obtain ⟨xs, hxs, rfl⟩ := ih
      exact ⟨x :: xs, .cons hx hxs, rfl⟩
  · rintro ⟨xs, hxs, rfl⟩
    induction hxs with
    | nil => exact .nil
    | cons hx _ ih => exact .cons ⟨_, hx, rfl⟩ ih

/-! ## Derivations that take a token -/

theorem Solid.token (f : Token → Option α) : (token f).Solid := by
  rintro ts x ⟨l, rfl, -⟩
  exact List.cons_ne_nil l []

theorem Solid.exactly (t : Token) : (exactly t).Solid := by
  rintro ts x ⟨span, rfl⟩
  exact List.cons_ne_nil _ []

theorem Solid.or {P Q : Production α} (hP : P.Solid) (hQ : Q.Solid) : (P.or Q).Solid := by
  rintro ts x (h | h)
  · exact hP ts x h
  · exact hQ ts x h

theorem Solid.map {P : Production α} (hP : P.Solid) (g : α → β) : (P.map g).Solid := by
  rintro ts y ⟨x, hx, rfl⟩
  exact hP ts x hx

theorem Solid.located {P : Production α} (hP : P.Solid) : P.located.Solid := by
  rintro ts x ⟨hx, -⟩
  exact hP ts x.node hx

theorem Solid.of_located {P : Production α} (hP : P.located.Solid) : P.Solid := by
  intro ts x hx
  exact hP ts ⟨x, Lexeme.spanOf ts⟩ ⟨hx, rfl⟩

/-- A sequence takes a token when its first part does. -/
theorem Solid.bind {P : Production α} (hP : P.Solid) (f : α → Production β) :
    (P >>= f).Solid := by
  rintro ts y ⟨us, vs, x, rfl, hx, -⟩
  exact List.append_ne_nil_of_left_ne_nil (hP us x hx) vs

/-- A sequence takes a token when its second part does. -/
theorem Solid.bind_right (P : Production α) {f : α → Production β} (hf : ∀ x, (f x).Solid) :
    (P >>= f).Solid := by
  rintro ts y ⟨us, vs, x, rfl, -, hy⟩
  exact List.append_ne_nil_of_right_ne_nil us (hf x vs y hy)

/-! ## Derivations that end with a closing brace -/

variable {P Q : Production α}

/-- Every derivation ends with a closing brace. -/
def Closes (P : Production α) : Prop :=
  ∀ ts x, P ts x → ∃ us span, ts = us ++ [⟨.sign .rightBrace, span⟩]

theorem closes_brace (x : α) : (do sign .rightBrace; return x : Production α).Closes := by
  intro ts y h
  obtain ⟨span, vs, rfl, rfl, -⟩ := sign_bind_iff.1 h
  exact ⟨[], span, rfl⟩

theorem closes_bind (P : Production α) {f : α → Production β} (hf : ∀ x, (f x).Closes) :
    (P >>= f).Closes := by
  rintro ts y ⟨us, vs, x, rfl, -, hx⟩
  obtain ⟨ws, span, rfl⟩ := hf x vs y hx
  exact ⟨us ++ ws, span, (List.append_assoc ..).symm⟩

theorem closes_between (P : Production α) : (between .leftBrace .rightBrace P).Closes :=
  closes_bind _ fun _ ↦ closes_bind _ closes_brace

theorem Closes.map (hP : P.Closes) (g : α → β) : (P.map g).Closes := by
  rintro ts y ⟨x, hx, -⟩
  exact hP ts x hx

theorem Closes.located (hP : P.Closes) : P.located.Closes :=
  fun ts x h ↦ hP ts x.node h.1

theorem Closes.or (hP : P.Closes) (hQ : Q.Closes) : (P.or Q).Closes :=
  fun ts x h ↦ h.elim (hP ts x) (hQ ts x)

end Production

end MasCheck
