import Mathlib.Data.List.Flatten
import MasCheck.Proofs.Grammar.Mending

/-!
# Blocks with broken statements

How outcomes over broken chunks are put together. A block is read up to its closing brace whatever
its chunks are, and each broken chunk is told once and in its turn.
-/

namespace MasCheck

/-! ## Outcomes of parts -/

namespace Outcome.Mends

variable {α β : Type} {o : Outcome α} {c d : Cursor} {us ts : List Lexeme} {ks : List Chunk}
  {S : α → Prop} {T : β → Prop}

theorem of_yields {x : α} (h : o.Yields x d) (hd : c.Reaches ts d) (hx : S x) :
    o.Mends c ts [] S := by
  refine ⟨⟨x, h.value, hx⟩, ?_, ?_⟩
  · rwa [h.cursor]
  · rw [h.emitted]
    exact .nil

theorem map (h : o.Mends c ts ks S) {f : α → β} (hf : ∀ x, S x → T (f x)) :
    (o.map f).Mends c ts ks T := by
  obtain ⟨x, hx, hS⟩ := h.value
  exact ⟨⟨f x, congrArg (Option.map f) hx, hf x hS⟩, h.reaches, h.blames⟩

theorem imp {S' : α → Prop} (h : o.Mends c ts ks S) (hS : ∀ x, S x → S' x) :
    o.Mends c ts ks S' := by
  obtain ⟨x, hx, hSx⟩ := h.value
  exact ⟨⟨x, hx, hS x hSx⟩, h.reaches, h.blames⟩

/-- Tokens that were read before are put in front. -/
theorem behind (h : o.Mends d ts ks S) (hd : c.Reaches us d) : o.Mends c (us ++ ts) ks S :=
  ⟨h.value, hd.trans h.reaches, h.blames⟩

end Outcome.Mends

namespace Parser

variable {α β ι : Type} {p : Parser α} {c d : Cursor} {n n' : Notes} {ts us rest : List Lexeme}
  {ks js : List Chunk} {S : α → Prop} {T : β → Prop} {x : α} {l : Lexeme} {a : Span}

theorem bind_of_yields (h : (p c n).Yields x d) (f : α → Parser β) :
    (p >>= f) c n = f x d (p c n).notes := by
  rw [bind_of_some h.value, h.emitted, h.cursor]
  rfl

theorem sign_step {s : Sign} (hrest : c.rest = ⟨.sign s, a⟩ :: rest) (hs : s ≠ .dot)
    (hn : n.Marked c.Near) :
    ∃ d n', sign s c n = .done () d n' ∧ c.Reaches [⟨.sign s, a⟩] d ∧ d.rest = rest ∧
      n'.Marked d.Near := by
  have hsign := sign_of_rest (n := n) hrest
  have hnear := (Confined.sign hs).near_after (x := ()) hn (by rw [hsign]; rfl)
  rw [hsign] at hnear
  exact ⟨_, _, hsign, .single hrest, rfl, hnear⟩

/-- What follows the broken chunks is read without recovery. -/
theorem mends_bind {f : α → Parser β} (hp : (p c n).Mends c us ks S)
    (hf : ∀ x n', S x → ∃ y d, (f x (p c n).cursor n').Yields y d ∧
      (p c n).cursor.Reaches ts d ∧ T y) :
    ((p >>= f) c n).Mends c (us ++ ts) ks T := by
  obtain ⟨x, hx, hS⟩ := hp.value
  obtain ⟨y, d, hy, hd, hT⟩ := hf x (p c n).notes hS
  rw [bind_of_some hx]
  refine ⟨⟨y, hy.value, hT⟩, ?_, ?_⟩
  · exact hp.reaches.trans (hy.cursor ▸ hd)
  · change List.Forall₂ Failure.Blames (_ ++ _) ks
    rw [hy.emitted, List.append_nil]
    exact hp.blames

theorem mends_map (h : (p c n).Mends c ts ks S) (g : α → β) (hg : ∀ x, S x → T (g x)) :
    ((do let x ← p; return g x : Parser β) c n).Mends c ts ks T := by
  have hreturn : ((do let x ← p; return g x : Parser β) c n).Mends c (ts ++ []) ks T :=
    mends_bind h fun x n' hx ↦ ⟨g x, _, Outcome.yields_done _ _ _, .refl _, hg x hx⟩
  rwa [List.append_nil] at hreturn

theorem mends_closed {e : Span} (h : (p c n).Mends c us ks S)
    (hrest : c.rest = us ++ ⟨.sign .rightBrace, e⟩ :: rest) (g : α → β) (hg : ∀ x, S x → T (g x)) :
    ((do let x ← p; sign .rightBrace; return g x : Parser β) c n).Mends c
      (us ++ [⟨.sign .rightBrace, e⟩]) ks T := by
  have hclose : (p c n).cursor.rest = ⟨.sign .rightBrace, e⟩ :: rest :=
    List.append_cancel_left (h.reaches.rest_eq.symm.trans hrest)
  refine mends_bind h fun x n' hx ↦ ⟨g x, _, ?_, .single hclose, hg x hx⟩
  rw [bind_of_done (sign_of_rest hclose)]
  exact Outcome.yields_done _ _ _

theorem mends_located (h : (p c n).Mends c ts ks S) (hts : ts ≠ []) :
    (located p c n).Mends c ts ks fun x ↦ S x.node ∧ x.span = Lexeme.spanOf ts :=
  h.map fun _ hx ↦ ⟨hx, h.reaches.spanTo_eq hts⟩

/-- Labels leave it open what a failure expects, but not what it is about. -/
theorem mends_labelledWith (label : Label) (isRule : Bool) (h : (p c n.clear).Mends c ts ks S) :
    (labelledWith label isRule p c n).Mends c ts ks S := by
  refine ⟨h.value, h.reaches, ?_⟩
  unfold labelledWith
  cases isRule with
  | false => exact h.blames
  | true =>
    refine List.forall₂_map_left_iff.2 (h.blames.imp fun f k hf ↦ ?_)
    have hspan : (f.within label).span = f.span := by
      unfold Failure.within
      split <;> rfl
    unfold Failure.Blames
    rwa [hspan]

theorem mends_or_left {q : Parser α} (h : (p c n).Mends c ts ks S) :
    ((p.or q) c n).Mends c ts ks S := by
  obtain ⟨x, hx, -⟩ := h.value
  rwa [or_of_some hx]

theorem mends_or_right {q : Parser α} (hp : (p c n).value = none)
    (h : (q c (p c n).notes).Mends c ts ks S) : ((p.or q) c n).Mends c ts ks S := by
  rwa [or_of_none hp]

theorem mends_resumeBefore (stop : Parser Unit) (h : (p c n).Mends c ts ks S) :
    (resumeBefore stop p c n).Mends c ts ks S := by
  obtain ⟨x, hx, -⟩ := h.value
  rwa [resumeBefore_of_some stop hx]

theorem mends_recoverBy (skip : Parser α) (h : (p c n).Mends c ts ks S) :
    (recoverBy skip p c n).Mends c ts ks S := by
  obtain ⟨x, hx, -⟩ := h.value
  rwa [recoverBy_of_some skip hx]

theorem mends_many {R : ι → α → Prop} {tokens : ι → List Lexeme} {broken : ι → List Chunk}
    {I : Cursor → Notes → Prop} (items : List ι)
    (hstep : ∀ i c n rest, c.rest = tokens i ++ rest → I c n →
      (p c n).Mends c (tokens i) (broken i) (R i) ∧ I (p c n).cursor (p c n).notes)
    (hsolid : ∀ i, tokens i ≠ []) (hstop : p.Refuses rest)
    (hrest : c.rest = items.flatMap tokens ++ rest) (hI : I c n) :
    (many p c n).Mends c (items.flatMap tokens) (items.flatMap broken) (List.Forall₂ R items) := by
  induction items generalizing c n with
  | nil =>
    rw [many_of_none (hstop c n hrest)]
    exact ⟨⟨[], rfl, .nil⟩, .refl c, .nil⟩
  | cons i items ih =>
    rw [List.flatMap_cons, List.append_assoc] at hrest
    obtain ⟨hitem, hnext⟩ := hstep i c n _ hrest hI
    obtain ⟨x, hx, hR⟩ := hitem.value
    have hrest' : (p c n).cursor.rest = items.flatMap tokens ++ rest :=
      List.append_cancel_left (hitem.reaches.rest_eq.symm.trans hrest)
    have hlt : (p c n).cursor.rest.length < c.rest.length := by
      have hpos := List.length_pos_iff.2 (hsolid i)
      rw [hitem.reaches.rest_eq, List.length_append]
      omega
    have hitems := ih hrest' hnext
    obtain ⟨xs, hxs, hRs⟩ := hitems.value
    rw [many_of_some hx hlt]
    refine ⟨⟨x :: xs, ?_, .cons hR hRs⟩, hitem.reaches.trans hitems.reaches, ?_⟩
    · exact congrArg (Option.map (x :: ·)) hxs
    · exact List.rel_append hitem.blames hitems.blames

/-! ## Blocks -/

end Parser

/-- Chunks between braces. -/
structure Block where
  opening : Span
  chunks : List Chunk
  closing : Span

namespace Block

def body (b : Block) : List Lexeme :=
  b.chunks.flatMap Chunk.tokens

def tokens (b : Block) : List Lexeme :=
  ⟨.sign .leftBrace, b.opening⟩ :: b.body ++ [⟨.sign .rightBrace, b.closing⟩]

theorem sublist_body (b : Block) : b.body.Sublist b.tokens :=
  (List.sublist_append_left _ _).cons _

theorem sublist_broken {α : Type} (b : Block) (P : Production α) :
    ((P.broken b.chunks).flatMap Chunk.tokens).Sublist b.tokens :=
  (List.filter_sublist.flatMap _).trans b.sublist_body

/-- What the chunks are worth as statements, one by one. -/
def Mended {α : Type} (b : Block) (P : Production α) (found : List (Option α)) : Prop :=
  List.Forall₂ (fun k v ↦ P.Mended k.tokens v) b.chunks found

end Block

namespace Parser

variable {α β : Type} {p : Parser α} {P : Production α} {b : Block} {c : Cursor} {n : Notes}
  {rest : List Lexeme}

theorem flatMap_broken (P : Production α) (ks : List Chunk) :
    ks.flatMap (fun k ↦ P.broken [k]) = P.broken ks := by
  induction ks with
  | nil => rfl
  | cons k ks ih => rw [List.flatMap_cons, ih, ← Production.broken_cons]

/-- The statements of a block, up to its brace. -/
theorem Realizes.mends_statements (hp : Realizes p P anywhere) (hconf : Confined .whole p)
    (hsolid : P.Solid) (hclose : ∀ l rest, l.token = .sign .rightBrace → p.Refuses (l :: rest))
    (hrest : c.rest = b.body ++ ⟨.sign .rightBrace, b.closing⟩ :: rest) (hn : n.Marked c.Near) :
    (Parser.many (Grammar.statement p) c n).Mends c b.body (P.broken b.chunks) (b.Mended P) := by
  rw [← flatMap_broken]
  refine mends_many (I := fun c n ↦ n.Marked c.Near) b.chunks ?_ ?_ ?_ hrest hn
  · exact fun k c n rest hrest hn ↦ hp.mends_statement hconf hsolid hrest hn
  · exact fun k ↦ List.append_ne_nil_of_right_ne_nil _ (List.cons_ne_nil _ _)
  · exact refuses_statement rfl (hclose _ _ rfl)

theorem Realizes.mends_block (hp : Realizes p P anywhere) (hconf : Confined .whole p)
    (hsolid : P.Solid) (hclose : ∀ l rest, l.token = .sign .rightBrace → p.Refuses (l :: rest))
    (hrest : c.rest = b.tokens ++ rest) (hn : n.Marked c.Near) :
    (Parser.between .leftBrace .rightBrace (Parser.many (Grammar.statement p)) c n).Mends c b.tokens
      (P.broken b.chunks) (b.Mended P) := by
  have hopen : c.rest = ⟨.sign .leftBrace, b.opening⟩ ::
      (b.body ++ ⟨.sign .rightBrace, b.closing⟩ :: rest) := by
    simpa [Block.tokens] using hrest
  obtain ⟨d, n', hsign, hd, hdrest, hnear⟩ := sign_step hopen (by decide) hn
  have hbody := hp.mends_statements hconf hsolid hclose hdrest hnear
  have hclosed := mends_closed hbody hdrest id fun _ hfound ↦ hfound
  unfold Parser.between
  rw [bind_of_done hsign]
  exact hclosed.behind hd

end Parser

end MasCheck
