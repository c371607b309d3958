import MasCheck.Proofs.Grammar.Acceptance
import MasCheck.Proofs.Tree.Erasure
import Mathlib.Data.List.Forall2

/-!
# Two parses of the same tokens

A parser decides by tokens and by their number, never by their places. Run on the same tokens at
other places it succeeds or fails in the same way, reads the same but for places, and has the same
failures about corresponding places. Which places correspond is a parameter: those of the tokens of
one number, and the ends.
-/

namespace MasCheck

open HasErasure (erased)

variable {S : Span → Span → Prop}

/-- The same token at corresponding places. -/
def Lexeme.Alike (S : Span → Span → Prop) (k l : Lexeme) : Prop :=
  k.token = l.token ∧ S k.span l.span

structure Failure.Alike (S : Span → Span → Prop) (f g : Failure) : Prop where
  span : S f.span g.span
  expected : f.expected = g.expected
  found : f.found = g.found
  contexts : f.contexts = g.contexts

structure Pending.Alike (S : Span → Span → Prop) (p q : Pending) : Prop where
  index : p.index = q.index
  failure : p.failure.Alike S q.failure

structure Notes.Alike (S : Span → Span → Prop) (n m : Notes) : Prop where
  pending : Option.Rel (Pending.Alike S) n.pending m.pending
  reach : n.reach = m.reach

structure Cursor.Alike (S : Span → Span → Prop) (c d : Cursor) : Prop where
  index : c.index = d.index
  rest : List.Forall₂ (Lexeme.Alike S) c.rest d.rest
  finish : S ⟨c.finish, c.finish⟩ ⟨d.finish, d.finish⟩

structure Outcome.Alike {α : Type} [HasErasure α] (S : Span → Span → Prop) (o o' : Outcome α) :
    Prop where
  value : erased o.value = erased o'.value
  cursor : o.cursor.Alike S o'.cursor
  notes : o.notes.Alike S o'.notes
  emitted : List.Forall₂ (Failure.Alike S) o.emitted o'.emitted

/-! ## Failures and notes -/

theorem Failure.Alike.within {f g : Failure} (h : f.Alike S g) (label : Label) :
    (f.within label).Alike S (g.within label) := by
  unfold Failure.within
  rw [h.contexts]
  split
  · exact h
  · exact ⟨h.span, h.expected, h.found, rfl⟩

namespace Pending.Alike

variable {p q : Pending} {old old' : Option Pending}

theorem add (h : p.Alike S q) (hold : Option.Rel (Pending.Alike S) old old') :
    (p.add old).Alike S (q.add old') := by
  cases hold with
  | none => exact h
  | @some r r' hr =>
    unfold Pending.add
    dsimp only
    rw [h.index, hr.index]
    split
    · refine ⟨rfl, hr.failure.span, ?_, ?_, hr.failure.contexts⟩
      · exact congrArg₂ Expectation.union hr.failure.expected h.failure.expected
      · exact congrArg₂ Option.or hr.failure.found h.failure.found
    · split
      · exact h
      · exact hr

theorem merge (h : p.Alike S q) (hold : Option.Rel (Pending.Alike S) old old') :
    (p.merge old).Alike S (q.merge old') := by
  cases hold with
  | none => exact h
  | @some r r' hr =>
    unfold Pending.merge
    dsimp only
    rw [h.index, hr.index, h.failure.expected, hr.failure.expected]
    split
    · exact ⟨rfl, hr.failure.span, rfl, hr.failure.found, hr.failure.contexts⟩
    · split
      · exact h
      · exact hr

theorem relabel (h : p.Alike S q) (start : Nat) (label : Label) (isRule : Bool) :
    (p.relabel start label isRule).Alike S (q.relabel start label isRule) := by
  unfold Pending.relabel
  rw [h.index]
  split
  · exact ⟨rfl, h.failure.span, rfl, h.failure.found, h.failure.contexts⟩
  · split
    · exact ⟨rfl, h.failure.within label⟩
    · exact h

end Pending.Alike

namespace Notes.Alike

variable {n m : Notes} {p q : Pending} {old old' : Option Pending}

theorem clear (h : n.Alike S m) : n.clear.Alike S m.clear :=
  ⟨.none, h.reach⟩

theorem withPending (h : n.Alike S m) (hold : Option.Rel (Pending.Alike S) old old') :
    (n.withPending old).Alike S (m.withPending old') :=
  ⟨hold, h.reach⟩

theorem look {i j : Nat} (h : n.Alike S m) (hij : i = j) : (n.look i).Alike S (m.look j) :=
  ⟨h.pending, by rw [Notes.look, Notes.look, h.reach, hij]⟩

theorem add (h : n.Alike S m) (hp : p.Alike S q) : (n.add p).Alike S (m.add q) :=
  ⟨.some (hp.add h.pending), h.reach⟩

theorem failures (h : Option.Rel (Pending.Alike S) old old') :
    List.Forall₂ (Failure.Alike S) (old.toList.map Pending.failure)
      (old'.toList.map Pending.failure) := by
  cases h with
  | none => exact .nil
  | some h => exact .cons h.failure .nil

end Notes.Alike

namespace Cursor.Alike

variable {c d : Cursor}

theorem rest_cases (h : c.Alike S d) : (c.rest = [] ∧ d.rest = []) ∨ ∃ k l ks ls,
    c.rest = k :: ks ∧ d.rest = l :: ls ∧ k.Alike S l ∧ (c.after k ks).Alike S (d.after l ls) := by
  have hrest := h.rest
  revert hrest
  generalize hc : c.rest = cs
  generalize hd : d.rest = ds
  intro hrest
  cases hrest with
  | nil => exact .inl ⟨rfl, rfl⟩
  | @cons k l ks ls hhead htail =>
    exact .inr ⟨k, l, ks, ls, rfl, rfl, hhead, congrArg (· + 1) h.index, htail, h.finish⟩

theorem nextSpan (h : c.Alike S d) : S c.nextSpan d.nextSpan := by
  unfold Cursor.nextSpan
  rcases h.rest_cases with ⟨hc, hd⟩ | ⟨k, l, ks, ls, hc, hd, hsame, -⟩
  · rw [hc, hd]
    exact h.finish
  · rw [hc, hd]
    exact hsame.2

theorem found (h : c.Alike S d) :
    c.rest.head?.map Lexeme.token = d.rest.head?.map Lexeme.token := by
  rcases h.rest_cases with ⟨hc, hd⟩ | ⟨k, l, ks, ls, hc, hd, hsame, -⟩
  · rw [hc, hd]
  · rw [hc, hd]
    exact congrArg some hsame.1

theorem failure (h : c.Alike S d) (expected : Expectation) :
    (c.failure expected).Alike S (d.failure expected) :=
  ⟨h.index, h.nextSpan, rfl, h.found, rfl⟩

end Cursor.Alike

namespace Outcome.Alike

variable {α : Type} [HasErasure α] {o o' : Outcome α} {c d : Cursor} {n m : Notes}

theorem done {x y : α} (hxy : erased x = erased y) (hc : c.Alike S d) (hn : n.Alike S m) :
    (Outcome.done x c n).Alike S (.done y d m) :=
  ⟨congrArg some hxy, hc, hn, .nil⟩

theorem failed (hc : c.Alike S d) (hn : n.Alike S m) :
    (Outcome.failed c n : Outcome α).Alike S (.failed d m) :=
  ⟨rfl, hc, hn, .nil⟩

theorem value_cases (h : o.Alike S o') : (o.value = none ∧ o'.value = none) ∨
    ∃ x y, o.value = some x ∧ o'.value = some y ∧ erased x = erased y := by
  have hvalue : o.value.map erased = o'.value.map erased := h.value
  cases hx : o.value with
  | none =>
    rw [hx] at hvalue
    exact .inl ⟨rfl, Option.map_eq_none_iff.1 hvalue.symm⟩
  | some x =>
    rw [hx] at hvalue
    obtain ⟨y, hy, hxy⟩ := Option.map_eq_some_iff.1 hvalue.symm
    exact .inr ⟨x, y, rfl, hy, hxy.symm⟩

theorem isSome_eq (h : o.Alike S o') : o.value.isSome = o'.value.isSome := by
  rcases h.value_cases with ⟨hx, hy⟩ | ⟨x, y, hx, hy, -⟩
  · rw [hx, hy]
  · rw [hx, hy]
    rfl

theorem isEmpty_eq (h : o.Alike S o') : o.emitted.isEmpty = o'.emitted.isEmpty := by
  rw [Bool.eq_iff_iff, List.isEmpty_iff_length_eq_zero, List.isEmpty_iff_length_eq_zero,
    h.emitted.length_eq]

end Outcome.Alike

namespace Parser

variable {α β : Type} [HasErasure α] [HasErasure β] {p q : Parser α}

/-- The parsers do the same on the same tokens, but for places. -/
def Parallel (S : Span → Span → Prop) (p q : Parser α) : Prop :=
  ∀ ⦃c d n m⦄, c.Alike S d → n.Alike S m → (p c n).Alike S (q d m)

namespace Parallel

protected theorem pure {x y : α} (h : erased x = erased y) :
    Parallel S (pure x : Parser α) (pure y) :=
  fun _ _ _ _ hc hn ↦ .done h hc hn

theorem token (atToken atEnd : Expectation) (f : Token → Option α) :
    Parallel S (token atToken atEnd f) (token atToken atEnd f) := by
  intro c d n m hc hn
  have hlook := hn.look hc.index
  unfold Parser.token
  rcases hc.rest_cases with ⟨hcrest, hdrest⟩ | ⟨k, l, ks, ls, hcrest, hdrest, hsame, hafter⟩
  · rw [hcrest, hdrest]
    exact .failed hc (hlook.add (hc.failure atEnd))
  · rw [hcrest, hdrest]
    dsimp only
    rw [hsame.1]
    split
    · exact .done rfl hafter hlook
    · exact .failed hc (hlook.add (hc.failure atToken))

theorem exactly (t : Token) : Parallel S (exactly t) (exactly t) :=
  token _ _ _

theorem select (f : Token → Option α) : Parallel S (select f) (select f) :=
  token _ _ _

theorem endOfInput : Parallel S endOfInput endOfInput := by
  intro c d n m hc hn
  have hlook := hn.look hc.index
  unfold Parser.endOfInput
  rcases hc.rest_cases with ⟨hcrest, hdrest⟩ | ⟨k, l, ks, ls, hcrest, hdrest, -, -⟩
  · rw [hcrest, hdrest]
    exact .done rfl hc hlook
  · rw [hcrest, hdrest]
    exact .failed hc (hlook.add (hc.failure .endOfInput))

protected theorem bind {f g : α → Parser β} (hp : Parallel S p q)
    (hf : ∀ x y, erased x = erased y → Parallel S (f x) (g y)) :
    Parallel S (p >>= f) (q >>= g) := by
  intro c d n m hc hn
  have hfirst := hp hc hn
  rcases hfirst.value_cases with ⟨hx, hy⟩ | ⟨x, y, hx, hy, hxy⟩
  · rw [bind_eq_of_none hx, bind_eq_of_none hy]
    exact ⟨rfl, hfirst.cursor, hfirst.notes, hfirst.emitted⟩
  · rw [bind_of_some hx, bind_of_some hy]
    have hsecond := hf x y hxy hfirst.cursor hfirst.notes
    exact ⟨hsecond.value, hsecond.cursor, hsecond.notes,
      List.rel_append hfirst.emitted hsecond.emitted⟩

variable {p' q' : Parser α}

protected theorem or (hp : Parallel S p q) (hp' : Parallel S p' q') :
    Parallel S (p.or p') (q.or q') := by
  intro c d n m hc hn
  have hfirst := hp hc hn
  rcases hfirst.value_cases with ⟨hx, hy⟩ | ⟨x, y, hx, hy, hxy⟩
  · rw [or_of_none hx, or_of_none hy]
    exact hp' hc hfirst.notes
  · rw [or_of_some hx, or_of_some hy]
    exact hfirst

protected theorem optional (hp : Parallel S p q) : Parallel S (optional p) (optional q) := by
  intro c d n m hc hn
  have hfirst := hp hc hn
  rcases hfirst.value_cases with ⟨hx, hy⟩ | ⟨x, y, hx, hy, hxy⟩
  · rw [optional_of_none hx, optional_of_none hy]
    exact .done rfl hc hfirst.notes
  · rw [optional_of_some hx, optional_of_some hy]
    refine ⟨?_, hfirst.cursor, hfirst.notes, hfirst.emitted⟩
    simp only [Outcome.map, hx, hy]
    exact congrArg (fun z ↦ some (some z)) hxy

protected theorem many (hp : Parallel S p q) : Parallel S (many p) (many q) := by
  intro c d n m hc hn
  induction hk : c.rest.length using Nat.strongRecOn generalizing c d n m with
  | _ k ih =>
    have hfirst := hp hc hn
    have hlength := hfirst.cursor.rest.length_eq
    have hlength' := hc.rest.length_eq
    rcases hfirst.value_cases with ⟨hx, hy⟩ | ⟨x, y, hx, hy, hxy⟩
    · rw [many_of_none hx, many_of_none hy]
      exact .done rfl hc hfirst.notes
    · by_cases hlt : (p c n).cursor.rest.length < c.rest.length
      · have hmore := ih _ (hk ▸ hlt) hfirst.cursor hfirst.notes rfl
        rw [many_of_some hx hlt, many_of_some hy (hlength ▸ hlength' ▸ hlt)]
        refine ⟨?_, hmore.cursor, hmore.notes, List.rel_append hfirst.emitted hmore.emitted⟩
        rcases hmore.value_cases with ⟨hxs, hys⟩ | ⟨xs, ys, hxs, hys, hsame⟩
        · simp only [Outcome.after, Outcome.map, hxs, hys, Option.map_none]
        · simp only [Outcome.after, Outcome.map, hxs, hys, Option.map_some]
          exact congrArg some (congrArg₂ List.cons hxy hsame)
      · have hle := Nat.not_lt.1 hlt
        rw [many_of_idle hx hle, many_of_idle hy (hlength ▸ hlength' ▸ hle)]
        exact .done rfl hc hfirst.notes

theorem many₁ (hp : Parallel S p q) : Parallel S (many₁ p) (many₁ q) :=
  hp.bind fun _ _ hx ↦ hp.many.bind fun _ _ hxs ↦ .pure (congrArg₂ List.cons hx hxs)

theorem separated₁ (hp : Parallel S p q) : Parallel S (separated₁ p) (separated₁ q) := by
  have hmore : Parallel S (moreAfterCommas p) (moreAfterCommas q) :=
    Parallel.many ((exactly _).bind fun _ _ _ ↦ hp)
  exact hp.bind fun _ _ hx ↦ hmore.bind fun _ _ hxs ↦ .pure (congrArg₂ List.cons hx hxs)

theorem separated (hp : Parallel S p q) : Parallel S (separated p) (separated q) :=
  hp.separated₁.optional.bind fun xs ys hxs ↦ .pure <| by
    rw [HasErasure.erased_getD, HasErasure.erased_getD, hxs]

protected theorem between {opening closing : Sign} (hp : Parallel S p q) :
    Parallel S (between opening closing p) (between opening closing q) :=
  (exactly _).bind fun _ _ _ ↦ hp.bind fun _ _ hx ↦ (exactly _).bind fun _ _ _ ↦ .pure hx

/-- The place of a value is erased with the others. -/
theorem located (hp : Parallel S p q) : Parallel S (located p) (located q) := by
  intro c d n m hc hn
  have hinner := hp hc hn
  refine ⟨?_, hinner.cursor, hinner.notes, hinner.emitted⟩
  simp only [Parser.located, Outcome.map]
  rcases hinner.value_cases with ⟨hx, hy⟩ | ⟨x, y, hx, hy, hxy⟩
  · rw [hx, hy]
    rfl
  · rw [hx, hy]
    exact congrArg (fun node ↦ some (Located.mk node ⟨0, 0⟩)) hxy

theorem labelledWith (hp : Parallel S p q) (label : Label) (isRule : Bool) :
    Parallel S (labelledWith label isRule p) (labelledWith label isRule q) := by
  intro c d n m hc hn
  have hinner := hp hc hn.clear
  unfold Parser.labelledWith
  dsimp only
  refine ⟨hinner.value, hinner.cursor, hinner.notes.withPending ?_, ?_⟩
  · have hpending := hinner.notes.pending
    revert hpending
    generalize (p c n.clear).notes.pending = new
    generalize (q d m.clear).notes.pending = new'
    rintro (⟨hnew⟩ | -)
    · rw [hc.index]
      exact .some ((hnew.relabel d.index label isRule).merge hn.pending)
    · exact hn.pending
  · cases isRule with
    | true =>
      refine List.forall₂_map_left_iff.2 (List.forall₂_map_right_iff.2 ?_)
      exact hinner.emitted.imp fun _ _ hsame ↦ hsame.within label
    | false => exact hinner.emitted

theorem labelled (hp : Parallel S p q) (notion : Notion) :
    Parallel S (labelled notion p) (labelled notion q) :=
  hp.labelledWith _ _

theorem named (hp : Parallel S p q) (r : Rule) : Parallel S (named r p) (named r q) :=
  hp.labelledWith _ _

theorem rule (hp : Parallel S p q) (r : Rule) : Parallel S (rule r p) (rule r q) :=
  hp.labelledWith _ _

/-! ## Recovery -/

theorem recoverBy (hp : Parallel S p q) (hskip : Parallel S p' q') :
    Parallel S (recoverBy p' p) (recoverBy q' q) := by
  intro c d n m hc hn
  have hfirst := hp hc hn
  unfold Parser.recoverBy
  dsimp only
  rcases hfirst.value_cases with ⟨hx, hy⟩ | ⟨x, y, hx, hy, -⟩
  · have hskipped := hskip hc hfirst.notes.clear
    rw [hx, hy]
    dsimp only
    rcases hskipped.value_cases with ⟨hu, hv⟩ | ⟨u, v, hu, hv, huv⟩
    · rw [hu, hv]
      exact .failed hc (hskipped.notes.withPending hfirst.notes.pending)
    · rw [hu, hv]
      exact ⟨congrArg some huv, hskipped.cursor, hskipped.notes,
        List.rel_append hskipped.emitted (Notes.Alike.failures hfirst.notes.pending)⟩
  · rw [hx, hy]
    exact hfirst

variable {stop stop' : Parser Unit} {held held' : Option Pending}

theorem tokenBefore (hstop : Parallel S stop stop') :
    Parallel S (tokenBefore stop) (tokenBefore stop') := by
  intro c d n m hc hn
  have hfirst := token (α := Token) .anyToken .anyToken some hc hn
  unfold Parser.tokenBefore
  dsimp only
  rcases hfirst.value_cases with ⟨hx, hy⟩ | ⟨x, y, hx, hy, hxy⟩
  · rw [hx, hy]
    exact hfirst
  · have hlooked := hstop hc hfirst.notes.clear
    have hnotes := hlooked.notes.withPending hfirst.notes.pending
    rw [hx, hy]
    dsimp only
    rcases hlooked.value_cases with ⟨hu, hv⟩ | ⟨u, v, hu, hv, -⟩
    · rw [hu, hv]
      exact ⟨congrArg some hxy, hfirst.cursor, hnotes, hfirst.emitted⟩
    · rw [hu, hv]
      exact .failed hc (hnotes.add (hc.failure .other))

theorem searchBefore (hstop : Parallel S stop stop') (hp : Parallel S p q)
    (hheld : Option.Rel (Pending.Alike S) held held') :
    Parallel S (searchBefore stop p held) (searchBefore stop' q held') := by
  intro c d n m hc hn
  induction hk : c.rest.length using Nat.strongRecOn generalizing c d n m with
  | _ k ih =>
    have hlooked := hstop hc hn
    rcases hlooked.value_cases with ⟨hu, hv⟩ | ⟨u, v, hu, hv, -⟩
    · have hnotes := hlooked.notes.look hc.index
      rcases hc.rest_cases with ⟨hcrest, hdrest⟩ | ⟨l, l', ls, ls', hcrest, hdrest, -, hafter⟩
      · rw [searchBefore_of_nil hu held hcrest, searchBefore_of_nil hv held' hdrest]
        exact .failed hc (hnotes.withPending hheld)
      · have htrial := hp hafter hnotes
        rw [searchBefore_of_cons hu held hcrest, searchBefore_of_cons hv held' hdrest]
        dsimp only
        rw [htrial.isSome_eq, htrial.isEmpty_eq]
        split
        · exact ⟨htrial.value, htrial.cursor, htrial.notes, Notes.Alike.failures hheld⟩
        · refine ih ls.length ?_ hafter htrial.notes.clear rfl
          rw [← hk, hcrest]
          exact Nat.lt_succ_self _
    · rw [searchBefore_of_stop hu held, searchBefore_of_stop hv held']
      exact .failed hc (hlooked.notes.withPending hheld)

theorem resumeBefore (hstop : Parallel S stop stop') (hp : Parallel S p q) :
    Parallel S (resumeBefore stop p) (resumeBefore stop' q) := by
  intro c d n m hc hn
  have hfirst := hp hc hn
  rcases hfirst.value_cases with ⟨hx, hy⟩ | ⟨x, y, hx, hy, -⟩
  · rw [resumeBefore_of_none stop hx, resumeBefore_of_none stop' hy]
    exact hstop.searchBefore hp hfirst.notes.pending hc hfirst.notes.clear
  · rw [resumeBefore_of_some stop hx, resumeBefore_of_some stop' hy]
    exact hfirst

/-! ## Whole parses -/

/-- Parses of the same tokens give the same tree but for places, and the same failures about
corresponding places. -/
theorem parse {ks ls : List Lexeme} {finish finish' : Nat} (hp : Parallel S p q)
    (htokens : List.Forall₂ (Lexeme.Alike S) ks ls)
    (hfinish : S ⟨finish, finish⟩ ⟨finish', finish'⟩) :
    erased (p.parse ks finish).tree = erased (q.parse ls finish').tree ∧
      List.Forall₂ (Failure.Alike S) (p.parse ks finish).failures
        (q.parse ls finish').failures := by
  have hall : Parallel S p.toEnd q.toEnd :=
    hp.bind fun _ _ hx ↦ endOfInput.bind fun _ _ _ ↦ .pure hx
  have hdone := hall (c := .start ks finish) (d := .start ls finish')
    ⟨rfl, htokens, hfinish⟩ (n := .start) (m := .start) ⟨.none, rfl⟩
  rw [parse_eq, parse_eq]
  refine ⟨hdone.value, List.rel_append hdone.emitted ?_⟩
  rcases hdone.value_cases with ⟨hx, hy⟩ | ⟨x, y, hx, hy, -⟩
  · rw [hx, hy]
    exact Notes.Alike.failures hdone.notes.pending
  · rw [hx, hy]
    exact .nil

end Parallel

end Parser

end MasCheck
