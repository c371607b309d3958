import MasCheck.Proofs.Grammar.Refusal

/-!
# Outcomes, case by case

What a parser made of others does when a part of it succeeds or fails.
-/

namespace MasCheck.Parser

variable {α β : Type} {p q : Parser α} {c : Cursor} {n : Notes} {x : α}

theorem token_of_some {atToken atEnd : Expectation} {f : Token → Option α} {l : Lexeme}
    {ls : List Lexeme} (hrest : c.rest = l :: ls) (hx : f l.token = some x) :
    token atToken atEnd f c n = .done x (c.after l ls) (n.look c.index) := by
  unfold token
  simp only [hrest, hx]

theorem keyword_of_rest {word : Keyword} {a : Span} {rest : List Lexeme}
    (hrest : c.rest = ⟨.keyword word, a⟩ :: rest) :
    keyword word c n = .done () (c.after ⟨.keyword word, a⟩ rest) (n.look c.index) := by
  unfold keyword exactly
  exact token_of_some hrest (if_pos rfl)

theorem sign_of_rest {s : Sign} {a : Span} {rest : List Lexeme}
    (hrest : c.rest = ⟨.sign s, a⟩ :: rest) :
    sign s c n = .done () (c.after ⟨.sign s, a⟩ rest) (n.look c.index) := by
  unfold sign exactly
  exact token_of_some hrest (if_pos rfl)

theorem endOfInput_of_nil (hrest : c.rest = []) (n : Notes) :
    endOfInput c n = .done () c (n.look c.index) := by
  unfold endOfInput
  simp only [hrest]

theorem endOfInput_of_cons {l : Lexeme} {ls : List Lexeme} (hrest : c.rest = l :: ls) (n : Notes) :
    (endOfInput c n).value = none := by
  unfold endOfInput
  simp only [hrest]
  rfl

theorem bind_eq_of_none (hp : (p c n).value = none) (f : α → Parser β) :
    (p >>= f) c n =
      { value := none, cursor := (p c n).cursor, notes := (p c n).notes,
        emitted := (p c n).emitted } := by
  change Parser.bind p f c n = _
  unfold Parser.bind
  simp only [hp]

theorem bind_of_done {d : Cursor} {n' : Notes} (hp : p c n = .done x d n') (f : α → Parser β) :
    (p >>= f) c n = f x d n' := by
  have hx : (p c n).value = some x := by
    rw [hp]
    rfl
  rw [bind_of_some hx, hp]
  rfl

theorem or_of_some (hp : (p c n).value = some x) (q : Parser α) : (p.or q) c n = p c n := by
  unfold Parser.or
  simp only [hp]

theorem or_of_none (hp : (p c n).value = none) (q : Parser α) :
    (p.or q) c n = q c (p c n).notes := by
  unfold Parser.or
  simp only [hp]

theorem optional_of_some (hp : (p c n).value = some x) :
    optional p c n = (p c n).map some := by
  unfold optional
  simp only [hp]

theorem optional_of_none (hp : (p c n).value = none) :
    optional p c n = .done none c (p c n).notes := by
  unfold optional
  simp only [hp]

theorem many_of_none (hp : (p c n).value = none) :
    many p c n = .done [] c (p c n).notes := by
  rw [many]
  simp only [hp]

theorem many_of_some (hp : (p c n).value = some x)
    (hlt : (p c n).cursor.rest.length < c.rest.length) :
    many p c n =
      ((many p (p c n).cursor (p c n).notes).map (x :: ·)).after (p c n).emitted := by
  rw [many]
  simp only [hp, hlt, ↓reduceIte]

theorem many_of_idle (hp : (p c n).value = some x)
    (hle : c.rest.length ≤ (p c n).cursor.rest.length) :
    many p c n = .done [] c (p c n).notes := by
  rw [many]
  simp only [hp, Nat.not_lt.2 hle, ↓reduceIte]

theorem recoverBy_of_some (skip : Parser α) (hp : (p c n).value = some x) :
    recoverBy skip p c n = p c n := by
  unfold recoverBy
  simp only [hp]

theorem recoverBy_of_none {skip : Parser α} {d : Cursor} {n' : Notes} (hp : (p c n).value = none)
    (hskip : skip c (p c n).notes.clear = .done x d n') :
    recoverBy skip p c n =
      { value := some x, cursor := d, notes := n',
        emitted := (p c n).notes.pending.toList.map Pending.failure } := by
  unfold recoverBy
  simp only [hp, hskip, Outcome.done, List.nil_append]

theorem resumeBefore_of_some (stop : Parser Unit) (hp : (p c n).value = some x) :
    resumeBefore stop p c n = p c n := by
  unfold resumeBefore
  simp only [hp]

theorem resumeBefore_of_none (stop : Parser Unit) (hp : (p c n).value = none) :
    resumeBefore stop p c n =
      searchBefore stop p (p c n).notes.pending c (p c n).notes.clear := by
  unfold resumeBefore
  simp only [hp]

/-- What is read by recovering from a failure that is explained is not clean. -/
theorem not_clean_recoverBy {skip : Parser α} (hexplains : p.Explains)
    (hp : (p c n).value = none) :
    ¬ ((recoverBy skip p c n).value.isSome && (recoverBy skip p c n).emitted.isEmpty) := by
  obtain ⟨f, hf⟩ := Option.isSome_iff_exists.1 (hexplains c n hp)
  unfold recoverBy
  simp only [hp]
  split
  · simp [hf]
  · simp [Outcome.failed]

theorem searchBefore_of_stop {stop : Parser Unit} {u : Unit} (hstop : (stop c n).value = some u)
    (held : Option Pending) :
    searchBefore stop p held c n = .failed c ((stop c n).notes.withPending held) := by
  rw [searchBefore]
  simp only [hstop]

theorem searchBefore_of_nil {stop : Parser Unit} (hstop : (stop c n).value = none)
    (held : Option Pending) (hrest : c.rest = []) :
    searchBefore stop p held c n =
      .failed c (((stop c n).notes.look c.index).withPending held) := by
  rw [searchBefore]
  simp only [hstop]
  split
  · rfl
  · next h => cases hrest.symm.trans h

theorem searchBefore_of_cons {stop : Parser Unit} {l : Lexeme} {ls : List Lexeme}
    (hstop : (stop c n).value = none) (held : Option Pending) (hrest : c.rest = l :: ls) :
    searchBefore stop p held c n =
      let a := p (c.after l ls) ((stop c n).notes.look c.index)
      if a.value.isSome && a.emitted.isEmpty then
        { a with emitted := held.toList.map Pending.failure }
      else searchBefore stop p held (c.after l ls) a.notes.clear := by
  rw [searchBefore]
  simp only [hstop]
  split
  · next h => cases hrest.symm.trans h
  · next k ks h =>
    obtain ⟨rfl, rfl⟩ := List.cons.inj (hrest.symm.trans h)
    rfl

section

variable {stop : Parser Unit} {l : Lexeme} {ls : List Lexeme} {o : Outcome α}

/-- A failed trial behind the first token leaves the search to the tokens behind it. -/
theorem searchBefore_of_trial_none (hstop : (stop c n).value = none) (held : Option Pending)
    (hrest : c.rest = l :: ls) (ho : p (c.after l ls) ((stop c n).notes.look c.index) = o)
    (hx : o.value = none) :
    searchBefore stop p held c n = searchBefore stop p held (c.after l ls) o.notes.clear := by
  have hfails : ¬(o.value.isSome && o.emitted.isEmpty) = true := by simp [hx]
  rw [searchBefore_of_cons hstop held hrest, ho]
  exact if_neg hfails

theorem searchBefore_of_trial_some (hstop : (stop c n).value = none) (held : Option Pending)
    (hrest : c.rest = l :: ls) (ho : p (c.after l ls) ((stop c n).notes.look c.index) = o)
    (hx : o.value = some x) (hquiet : o.emitted = []) :
    searchBefore stop p held c n = { o with emitted := held.toList.map Pending.failure } := by
  have hworks : (o.value.isSome && o.emitted.isEmpty) = true := by simp [hx, hquiet]
  rw [searchBefore_of_cons hstop held hrest, ho]
  exact if_pos hworks

end

theorem searchBefore_of_admits {stop : Parser Unit} {ts : List Lexeme} (hstop : stop.Admits ts)
    (held : Option Pending) (n : Notes) (hrest : c.rest = ts) :
    searchBefore stop p held c n = .failed c ((stop c n).notes.withPending held) := by
  obtain ⟨u, hu⟩ := Option.isSome_iff_exists.1 (hstop c n hrest)
  exact searchBefore_of_stop hu held

end MasCheck.Parser
