import MasCheck.Token.Repair

/-!
# Tokens in order

The tokens of a source take up places one behind the other, none of them empty, so that a place
belongs to one token. A repair that reports nothing has changed nothing.
-/

namespace MasCheck

/-! ## Places -/

theorem byteLength_taken_pos (c : Char) (cs : List Char) :
    0 < Text.byteLength (Reading.ofText c cs).taken := by
  cases htaken : (Reading.ofText c cs).taken with
  | nil => exact absurd htaken (Reading.taken_ne_nil c cs)
  | cons d ds =>
    have hpos := Char.utf8Size_pos d
    rw [Text.byteLength_cons]
    omega

theorem lexFrom_cons {cs padding rest : List Char} {c : Char} {reading : Reading} (here : Nat)
    (hsplit : Padding.split .blank cs = (padding, c :: rest))
    (hreading : Reading.ofText c rest = reading) :
    lexFrom here cs =
      ⟨reading.token, ⟨here + Text.byteLength padding,
        here + Text.byteLength padding + Text.byteLength reading.taken⟩⟩ ::
      lexFrom (here + Text.byteLength padding + Text.byteLength reading.taken) reading.rest := by
  rw [lexFrom]
  split
  · next hnone => cases hsplit.symm.trans hnone
  · next padding' c' rest' hsome =>
    obtain ⟨rfl, hcons⟩ := Prod.mk.inj (hsplit.symm.trans hsome)
    obtain ⟨rfl, rfl⟩ := List.cons.inj hcons
    rw [← hreading]

theorem span_of_mem_lexFrom {here : Nat} {cs : List Char} {l : Lexeme}
    (hl : l ∈ lexFrom here cs) : here ≤ l.span.start ∧ l.span.start < l.span.stop := by
  fun_induction lexFrom here cs with
  | case1 => exact absurd hl List.not_mem_nil
  | case2 here cs padding c rest _ reading start stop ih =>
    have htaken : 0 < Text.byteLength reading.taken := byteLength_taken_pos c rest
    rcases List.mem_cons.1 hl with rfl | hl
    · dsimp only [start, stop]
      omega
    · obtain ⟨hstart, hstop⟩ := ih hl
      refine ⟨?_, hstop⟩
      dsimp only [start, stop] at hstart
      omega

theorem lexFrom_ordered (here : Nat) (cs : List Char) :
    (lexFrom here cs).Pairwise fun a b ↦ a.span.stop ≤ b.span.start := by
  fun_induction lexFrom here cs with
  | case1 => exact .nil
  | case2 here cs padding c rest _ reading start stop ih =>
    exact .cons (fun l hl ↦ (span_of_mem_lexFrom hl).1) ih

/-! ## Pieces -/

namespace Piece

def span : Piece → Span
  | sound l => l.span
  | closed _ _ span => span
  | stray _ span => span

theorem span_of_lexeme? {p : Piece} {l : Lexeme} (h : p.lexeme? = some l) : l.span = p.span := by
  cases p with
  | sound l => rw [← Option.some.inj h]; rfl
  | closed q text span => rw [← Option.some.inj h]; rfl
  | stray text span => cases h

end Piece

/-- Places are not empty, and one ends before the next begins. -/
def InOrder (spans : List Span) : Prop :=
  (∀ a ∈ spans, a.start < a.stop) ∧ spans.Pairwise fun a b ↦ a.stop ≤ b.start

theorem inOrder_cons {a : Span} {spans : List Span} :
    InOrder (a :: spans) ↔
      a.start < a.stop ∧ (∀ b ∈ spans, a.stop ≤ b.start) ∧ InOrder spans := by
  unfold InOrder
  rw [List.forall_mem_cons, List.pairwise_cons]
  constructor
  · exact fun ⟨⟨ha, hspans⟩, hfirst, hordered⟩ ↦ ⟨ha, hfirst, hspans, hordered⟩
  · exact fun ⟨ha, hfirst, hspans, hordered⟩ ↦ ⟨⟨ha, hspans⟩, hfirst, hordered⟩

theorem InOrder.sublist {as bs : List Span} (h : InOrder bs) (hsub : as.Sublist bs) : InOrder as :=
  ⟨fun a ha ↦ h.1 a (hsub.subset ha), h.2.sublist hsub⟩

theorem InOrder.starts {spans : List Span} (h : InOrder spans) :
    spans.Pairwise fun a b ↦ a.start < b.start :=
  h.2.imp_of_mem fun ha _ hab ↦ Nat.lt_of_lt_of_le (h.1 _ ha) hab

theorem inOrder_lex (source : String) : InOrder ((lex source).map Lexeme.span) := by
  constructor
  · intro a ha
    obtain ⟨l, hl, rfl⟩ := List.mem_map.1 ha
    exact (span_of_mem_lexFrom hl).2
  · exact List.pairwise_map.2 (lexFrom_ordered 0 source.toList)

/-- No two places begin at one offset. -/
theorem start_eq_iff {spans : List Span} {i j : Nat} {a b : Span}
    (h : spans.Pairwise fun a b ↦ a.start < b.start) (ha : spans[i]? = some a)
    (hb : spans[j]? = some b) : a.start = b.start ↔ i = j := by
  obtain ⟨hi, rfl⟩ := List.getElem?_eq_some_iff.1 ha
  obtain ⟨hj, rfl⟩ := List.getElem?_eq_some_iff.1 hb
  refine ⟨fun hstart ↦ ?_, fun hij ↦ by subst hij; rfl⟩
  rcases Nat.lt_trichotomy i j with hij | hij | hij
  · have hbefore := List.pairwise_iff_getElem.1 h i j hi hj hij
    omega
  · exact hij
  · have hbefore := List.pairwise_iff_getElem.1 h j i hj hi hij
    omega

/-- Where a token stands, no other token begins. -/
theorem eq_of_start_eq {source : String} {k l : Lexeme} (hk : k ∈ lex source) (hl : l ∈ lex source)
    (h : k.span.start = l.span.start) : k = l := by
  obtain ⟨i, hi, rfl⟩ := List.getElem_of_mem hk
  obtain ⟨j, hj, rfl⟩ := List.getElem_of_mem hl
  obtain rfl : i = j :=
    (start_eq_iff (inOrder_lex source).starts (by simp [hi]) (by simp [hj])).1 h
  rfl

theorem inOrder_consStray {text : String} {span : Span} {ps : List Piece}
    (h : InOrder (span :: ps.map Piece.span)) :
    InOrder ((Piece.consStray text span ps).map Piece.span) := by
  unfold Piece.consStray
  split
  · next more run ps =>
    split
    · obtain ⟨hspan, hfirst, hps⟩ := inOrder_cons.1 h
      obtain ⟨hrun, hbehind, hothers⟩ := inOrder_cons.1 hps
      have hle : span.stop ≤ run.start := hfirst run List.mem_cons_self
      refine inOrder_cons.2 ⟨?_, hbehind, hothers⟩
      change span.start < run.stop
      change run.start < run.stop at hrun
      omega
    · exact h
  · exact h

theorem start_of_mem_cons {p q : Piece} {ps : List Piece} {start : Nat} (hq : q.span.start = start)
    (hp : p ∈ q :: ps) : p.span.start = start ∨ p ∈ ps := by
  rcases List.mem_cons.1 hp with rfl | hp
  · exact .inl hq
  · exact .inr hp

theorem start_of_mem_consStray {text : String} {span : Span} {ps : List Piece} {p : Piece}
    (hp : p ∈ Piece.consStray text span ps) : p.span.start = span.start ∨ p ∈ ps := by
  unfold Piece.consStray at hp
  split at hp
  · split at hp
    · rcases List.mem_cons.1 hp with rfl | hp
      · exact .inl rfl
      · exact .inr (List.mem_cons_of_mem _ hp)
    · exact start_of_mem_cons rfl hp
  · exact start_of_mem_cons rfl hp

/-- A piece begins where one of its tokens does. -/
theorem exists_start_of_mem_pieces {ls : List Lexeme} {p : Piece} (hp : p ∈ pieces ls) :
    ∃ l ∈ ls, l.span.start = p.span.start := by
  induction ls generalizing p with
  | nil => cases hp
  | cons l ls ih =>
    have hcons : p.span.start = l.span.start ∨ p ∈ pieces ls := by
      obtain ⟨t, span⟩ := l
      cases t with
      | stray text => exact start_of_mem_consStray hp
      | _ => exact start_of_mem_cons rfl hp
    rcases hcons with hfirst | hp
    · exact ⟨l, List.mem_cons_self, hfirst.symm⟩
    · obtain ⟨k, hk, hstart⟩ := ih hp
      exact ⟨k, List.mem_cons_of_mem l hk, hstart⟩

theorem inOrder_pieces {ls : List Lexeme} (h : InOrder (ls.map Lexeme.span)) :
    InOrder ((pieces ls).map Piece.span) := by
  induction ls with
  | nil => exact h
  | cons l ls ih =>
    obtain ⟨hspan, hfirst, hls⟩ := inOrder_cons.1 h
    have hpieces : InOrder (l.span :: (pieces ls).map Piece.span) := by
      refine inOrder_cons.2 ⟨hspan, fun b hb ↦ ?_, ih hls⟩
      obtain ⟨p, hp, rfl⟩ := List.mem_map.1 hb
      obtain ⟨k, hk, hstart⟩ := exists_start_of_mem_pieces hp
      exact hstart ▸ hfirst k.span (List.mem_map_of_mem hk)
    obtain ⟨t, span⟩ := l
    cases t with
    | stray text => exact inOrder_consStray hpieces
    | _ => exact hpieces

theorem sublist_lexemes (ps : List Piece) :
    ((ps.filterMap Piece.lexeme?).map Lexeme.span).Sublist (ps.map Piece.span) := by
  induction ps with
  | nil => exact .slnil
  | cons p ps ih =>
    cases hp : p.lexeme? with
    | none =>
      rw [List.filterMap_cons_none hp]
      exact ih.cons p.span
    | some l =>
      rw [List.filterMap_cons_some hp, List.map_cons, Piece.span_of_lexeme? hp]
      exact ih.cons_cons p.span

/-- The tokens that the parser receives are in order. -/
theorem Repaired.inOrder_tokens (source : String) :
    InOrder ((ofSource source).tokens.map Lexeme.span) :=
  (inOrder_pieces (inOrder_lex source)).sublist (sublist_lexemes _)

/-! ## Sound tokens -/

theorem events_consStray_ne_nil (text : String) (span : Span) (ps : List Piece) :
    (Piece.consStray text span ps).flatMap Piece.events ≠ [] := by
  unfold Piece.consStray
  split
  · split <;> simp [Piece.events]
  · simp [Piece.events]

theorem lexemes_of_sound {ls : List Lexeme} (h : (pieces ls).flatMap Piece.events = []) :
    (pieces ls).filterMap Piece.lexeme? = ls := by
  induction ls with
  | nil => rfl
  | cons l ls ih =>
    obtain ⟨t, span⟩ := l
    cases t with
    | unclosed quote text => simp [pieces, Piece.events] at h
    | stray text => exact absurd h (events_consStray_ne_nil text span (pieces ls))
    | _ => exact congrArg (List.cons _) (ih h)

/-- Where nothing is reported the parser receives the tokens of the source. -/
theorem Repaired.tokens_eq_lex {source : String} (h : (ofSource source).events = []) :
    (ofSource source).tokens = lex source :=
  lexemes_of_sound h

/-- Only faulty tokens are reported. -/
theorem events_pieces_eq_nil_iff {ls : List Lexeme} :
    (pieces ls).flatMap Piece.events = [] ↔ ∀ l ∈ ls, l.token.isFaulty = false := by
  induction ls with
  | nil => exact iff_of_true rfl nofun
  | cons l ls ih =>
    rw [List.forall_mem_cons, ← ih]
    obtain ⟨t, span⟩ := l
    cases t with
    | unclosed quote text => simp [pieces, Piece.events, Token.isFaulty]
    | stray text =>
      refine iff_of_false (events_consStray_ne_nil text span (pieces ls)) ?_
      simp [Token.isFaulty]
    | _ => exact (and_iff_right rfl).symm

theorem Repaired.events_eq_nil_iff {source : String} :
    (ofSource source).events = [] ↔ ∀ t ∈ (lex source).map Lexeme.token, t.isFaulty = false := by
  rw [List.forall_mem_map]
  exact events_pieces_eq_nil_iff

end MasCheck
