import MasCheck.Proofs.Grammar.Production
import MasCheck.Proofs.Token.Order

/-!
# Places of tokens

The place of a few tokens that stand next to each other runs from the start of the first to the
end of the last. It lies within the source, between whole characters, and the tokens in it are
these and no others.
-/

namespace MasCheck

/-! ## Places in a text -/

/-- The offset stands in front of a character or at the end. -/
def Text.IsBoundary (text : List Char) (offset : Nat) : Prop :=
  ∃ front back, text = front ++ back ∧ offset = byteLength front

structure Span.Within (text : List Char) (s : Span) : Prop where
  ordered : s.start ≤ s.stop
  bounded : s.stop ≤ Text.byteLength text
  startBoundary : Text.IsBoundary text s.start
  stopBoundary : Text.IsBoundary text s.stop

theorem Text.IsBoundary.le {text : List Char} {offset : Nat} (h : IsBoundary text offset) :
    offset ≤ byteLength text := by
  obtain ⟨front, back, rfl, rfl⟩ := h
  rw [byteLength_append]
  omega

/-- Where the padding ends a token is read. -/
theorem eq_of_split {text front cs padding rest : List Char} {c : Char} (htext : text = front ++ cs)
    (hsplit : Padding.split .blank cs = (padding, c :: rest)) :
    text = front ++ padding ++ (Reading.ofText c rest).taken ++ (Reading.ofText c rest).rest := by
  have hpadding : padding ++ c :: rest = cs := by
    simpa [hsplit] using Padding.split_append .blank cs
  rw [List.append_assoc, Reading.ofText_append, List.append_assoc, hpadding, htext]

/-- The token is read in the text, behind some padding. -/
inductive Lexeme.IsReadIn (text : List Char) : Lexeme → Prop
  | behind {front cs padding rest : List Char} {c : Char} (htext : text = front ++ cs)
      (hsplit : Padding.split .blank cs = (padding, c :: rest)) :
      IsReadIn text ⟨(Reading.ofText c rest).token, ⟨Text.byteLength (front ++ padding),
        Text.byteLength (front ++ padding ++ (Reading.ofText c rest).taken)⟩⟩

theorem isReadIn_lexFrom (text : List Char) (here : Nat) (cs : List Char) :
    ∀ front, text = front ++ cs → here = Text.byteLength front →
      ∀ l ∈ lexFrom here cs, l.IsReadIn text := by
  fun_induction lexFrom here cs with
  | case1 => exact fun _ _ _ l hl ↦ absurd hl List.not_mem_nil
  | case2 here cs padding c rest hsplit reading start stop ih =>
    intro front htext hhere l hl
    have hstart : start = Text.byteLength (front ++ padding) := by
      simp [start, hhere]
    have hstop : stop = Text.byteLength (front ++ padding ++ reading.taken) := by
      rw [Text.byteLength_append, ← hstart]
    rcases List.mem_cons.1 hl with rfl | hl
    · rw [hstart, hstop]
      exact .behind htext hsplit
    · exact ih _ (eq_of_split htext hsplit) hstop l hl

theorem isReadIn_lex {source : String} {l : Lexeme} (hl : l ∈ lex source) :
    l.IsReadIn source.toList :=
  isReadIn_lexFrom source.toList 0 _ [] rfl rfl l hl

theorem Lexeme.IsReadIn.boundaries {text : List Char} {l : Lexeme} (h : l.IsReadIn text) :
    Text.IsBoundary text l.span.start ∧ Text.IsBoundary text l.span.stop := by
  obtain ⟨htext, hsplit⟩ := h
  have hbehind := eq_of_split htext hsplit
  exact ⟨⟨_, _, hbehind.trans (List.append_assoc ..), rfl⟩, _, _, hbehind, rfl⟩

/-- Pieces begin and end where tokens do. -/
theorem ends_of_mem_pieces {B : Nat → Prop} {ls : List Lexeme}
    (h : ∀ l ∈ ls, B l.span.start ∧ B l.span.stop) :
    ∀ p ∈ pieces ls, B p.span.start ∧ B p.span.stop := by
  induction ls with
  | nil => nofun
  | cons l ls ih =>
    have hfirst := h l List.mem_cons_self
    have hrest := ih fun k hk ↦ h k (List.mem_cons_of_mem l hk)
    obtain ⟨t, span⟩ := l
    cases t with
    | stray text =>
      intro p hp
      change p ∈ Piece.consStray text span (pieces ls) at hp
      unfold Piece.consStray at hp
      split at hp
      · next more run ps hps =>
        rw [hps] at hrest
        obtain ⟨hrun, hothers⟩ := List.forall_mem_cons.1 hrest
        split at hp
        · rcases List.mem_cons.1 hp with rfl | hp
          · exact ⟨hfirst.1, hrun.2⟩
          · exact hothers p hp
        · rcases List.mem_cons.1 hp with rfl | hp
          · exact hfirst
          · exact hrest p hp
      · rcases List.mem_cons.1 hp with rfl | hp
        · exact hfirst
        · exact hrest p hp
    | _ => exact List.forall_mem_cons.2 ⟨hfirst, hrest⟩

theorem boundaries_pieces {source : String} {p : Piece} (hp : p ∈ pieces (lex source)) :
    Text.IsBoundary source.toList p.span.start ∧ Text.IsBoundary source.toList p.span.stop :=
  ends_of_mem_pieces (fun _ hl ↦ (isReadIn_lex hl).boundaries) p hp

theorem boundaries_tokens {source : String} {l : Lexeme}
    (hl : l ∈ (Repaired.ofSource source).tokens) :
    Text.IsBoundary source.toList l.span.start ∧ Text.IsBoundary source.toList l.span.stop := by
  obtain ⟨p, hp, hlexeme⟩ := List.mem_filterMap.1 hl
  rw [Piece.span_of_lexeme? hlexeme]
  exact boundaries_pieces hp

/-! ## Tokens in a place -/

/-- The tokens that lie in the span. -/
def tokensIn (s : Span) (ts : List Lexeme) : List Lexeme :=
  ts.filter fun l ↦ s.start ≤ l.span.start && l.span.stop ≤ s.stop

/-- The span is the place of some tokens next to each other. -/
def IsPlace (ts : List Lexeme) (s : Span) : Prop :=
  ∃ us vs ws, ts = us ++ vs ++ ws ∧ vs ≠ [] ∧ s = Lexeme.spanOf vs

theorem InOrder.first_le {l k : Lexeme} {ls : List Lexeme}
    (h : InOrder ((l :: ls).map Lexeme.span)) (hk : k ∈ l :: ls) : l.span.start ≤ k.span.start := by
  rcases List.mem_cons.1 hk with rfl | hk
  · exact Nat.le_refl _
  · have hlater := (List.pairwise_cons.1 h.starts).1 k.span (List.mem_map_of_mem hk)
    exact Nat.le_of_lt hlater

theorem InOrder.le_last {k : Lexeme} {ls : List Lexeme} (h : InOrder (ls.map Lexeme.span))
    (hls : ls ≠ []) (hk : k ∈ ls) : k.span.stop ≤ (ls.getLast hls).span.stop := by
  rw [← List.dropLast_concat_getLast hls, List.map_append, InOrder, List.pairwise_append] at h
  rw [← List.dropLast_concat_getLast hls] at hk
  rcases List.mem_append.1 hk with hk | hk
  · have hbefore := h.2.2.2 k.span (List.mem_map_of_mem hk) _ List.mem_cons_self
    have hlast := h.1 (ls.getLast hls).span (by simp)
    omega
  · obtain rfl := List.mem_singleton.1 hk
    exact Nat.le_refl _

section

variable {us vs ws ts : List Lexeme} {s : Span}

/-- The other tokens lie in front of the place of some tokens and behind it. -/
theorem InOrder.spanOf (h : InOrder ((us ++ vs ++ ws).map Lexeme.span)) (hvs : vs ≠ []) :
    (∀ l ∈ us, l.span.stop ≤ (Lexeme.spanOf vs).start) ∧
      (∀ l ∈ vs, (Lexeme.spanOf vs).start ≤ l.span.start ∧
        l.span.stop ≤ (Lexeme.spanOf vs).stop) ∧
      ∀ l ∈ ws, (Lexeme.spanOf vs).stop ≤ l.span.start := by
  obtain ⟨l, ls, rfl⟩ := List.exists_cons_of_ne_nil hvs
  have hmiddle : InOrder ((l :: ls).map Lexeme.span) :=
    h.sublist (((List.sublist_append_right us _).trans (List.sublist_append_left _ ws)).map _)
  simp only [List.map_append, InOrder, List.pairwise_append] at h
  obtain ⟨-, ⟨-, -, hbefore⟩, -, hbehind⟩ := h
  refine ⟨fun k hk ↦ ?_, fun k hk ↦ ⟨hmiddle.first_le hk, hmiddle.le_last hvs hk⟩, fun k hk ↦ ?_⟩
  · exact hbefore k.span (List.mem_map_of_mem hk) l.span List.mem_cons_self
  · have hlast := List.mem_map_of_mem (f := Lexeme.span) (List.getLast_mem hvs)
    exact hbehind _ (List.mem_append_right _ hlast) k.span (List.mem_map_of_mem hk)

theorem InOrder.tokensIn_spanOf (h : InOrder ((us ++ vs ++ ws).map Lexeme.span)) (hvs : vs ≠ []) :
    tokensIn (Lexeme.spanOf vs) (us ++ vs ++ ws) = vs := by
  obtain ⟨hbefore, hinside, hbehind⟩ := h.spanOf hvs
  have hsize : ∀ l ∈ us ++ vs ++ ws, l.span.start < l.span.stop :=
    fun l hl ↦ h.1 l.span (List.mem_map_of_mem hl)
  unfold tokensIn
  rw [List.filter_append, List.filter_append, List.filter_eq_nil_iff.2, List.filter_eq_self.2,
    List.filter_eq_nil_iff.2, List.nil_append, List.append_nil]
  · intro l hl
    have := hbehind l hl
    have := hsize l (by simp [hl])
    simp
    omega
  · intro l hl
    simp [hinside l hl]
  · intro l hl
    have := hbefore l hl
    have := hsize l (by simp [hl])
    simp
    omega

/-- A place of tokens that lie in a span lies in it as well. -/
theorem IsPlace.inside {S : Span} (hordered : InOrder (ts.map Lexeme.span))
    (h : IsPlace (tokensIn S ts) s) : S.start ≤ s.start ∧ s.start < s.stop ∧ s.stop ≤ S.stop := by
  obtain ⟨us, vs, ws, htokens, hvs, rfl⟩ := h
  have hinside : ∀ l ∈ vs, S.start ≤ l.span.start ∧ l.span.stop ≤ S.stop := by
    intro l hl
    have hmem : l ∈ tokensIn S ts := by simp [htokens, hl]
    simpa using (List.mem_filter.1 hmem).2
  have hsublist : InOrder ((us ++ vs ++ ws).map Lexeme.span) :=
    htokens ▸ hordered.sublist (List.filter_sublist.map _)
  obtain ⟨l, ls, rfl⟩ := List.exists_cons_of_ne_nil hvs
  obtain ⟨hlower, hupper⟩ := (hsublist.spanOf hvs).2.1 l List.mem_cons_self
  have hsize := hsublist.1 l.span (by simp)
  exact ⟨(hinside l List.mem_cons_self).1, by omega, (hinside _ (List.getLast_mem hvs)).2⟩

theorem IsPlace.append_left (us : List Lexeme) (h : IsPlace ts s) : IsPlace (us ++ ts) s := by
  obtain ⟨ps, vs, qs, rfl, hvs, rfl⟩ := h
  exact ⟨us ++ ps, vs, qs, by simp, hvs, rfl⟩

theorem IsPlace.append_right (ws : List Lexeme) (h : IsPlace ts s) : IsPlace (ts ++ ws) s := by
  obtain ⟨ps, vs, qs, rfl, hvs, rfl⟩ := h
  exact ⟨ps, vs, qs ++ ws, by simp, hvs, rfl⟩

theorem IsPlace.nonempty {source : String} (h : IsPlace (Repaired.ofSource source).tokens s) :
    s.start < s.stop := by
  obtain ⟨us, vs, ws, htokens, hvs, rfl⟩ := h
  have hordered := Repaired.inOrder_tokens source
  rw [htokens] at hordered
  obtain ⟨l, ls, rfl⟩ := List.exists_cons_of_ne_nil hvs
  obtain ⟨hlower, hupper⟩ := (hordered.spanOf hvs).2.1 l List.mem_cons_self
  have hsize := hordered.1 l.span (by simp)
  omega

/-- Places of tokens lie within the source. -/
theorem IsPlace.within {source : String} (h : IsPlace (Repaired.ofSource source).tokens s) :
    s.Within source.toList := by
  have hsize := h.nonempty
  obtain ⟨us, vs, ws, htokens, hvs, rfl⟩ := h
  obtain ⟨l, ls, rfl⟩ := List.exists_cons_of_ne_nil hvs
  have hmem : ∀ k ∈ l :: ls, k ∈ (Repaired.ofSource source).tokens := by
    intro k hk
    rw [htokens]
    exact List.mem_append_left ws (List.mem_append_right us hk)
  have hstart := (boundaries_tokens (hmem l List.mem_cons_self)).1
  have hstop := (boundaries_tokens (hmem _ (List.getLast_mem hvs))).2
  exact ⟨Nat.le_of_lt hsize, hstop.le, hstart, hstop⟩

end

end MasCheck
