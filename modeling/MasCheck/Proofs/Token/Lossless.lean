import MasCheck.Proofs.Text.Slices
import MasCheck.Proofs.Token.Padding
import MasCheck.Proofs.Token.Place

/-!
# Nothing is lost

Each token is written as the part of the source that it stands for, and what lies in front of the
tokens, between them and behind them is padding. No token reaches over the end of a line.
-/

namespace MasCheck

namespace Token

def isUnclosed : Token → Bool
  | unclosed _ _ => true
  | _ => false

/-- The token is written as these characters of a source. A text left open is written without the
carriage returns at their end. -/
def IsWrittenAs (t : Token) (taken : List Char) : Prop :=
  t.written.toList = if t.isUnclosed then Reading.trimReturns taken else taken

end Token

/-! ## Readings -/

namespace Reading

/-- The token is written as the characters it was read from, and these are of one line. -/
structure Keeps (r : Reading) : Prop where
  written : r.token.IsWrittenAs r.taken
  oneLine : '\n' ∉ r.taken

theorem newline_notMem_run {test : Char → Bool} (htest : test '\n' = false) (cs : List Char) :
    '\n' ∉ (run test cs).1 := by
  intro hmem
  exact absurd (List.all_eq_true.1 List.all_takeWhile _ hmem) (by simp [htest])

theorem trimReturns_cons {c : Char} (hc : c ≠ '\r') (cs : List Char) :
    trimReturns (c :: cs) = c :: trimReturns cs := by
  unfold trimReturns
  rw [List.reverse_cons, List.dropWhile_append]
  split
  · next hnil => simp [hc, List.isEmpty_iff.1 hnil]
  · simp

theorem keeps_quoted (q : Quote) (cs : List Char) : (quoted q cs).Keeps := by
  have hmark : '\n' ≠ q.char ∧ q.char ≠ '\r' := by cases q <;> decide
  have hbody : '\n' ∉ (run (fun c ↦ c ≠ q.char && c ≠ '\n') cs).1 :=
    newline_notMem_run (by simp) cs
  unfold quoted
  dsimp only
  generalize run (fun c ↦ c ≠ q.char && c ≠ '\n') cs = body at hbody ⊢
  have hopen : (Reading.mk (.unclosed q (String.ofList (trimReturns body.1))) (q.char :: body.1)
      body.2).Keeps :=
    ⟨by simp [Token.IsWrittenAs, Token.written, Token.isUnclosed, trimReturns_cons hmark.2],
      by simp [hbody, hmark.1]⟩
  split
  · next c rest hrest =>
    split
    · next hc =>
      subst hc
      exact ⟨by simp [Token.IsWrittenAs, Token.written, Token.isUnclosed], by simp [hbody, hmark.1]⟩
    · exact hopen
  · next hrest => exact hrest ▸ hopen

theorem keeps_number {d : Char} (hd : Text.isAsciiDigit d = true) (cs : List Char) :
    (number d cs).Keeps := by
  have hdigit : ∀ {c : Char}, Text.isAsciiDigit c = true → '\n' ≠ c := by
    rintro c hc rfl
    exact absurd hc (by decide)
  have hrun : ∀ cs, '\n' ∉ (run Text.isAsciiDigit cs).1 := newline_notMem_run (by decide)
  have hwhole : '\n' ∉ (if d = '0' then ([], cs) else run Text.isAsciiDigit cs).1 := by
    split
    · exact List.not_mem_nil
    · exact hrun cs
  unfold number
  dsimp only
  split
  · next point digit rest _ =>
    split
    · next hpoint =>
      simp only [Bool.and_eq_true, decide_eq_true_eq] at hpoint
      obtain ⟨rfl, hdigit'⟩ := hpoint
      refine ⟨String.toList_ofList, ?_⟩
      simp [hwhole, hrun, hdigit hd, hdigit hdigit']
    · exact ⟨String.toList_ofList, by simp [hwhole, hdigit hd]⟩
  · exact ⟨String.toList_ofList, by simp [hwhole, hdigit hd]⟩

theorem keeps_compound? {cs : List Char} {r : Reading} (h : compound? cs = some r) : r.Keeps := by
  obtain ⟨s, hs, hr⟩ := List.exists_of_findSome?_eq_some h
  dsimp only at hr
  split at hr
  · obtain rfl := Option.some.inj hr
    refine ⟨rfl, ?_⟩
    simp only [compounds, List.mem_cons, List.not_mem_nil, or_false] at hs
    have hline : '\n' ∉ s.text.toList := by rcases hs with rfl | rfl | rfl <;> decide
    exact hline
  · cases hr

theorem keeps_word {c : Char} (hc : Text.isIdentifierStart c = true) (cs : List Char) :
    (word c cs).Keeps := by
  have hline : '\n' ∉ c :: (run Text.isIdentifierRest cs).1 := by
    have hmore := newline_notMem_run (by decide : Text.isIdentifierRest '\n' = false) cs
    have hfirst : '\n' ≠ c := by
      rintro rfl
      exact absurd hc (by decide)
    simp [hmore, hfirst]
  unfold word
  dsimp only
  split
  · next k hk =>
    have htext := List.find?_some hk
    refine ⟨?_, hline⟩
    simp only [decide_eq_true_eq] at htext
    simp [Token.IsWrittenAs, Token.written, Token.isUnclosed, htext]
  · exact ⟨String.toList_ofList, hline⟩

theorem text_of_ite {c d : Char} {s t : Sign} {o : Option Sign} (ht : t.text.toList = [d])
    (ho : o = some s → s.text.toList = [c]) (h : (if c = d then some t else o) = some s) :
    s.text.toList = [c] := by
  split at h
  · next hc =>
    cases h
    rw [hc, ht]
  · exact ho h

/-- Each sign is tested for by the character that it is written with. -/
theorem text_of_sign? {c : Char} {s : Sign} : sign? c = some s → s.text.toList = [c] := by
  unfold sign?
  repeat refine text_of_ite rfl ?_
  nofun

/-- A character of operators, of a word or of a sign ends no line. -/
theorem keeps_ofText {c : Char} (hc : c ≠ '\n') (cs : List Char) : (ofText c cs).Keeps := by
  unfold ofText
  split
  · exact keeps_quoted .double cs
  split
  · exact keeps_quoted .single cs
  split
  · next hdigit => exact keeps_number hdigit cs
  split
  · next hcompound => exact keeps_compound? hcompound
  split
  · next hstart => exact keeps_word hstart cs
  split
  · next hsign => exact ⟨text_of_sign? hsign, by simp [hc.symm]⟩
  split
  · have hmore := newline_notMem_run (by decide : isOperator '\n' = false) cs
    exact ⟨String.toList_ofList, by simp [hc.symm, hmore]⟩
  · exact ⟨String.toList_ofList, by simp [hc.symm]⟩

end Reading

/-! ## Tokens and gaps -/

/-- What lies between byte `here` and the byte `finish`, apart from the tokens. -/
def gapsFrom (finish : Nat) : (here : Nat) → List Lexeme → List Span
  | here, [] => [⟨here, finish⟩]
  | here, l :: ls => ⟨here, l.span.start⟩ :: gapsFrom finish l.span.stop ls

/-- The tokens lose nothing of the text. A comment may be left open in the last gap only. -/
structure Lossless (text : List Char) (ls : List Lexeme) : Prop where
  within : ∀ l ∈ ls, l.span.Within text
  inOrder : InOrder (ls.map Lexeme.span)
  written : ∀ l ∈ ls, ∃ taken, Text.slice? l.span.start l.span.stop text = some taken ∧
    '\n' ∉ taken ∧ l.token.IsWrittenAs taken
  padded : ∀ gap ∈ gapsFrom (Text.byteLength text) 0 ls, ∃ padding,
    Text.slice? gap.start gap.stop text = some padding ∧
      IsPadding (gap.stop = Text.byteLength text) padding

theorem ne_newline_of_split {cs padding rest : List Char} {c : Char}
    (h : Padding.split .blank cs = (padding, c :: rest)) : c ≠ '\n' := by
  rintro rfl
  cases Padding.opens_of_split h

theorem Lexeme.IsReadIn.written {text : List Char} {l : Lexeme} (h : l.IsReadIn text) :
    ∃ taken, Text.slice? l.span.start l.span.stop text = some taken ∧
      '\n' ∉ taken ∧ l.token.IsWrittenAs taken := by
  cases h with
  | @behind front cs padding rest c htext hsplit =>
    have hkeeps := Reading.keeps_ofText (ne_newline_of_split hsplit) rest
    have hslice := Text.slice?_eq_some_iff.2 ⟨_, _, eq_of_split htext hsplit, rfl, rfl⟩
    exact ⟨_, hslice, hkeeps.oneLine, hkeeps.written⟩

theorem isPadding_blank (cs : List Char) :
    IsPadding (Padding.split .blank cs).2.isEmpty (Padding.split .blank cs).1 :=
  Padding.isPadding_split .blank cs nofun

theorem padded_lexFrom (text : List Char) (here : Nat) (cs : List Char) :
    ∀ front, text = front ++ cs → here = Text.byteLength front →
      ∀ gap ∈ gapsFrom (Text.byteLength text) here (lexFrom here cs), ∃ padding,
        Text.slice? gap.start gap.stop text = some padding ∧
          IsPadding (gap.stop = Text.byteLength text) padding := by
  fun_induction lexFrom here cs with
  | case1 here cs padding hsplit =>
    intro front htext hhere gap hgap
    obtain rfl := List.mem_singleton.1 hgap
    have hcs : cs = padding := by
      simpa [hsplit] using (Padding.split_append .blank cs).symm
    have hpadding : IsPadding true padding := by
      simpa [hsplit] using isPadding_blank cs
    have hwhole : text = front ++ padding ++ [] := by rw [htext, hcs, List.append_nil]
    have hslice : Text.slice? here (Text.byteLength text) text = some padding :=
      Text.slice?_eq_some_iff.2 ⟨_, _, hwhole, hhere, by rw [htext, hcs]⟩
    exact ⟨padding, hslice, by simpa using hpadding⟩
  | case2 here cs padding c rest hsplit reading start stop ih =>
    intro front htext hhere gap hgap
    have hbehind : text = front ++ padding ++ reading.taken ++ reading.rest :=
      eq_of_split htext hsplit
    have hstart : start = Text.byteLength (front ++ padding) := by
      simp [start, hhere]
    have hstop : stop = Text.byteLength (front ++ padding ++ reading.taken) := by
      rw [Text.byteLength_append, ← hstart]
    rcases List.mem_cons.1 hgap with rfl | hgap
    · -- behind this gap stands a token, so that the gap is not the last one
      have hnotLast : start ≠ Text.byteLength text := by
        have htaken : 0 < Text.byteLength reading.taken := byteLength_taken_pos c rest
        rw [hbehind, Text.byteLength_append, ← hstop]
        omega
      have hpadding : IsPadding false padding := by
        simpa [hsplit] using isPadding_blank cs
      have hslice : Text.slice? here start text = some padding :=
        Text.slice?_eq_some_iff.2 ⟨_, _, by rw [hbehind, List.append_assoc], hhere, hstart⟩
      exact ⟨padding, hslice, by simpa [hnotLast] using hpadding⟩
    · exact ih _ hbehind hstop gap hgap

theorem lossless_lex (source : String) : Lossless source.toList (lex source) where
  within l hl := by
    obtain ⟨hstart, hstop⟩ := (isReadIn_lex hl).boundaries
    exact ⟨Nat.le_of_lt (span_of_mem_lexFrom hl).2, hstop.le, hstart, hstop⟩
  inOrder := inOrder_lex source
  written _ hl := (isReadIn_lex hl).written
  padded := padded_lexFrom source.toList 0 _ [] rfl rfl

end MasCheck
