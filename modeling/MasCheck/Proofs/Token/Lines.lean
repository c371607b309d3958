import MasCheck.Proofs.Token.Joining

/-!
# Lines are read one by one

No token reaches over the end of a line. Texts that are joined by a newline have the tokens of the
first and then those of the second, unless the first ends inside a block comment. What is wrong in
the first, be it an open text or a stray character, changes nothing in the second.
-/

namespace MasCheck

/-- The same token further behind. -/
def Lexeme.shift (offset : Nat) (l : Lexeme) : Lexeme :=
  ⟨l.token, ⟨l.span.start + offset, l.span.stop + offset⟩⟩

theorem lexFrom_add (here offset : Nat) (cs : List Char) :
    lexFrom (here + offset) cs = (lexFrom here cs).map (Lexeme.shift offset) := by
  fun_induction lexFrom here cs with
  | case1 here cs padding hsplit => exact lexFrom_eq_nil _ (congrArg Prod.snd hsplit)
  | case2 here cs padding c rest hsplit reading start stop ih =>
    have hstart : here + offset + Text.byteLength padding = start + offset :=
      Nat.add_right_comm here offset _
    have hstop : start + offset + Text.byteLength reading.taken = stop + offset :=
      Nat.add_right_comm start offset _
    rw [lexFrom_cons (here + offset) hsplit rfl, hstart, hstop, ih]
    rfl

/-- The gap is the last one, and a block comment is opened in it and not closed. -/
def Span.OpensBlock (text : List Char) (gap : Span) : Prop :=
  gap.stop = Text.byteLength text ∧ ∃ padding body,
    Text.slice? gap.start gap.stop text = some (padding ++ '/' :: '*' :: body) ∧
      IsPadding false padding ∧ ¬ ['*', '/'] <:+: body

/-- Behind the last token a block comment is opened and not closed. -/
def EndsInBlock (source : String) : Prop :=
  ∃ gap ∈ gapsFrom (Text.byteLength source.toList) 0 (lex source), gap.OpensBlock source.toList

/-- At a newline padding is outside of comments, if not in a block comment. -/
theorem IsPadding.append_newline {last : Bool} {pad : List Char} (h : IsPadding last pad) :
    (∃ padding body, pad = padding ++ '/' :: '*' :: body ∧ IsPadding false padding ∧
      ¬ ['*', '/'] <:+: body) ∨ IsPadding false (pad ++ ['\n']) := by
  induction h with
  | nil => exact .inr (.blank (by decide) .nil)
  | @blank c pad hc _ ih =>
    rcases ih with ⟨padding, body, rfl, hpadding, hbody⟩ | hclosed
    · exact .inl ⟨c :: padding, body, rfl, .blank hc hpadding, hbody⟩
    · exact .inr (.blank hc hclosed)
  | @line comment pad hcomment _ ih =>
    rcases ih with ⟨padding, body, rfl, hpadding, hbody⟩ | hclosed
    · exact .inl ⟨'%' :: (comment ++ '\n' :: padding), body, by simp, .line hcomment hpadding,
        hbody⟩
    · refine .inr ?_
      rw [List.cons_append, List.append_assoc]
      exact .line hcomment hclosed
  | @block comment pad hcomment _ ih =>
    rcases ih with ⟨padding, body, rfl, hpadding, hbody⟩ | hclosed
    · exact .inl ⟨'/' :: '*' :: (comment ++ '*' :: '/' :: padding), body, by simp,
        .block hcomment hpadding, hbody⟩
    · refine .inr ?_
      rw [List.cons_append, List.cons_append, List.append_assoc]
      exact .block hcomment hclosed
  | openLine _ hbody => exact .inr (.line hbody .nil)
  | openBlock _ hbody => exact .inl ⟨[], _, rfl, .nil, hbody⟩

theorem Token.endsAt_newline (t : Token) : t.endsAt '\n' = true := by
  cases t <;> rfl

/-- A newline ends a text, if not in a block comment. -/
theorem isEndedBy_newline {text : List Char} (here : Nat) (cs : List Char) :
    ∀ front, text = front ++ cs → here = Text.byteLength front →
      (∀ gap ∈ gapsFrom (Text.byteLength text) here (lexFrom here cs), ¬ gap.OpensBlock text) →
      IsEndedBy '\n' [] cs := by
  fun_induction lexFrom here cs with
  | case1 here cs padding hsplit =>
    intro front htext hhere hclosed
    have hslice : Text.slice? here (Text.byteLength text) text = some cs :=
      Text.slice?_eq_some_iff.2 ⟨front, [], by rw [htext, List.append_nil], hhere, by rw [htext]⟩
    have hcs : cs = padding := by
      simpa [hsplit] using (Padding.split_append .blank cs).symm
    have hpadding : IsPadding true padding := by
      have hblank := isPadding_blank cs
      rwa [hsplit] at hblank
    rcases (hcs ▸ hpadding).append_newline with ⟨before, body, rfl, hbefore, hbody⟩ | hnewline
    · exact absurd ⟨rfl, before, body, hslice, hbefore, hbody⟩ (hclosed _ List.mem_cons_self)
    · exact .padding (congrArg Prod.snd hsplit) hnewline
  | case2 here cs padding c rest hsplit reading start stop ih =>
    intro front htext hhere hclosed
    obtain ⟨rfl, hpadding⟩ := Padding.isPadding_of_split hsplit
    refine .token hpadding (Padding.opens_of_split hsplit) (fun _ ↦ Token.endsAt_newline _) ?_
    exact ih (front ++ padding ++ reading.taken) (eq_of_split htext hsplit)
      (by simp [stop, start, hhere, Nat.add_assoc])
      fun gap hgap ↦ hclosed gap (List.mem_cons_of_mem _ hgap)

theorem lex_append_newline {first second : String} (h : ¬ EndsInBlock first) :
    lex (first ++ "\n" ++ second) =
      lex first ++ (lex second).map (Lexeme.shift (Text.byteLength first.toList + 1)) := by
  have hended : IsEndedBy '\n' [] first.toList :=
    isEndedBy_newline 0 first.toList [] rfl rfl fun gap hgap hopens ↦ h ⟨gap, hgap, hopens⟩
  have hlines := hended.lexFrom_append (by decide) (by decide) 0 second.toList
  have htext : (first ++ "\n" ++ second).toList = first.toList ++ ['\n'] ++ second.toList := by
    simp
  have hbyte : Text.byteLength (first.toList ++ ['\n']) = Text.byteLength first.toList + 1 := by
    rw [Text.byteLength_append]
    rfl
  unfold lex
  rw [htext, hlines, hbyte, ← lexFrom_add, Nat.zero_add]

/-- An open text behind a block comment, with a carriage return at its end. -/
theorem lex_append_newline_openText :
    ¬ EndsInBlock "/* c */ 'it\r" ∧ lex ("/* c */ 'it\r" ++ "\n" ++ "launch") =
      [⟨.unclosed .single "it", ⟨8, 12⟩⟩, ⟨.keyword .launch, ⟨13, 19⟩⟩] := by
  have hopens : ¬ EndsInBlock "/* c */ 'it\r" := by
    rintro ⟨gap, hgap, hstop, padding, body, hslice, -, -⟩
    have hgaps : gapsFrom (Text.byteLength "/* c */ 'it\r".toList) 0 (lex "/* c */ 'it\r") =
        [⟨0, 8⟩, ⟨12, 12⟩] := by decide +kernel
    rw [hgaps] at hgap
    obtain rfl : gap = ⟨12, 12⟩ := by
      simp only [List.mem_cons, List.not_mem_nil, or_false] at hgap
      refine hgap.resolve_left ?_
      rintro rfl
      exact absurd hstop (by decide +kernel)
    have hend : Text.slice? 12 12 "/* c */ 'it\r".toList = some [] := by decide +kernel
    exact absurd (Option.some.inj (hend.symm.trans hslice)) (by simp)
  exact ⟨hopens, (lex_append_newline hopens).trans (by decide +kernel)⟩

end MasCheck
