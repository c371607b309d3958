import MasCheck.Proofs.Token.Comments
import MasCheck.Proofs.Token.Scanning

/-!
# Closing the quotes in the source

A text that was left open is repaired as if its closing mark had been written. With all the missing
marks put in, a source is scanned to the same tokens, and nothing but the same stray characters is
reported.
-/

namespace MasCheck

/-- The text with marks put in at offsets, which are given in order. The text starts at byte
`here`. -/
def withMarks (here : Nat) : List (Nat × Char) → List Char → List Char
  | [], cs => cs
  | (offset, mark) :: marks, cs =>
    if here = offset then mark :: withMarks here marks cs
    else match cs with
      | [] => []
      | c :: cs => c :: withMarks (here + c.utf8Size) ((offset, mark) :: marks) cs
termination_by marks cs => marks.length + cs.length

/-- Where the closing mark of an open text is missing: directly behind what the text holds, in front
of the carriage returns that do not belong to it. -/
def Lexeme.missingMark? (l : Lexeme) : Option (Nat × Char) :=
  match l.token with
  | .unclosed quote text => some (l.span.start + 1 + Text.byteLength text.toList, quote.char)
  | _ => none

def missingMarks (ls : List Lexeme) : List (Nat × Char) :=
  ls.filterMap Lexeme.missingMark?

/-- The source with the closing mark of each open text put in. -/
def closeQuotes (source : String) : String :=
  String.ofList (withMarks 0 (missingMarks (lex source)) source.toList)

/-! ## Marks -/

theorem withMarks_here (here : Nat) (mark : Char) (marks : List (Nat × Char)) (cs : List Char) :
    withMarks here ((here, mark) :: marks) cs = mark :: withMarks here marks cs := by
  rw [withMarks.eq_def]
  exact if_pos rfl

/-- In front of the first mark the text stays as it is. -/
theorem withMarks_append {here : Nat} {marks : List (Nat × Char)} {front : List Char}
    (h : ∀ m ∈ marks, here + Text.byteLength front ≤ m.1) (cs : List Char) :
    withMarks here marks (front ++ cs) =
      front ++ withMarks (here + Text.byteLength front) marks cs := by
  induction front generalizing here with
  | nil => rfl
  | cons c front ih =>
    cases marks with
    | nil => rw [withMarks, withMarks]
    | cons m marks =>
      rw [Text.byteLength_cons] at h ⊢
      have hapart : here ≠ m.1 := by
        have hsize := Char.utf8Size_pos c
        have hm := h m List.mem_cons_self
        omega
      have hbehind : ∀ k ∈ m :: marks, here + c.utf8Size + Text.byteLength front ≤ k.1 := by
        rw [Nat.add_assoc]
        exact h
      rw [List.cons_append, withMarks, if_neg hapart, ih hbehind, Nat.add_assoc, List.cons_append]

theorem lt_of_mem_missingMarks {here : Nat} {cs : List Char} {m : Nat × Char}
    (hm : m ∈ missingMarks (lexFrom here cs)) : here < m.1 := by
  obtain ⟨l, hl, hmark⟩ := List.mem_filterMap.1 hm
  have hstart := (span_of_mem_lexFrom hl).1
  unfold Lexeme.missingMark? at hmark
  split at hmark
  · obtain rfl := Option.some.inj hmark
    dsimp only
    omega
  · cases hmark

theorem missingMarks_cons_of_closed {t : Token} (h : t.isUnclosed = false) (span : Span)
    (ls : List Lexeme) : missingMarks (⟨t, span⟩ :: ls) = missingMarks ls := by
  cases t with
  | unclosed => cases h
  | _ => rfl

/-! ## Open texts -/

theorem Token.isUnclosed_iff {t : Token} :
    t.isUnclosed = true ↔ ∃ quote content, t = .unclosed quote content :=
  @Lexeme.isUnclosed_iff ⟨t, ⟨0, 0⟩⟩

namespace Reading

variable {c : Char} {cs : List Char}

theorem exists_returns (cs : List Char) :
    ∃ returns, cs = trimReturns cs ++ returns ∧ ∀ r ∈ returns, r = '\r' := by
  refine ⟨(cs.reverse.takeWhile (· = '\r')).reverse, ?_, fun r hr ↦ ?_⟩
  · unfold trimReturns
    rw [← List.reverse_append, List.takeWhile_append_dropWhile, List.reverse_reverse]
  · have hall := List.all_eq_true.1 List.all_takeWhile r (List.mem_reverse.1 hr)
    simpa using hall

/-- What an open text is read from. -/
theorem exists_of_unclosed {q : Quote} {content : String}
    (h : (ofText c cs).token = .unclosed q content) :
    c = q.char ∧ q.char ∉ content.toList ∧ '\n' ∉ content.toList ∧ ∃ returns,
      (ofText c cs).taken = q.char :: (content.toList ++ returns) ∧ ∀ r ∈ returns, r = '\r' := by
  have hunclosed : (ofText c cs).token.isUnclosed = true := h ▸ rfl
  rcases ofText_cases c cs with ⟨quote, rfl, hquoted⟩ | ⟨-, hoperator⟩ | ⟨hclosed, -⟩
  · rw [hquoted] at h ⊢
    have hall : ∀ d ∈ (run (fun c ↦ c ≠ quote.char && c ≠ '\n') cs).1,
        d ≠ quote.char ∧ d ≠ '\n' := fun d hd ↦ by simpa using all_run d hd
    unfold quoted at h ⊢
    dsimp only at h ⊢
    generalize run (fun c ↦ c ≠ quote.char && c ≠ '\n') cs = body at h hall ⊢
    obtain ⟨returns, hbody, hreturns⟩ := exists_returns body.1
    have hopen : Token.unclosed quote (String.ofList (trimReturns body.1)) = .unclosed q content →
        quote.char = q.char ∧ q.char ∉ content.toList ∧ '\n' ∉ content.toList ∧ ∃ returns,
          quote.char :: body.1 = q.char :: (content.toList ++ returns) ∧
            ∀ r ∈ returns, r = '\r' := by
      intro heq
      obtain ⟨rfl, rfl⟩ := Token.unclosed.inj heq
      rw [String.toList_ofList]
      have htrimmed : ∀ d ∈ trimReturns body.1, d ≠ quote.char ∧ d ≠ '\n' :=
        fun d hd ↦ hall d (hbody ▸ List.mem_append_left returns hd)
      exact ⟨rfl, fun hd ↦ (htrimmed _ hd).1 rfl, fun hd ↦ (htrimmed _ hd).2 rfl,
        returns, by rw [← hbody], hreturns⟩
    split at h
    · next d rest hrest =>
      by_cases hd : d = quote.char
      · rw [if_pos hd] at h
        cases h
      · rw [if_neg hd] at h ⊢
        exact hopen h
    · exact hopen h
  · rw [hoperator] at h
    cases h
  · cases hclosed.symm.trans hunclosed

end Reading

/-! ## Tokens one by one -/

/-- The rest of a text with its missing marks put in. -/
def closedFrom (here : Nat) (cs : List Char) : List Char :=
  withMarks here (missingMarks (lexFrom here cs)) cs

section Step

variable {cs padding rest : List Char} {c : Char} {here stop : Nat}

theorem closedFrom_of_padding (hsplit : Padding.split .blank cs = (padding, [])) :
    closedFrom here cs = cs := by
  unfold closedFrom
  rw [lexFrom_eq_nil here (by rw [hsplit])]
  exact withMarks.eq_1 here cs

theorem closedFrom_of_closed (hsplit : Padding.split .blank cs = (padding, c :: rest))
    (hclosed : (Reading.ofText c rest).token.isUnclosed = false)
    (hstop : stop = here + Text.byteLength padding +
      Text.byteLength (Reading.ofText c rest).taken) :
    closedFrom here cs = padding ++ ((Reading.ofText c rest).taken ++
      closedFrom stop (Reading.ofText c rest).rest) := by
  have hcs : cs = padding ++ (Reading.ofText c rest).taken ++ (Reading.ofText c rest).rest := by
    rw [List.append_assoc, Reading.ofText_append]
    exact (Padding.isPadding_of_split hsplit).1
  have hoffset : stop = here +
      Text.byteLength (padding ++ (Reading.ofText c rest).taken) := by
    rw [Text.byteLength_append, hstop, Nat.add_assoc]
  unfold closedFrom
  rw [lexFrom_cons here hsplit rfl, missingMarks_cons_of_closed hclosed, ← hstop, hcs,
    withMarks_append (fun m hm ↦ hoffset ▸ (lt_of_mem_missingMarks hm).le), ← hoffset,
    List.append_assoc]

theorem closedFrom_of_unclosed {q : Quote} {content : String} {returns : List Char}
    (hsplit : Padding.split .blank cs = (padding, c :: rest))
    (htoken : (Reading.ofText c rest).token = .unclosed q content)
    (htaken : (Reading.ofText c rest).taken = q.char :: (content.toList ++ returns))
    (hstop : stop = here + Text.byteLength padding +
      Text.byteLength (Reading.ofText c rest).taken) :
    closedFrom here cs = padding ++ q.char :: (content.toList ++ q.char ::
      (returns ++ closedFrom stop (Reading.ofText c rest).rest)) := by
  have hcs : cs = padding ++ q.char :: content.toList ++
      (returns ++ (Reading.ofText c rest).rest) := by
    have hall := (Padding.isPadding_of_split hsplit).1
    rw [← Reading.ofText_append, htaken] at hall
    simpa using hall
  have hmark : Text.byteLength [q.char] = 1 := by cases q <;> rfl
  have hoffset : here + Text.byteLength padding + 1 + Text.byteLength content.toList =
      here + Text.byteLength (padding ++ q.char :: content.toList) := by
    rw [Text.byteLength_append, ← List.singleton_append, Text.byteLength_append, hmark]
    omega
  have hreturns : stop = here + Text.byteLength (padding ++ q.char :: content.toList) +
      Text.byteLength returns := by
    rw [hstop, htaken, ← List.cons_append, Text.byteLength_append, Text.byteLength_append]
    omega
  have hmarks : missingMarks (lexFrom here cs) =
      (here + Text.byteLength (padding ++ q.char :: content.toList), q.char) ::
        missingMarks (lexFrom stop (Reading.ofText c rest).rest) := by
    rw [lexFrom_cons here hsplit rfl, ← hstop, htoken, ← hoffset]
    rfl
  have hbehind : ∀ m ∈ missingMarks (lexFrom stop (Reading.ofText c rest).rest), stop ≤ m.1 :=
    fun m hm ↦ (lt_of_mem_missingMarks hm).le
  unfold closedFrom
  rw [hmarks, hcs, withMarks_append, withMarks_here, withMarks_append, ← hreturns,
    List.append_assoc, List.cons_append]
  · exact fun m hm ↦ hreturns ▸ hbehind m hm
  · refine List.forall_mem_cons.2 ⟨Nat.le_refl _, fun m hm ↦ ?_⟩
    have hm := hbehind m hm
    omega

end Step

/-- Texts that differ behind a quotation mark at the most. -/
def AgreeUpToQuote (cs ds : List Char) : Prop :=
  cs = ds ∨ ∃ (q : Quote) (front back back' : List Char),
    cs = front ++ q.char :: back ∧ ds = front ++ q.char :: back'

theorem AgreeUpToQuote.append {cs ds : List Char} (h : AgreeUpToQuote cs ds) (more : List Char) :
    AgreeUpToQuote (more ++ cs) (more ++ ds) := by
  rcases h with rfl | ⟨q, front, back, back', rfl, rfl⟩
  · exact .inl rfl
  · exact .inr ⟨q, more ++ front, back, back', by simp, by simp⟩

theorem AgreeUpToQuote.opens_eq {cs ds : List Char} (h : AgreeUpToQuote cs ds) (c : Char) :
    Padding.opens c ds = Padding.opens c cs := by
  rcases h with rfl | ⟨q, front, back, back', rfl, rfl⟩
  · rfl
  · have hmark : q.char ≠ '*' := by cases q <;> decide
    rw [Padding.opens_joined hmark, Padding.opens_joined hmark]

/-- In front of the mark the same is read. -/
theorem AgreeUpToQuote.ofText_eq {c : Char} {cs ds more : List Char}
    (h : AgreeUpToQuote (Reading.ofText c cs).rest ds)
    (htaken : (Reading.ofText c cs).taken = c :: more) :
    Reading.ofText c (more ++ ds) =
      ⟨(Reading.ofText c cs).token, (Reading.ofText c cs).taken, ds⟩ := by
  have hcs : more ++ (Reading.ofText c cs).rest = cs := by
    have hall := Reading.ofText_append c cs
    rw [htaken] at hall
    exact (List.cons.inj hall).2
  rcases h with rfl | ⟨q, front, back, back', hrest, rfl⟩
  · rw [hcs]
  · have hseparator : Reading.isSeparator q.char = true := by cases q <;> decide
    have hoperator : Reading.isOperator q.char = false := by cases q <;> decide
    have hnewline : q.char ≠ '\n' := by cases q <;> decide
    obtain ⟨word, rfl, hfront, hend⟩ :=
      Reading.ofText_of_rest_eq hrest hseparator hoperator hnewline
    obtain rfl : more ++ front = word := by
      rw [hrest, ← List.append_assoc] at hcs
      exact (List.append_left_inj _).1 hcs
    rw [← List.append_assoc, Reading.ofText_joined_cons hseparator hend,
      Reading.ofText_joined_cons hseparator hend]
    exact congrArg (Reading.mk _ _) (congrArg (· ++ q.char :: back') hfront)

theorem agreeUpToQuote_closedFrom (here : Nat) (cs : List Char) :
    AgreeUpToQuote cs (closedFrom here cs) := by
  fun_induction lexFrom here cs with
  | case1 here cs padding hsplit => exact .inl (closedFrom_of_padding hsplit).symm
  | case2 here cs padding c rest hsplit reading start stop ih =>
    have hcs := (Padding.isPadding_of_split hsplit).1
    cases hunclosed : reading.token.isUnclosed with
    | false =>
      have htaken : reading.taken ++ reading.rest = c :: rest := Reading.ofText_append c rest
      rw [closedFrom_of_closed hsplit hunclosed rfl, hcs, ← htaken]
      exact (ih.append _).append _
    | true =>
      obtain ⟨q, content, htoken⟩ := Token.isUnclosed_iff.1 hunclosed
      obtain ⟨rfl, -, -, returns, htaken, -⟩ := Reading.exists_of_unclosed htoken
      rw [closedFrom_of_unclosed hsplit htoken htaken rfl, hcs]
      exact .inr ⟨q, padding, _, _, rfl, rfl⟩

/-- The same tokens with the open texts closed, at places that may be apart by marks put in. What
stands in front of the first token and behind a stray character is as long as it was. -/
inductive Closing : (here there : Nat) → List Lexeme → List Lexeme → Prop
  | nil {here there : Nat} : Closing here there [] []
  | cons {here there gap stop stop' : Nat} {l l' : Lexeme} {ls ls' : List Lexeme}
      (htoken : l'.token = l.closed.token) (hstart : l.span.start = here + gap)
      (hstart' : l'.span.start = there + gap)
      (hstray : l.isStray = true → stop = l.span.stop ∧ stop' = l'.span.stop)
      (hrest : Closing stop stop' ls ls') : Closing here there (l :: ls) (l' :: ls')

theorem isPadding_returns {returns : List Char} (h : ∀ r ∈ returns, r = '\r') :
    IsPadding false returns := by
  induction returns with
  | nil => exact .nil
  | cons r returns ih =>
    obtain ⟨rfl, hreturns⟩ := List.forall_mem_cons.1 h
    exact .blank (by decide) (ih hreturns)

theorem closing_lexFrom (here there : Nat) (cs : List Char) :
    Closing here there (lexFrom here cs) (lexFrom there (closedFrom here cs)) := by
  fun_induction lexFrom here cs generalizing there with
  | case1 here cs padding hsplit =>
    rw [closedFrom_of_padding hsplit, lexFrom_eq_nil there (by rw [hsplit])]
    exact .nil
  | case2 here cs padding c rest hsplit reading start stop ih =>
    have hpadding := (Padding.isPadding_of_split hsplit).2
    cases hunclosed : reading.token.isUnclosed with
    | false =>
      have hagree := agreeUpToQuote_closedFrom stop reading.rest
      obtain ⟨d, more, htaken⟩ := List.exists_cons_of_ne_nil (Reading.taken_ne_nil c rest)
      have hall := Reading.ofText_append c rest
      rw [htaken, List.cons_append] at hall
      obtain ⟨rfl, hmore⟩ := List.cons.inj hall
      have hopens' : Padding.opens d (more ++ closedFrom stop reading.rest) = false := by
        rw [(hagree.append more).opens_eq, hmore]
        exact Padding.opens_of_split hsplit
      rw [closedFrom_of_closed hsplit hunclosed (rfl : stop = _), htaken, List.cons_append,
        lexFrom_cons there (Padding.split_of_isPadding hpadding hopens') (hagree.ofText_eq htaken)]
      refine .cons ?_ rfl rfl (fun _ ↦ ⟨rfl, rfl⟩) (ih _)
      have hclosed := @Lexeme.closed_of_isUnclosed ⟨reading.token, ⟨start, stop⟩⟩ hunclosed
      exact (congrArg Lexeme.token hclosed).symm
    | true =>
      obtain ⟨q, content, htoken⟩ := Token.isUnclosed_iff.1 hunclosed
      obtain ⟨rfl, hmark, hline, returns, htaken, hreturns⟩ := Reading.exists_of_unclosed htoken
      have hread : Reading.ofText q.char (content.toList ++ q.char ::
          (returns ++ closedFrom stop reading.rest)) =
          ⟨.quoted q content, q.char :: content.toList ++ [q.char],
            returns ++ closedFrom stop reading.rest⟩ := by
        rw [Reading.ofText_mark, Reading.quoted_closed hmark hline, String.ofList_toList]
      have hopens' : Padding.opens q.char (content.toList ++ q.char ::
          (returns ++ closedFrom stop reading.rest)) = false := by
        cases q <;> rfl
      rw [closedFrom_of_unclosed hsplit htoken htaken rfl,
        lexFrom_cons there (Padding.split_of_isPadding hpadding hopens') hread,
        lexFrom_append_of_isPadding (isPadding_returns hreturns)]
      refine .cons ?_ rfl rfl ?_ (ih _)
      · simp [Lexeme.closed, reading, htoken]
      · simp [Lexeme.isStray, reading, htoken, Token.isStray]

/-! ## Pieces -/

namespace Piece

/-- What becomes of a piece when the missing marks are put in: its token is a sound one, and stray
characters stay as they are, at another place. -/
inductive AsClosed : Piece → Piece → Prop
  | token {p : Piece} {l l' : Lexeme} (hp : p.lexeme? = some l) (htoken : l'.token = l.token) :
      AsClosed p (.sound l')
  | stray (text : String) (span span' : Span) : AsClosed (.stray text span) (.stray text span')

end Piece

section

variable {here there : Nat} {l l' : Lexeme} {ls ls' : List Lexeme}

theorem Closing.isStray_eq (htoken : l'.token = l.closed.token) : l'.isStray = l.isStray := by
  rw [← l.isStray_closed]
  exact congrArg Token.isStray htoken

theorem Closing.isUnclosed_eq (htoken : l'.token = l.closed.token) : l'.isUnclosed = false := by
  rw [← l.isUnclosed_closed]
  exact congrArg Token.isUnclosed htoken

theorem Closing.token_of_stray {content : String} (htoken : l'.token = l.closed.token)
    (hl : l.token = .stray content) : l'.token = .stray content := by
  rw [htoken, Lexeme.closed, hl]
  exact hl

theorem consStray_touching {content more : String} {span run : Span} {ps : List Piece}
    (h : run.start = span.stop) : Piece.consStray content span (.stray more run :: ps) =
      .stray (content ++ more) ⟨span.start, run.stop⟩ :: ps :=
  if_pos h

/-- Stray characters touch what follows, or do not, as they did. -/
theorem asClosed_consStray {content : String} {span span' : Span}
    (h : Closing span.stop span'.stop ls ls')
    (hpieces : List.Forall₂ Piece.AsClosed (pieces ls) (pieces ls')) :
    List.Forall₂ Piece.AsClosed (Piece.consStray content span (pieces ls))
      (Piece.consStray content span' (pieces ls')) := by
  cases h with
  | nil => exact .cons (.stray ..) .nil
  | @cons _ _ gap _ _ l l' ls ls' htoken hstart hstart' _ _ =>
    by_cases htouch : l.isStray = true ∧ gap = 0
    · obtain ⟨hstray, rfl⟩ := htouch
      obtain ⟨other, hother⟩ := Lexeme.isStray_iff.1 hstray
      rw [pieces_of_stray hother, pieces_of_stray (Closing.token_of_stray htoken hother)]
        at hpieces ⊢
      obtain ⟨more, run, others, hcons, hrun⟩ := consStray_eq_cons other l.span (pieces ls)
      obtain ⟨more', run', others', hcons', hrun'⟩ := consStray_eq_cons other l'.span (pieces ls')
      rw [hcons, hcons'] at hpieces ⊢
      cases hpieces with
      | cons hfirst hothers =>
      cases hfirst
      rw [consStray_touching (hrun.trans hstart), consStray_touching (hrun'.trans hstart')]
      exact .cons (.stray ..) hothers
    · have hapart : l.isStray = true → gap ≠ 0 := fun hstray hgap ↦ htouch ⟨hstray, hgap⟩
      rw [consStray_apart, consStray_apart]
      · exact .cons (.stray ..) hpieces
      · intro hstray
        have hgap := hapart (Closing.isStray_eq htoken ▸ hstray)
        omega
      · intro hstray
        have hgap := hapart hstray
        omega

theorem asClosed_pieces (h : Closing here there ls ls') :
    List.Forall₂ Piece.AsClosed (pieces ls) (pieces ls') := by
  induction h with
  | nil => exact .nil
  | @cons here there gap stop stop' l l' ls ls' htoken hstart hstart' hstray hrest ih =>
    cases hl : l.isStray with
    | false =>
      rw [pieces_of_sound ((Closing.isStray_eq htoken).trans hl) (Closing.isUnclosed_eq htoken)]
      cases hunclosed : l.isUnclosed with
      | false =>
        rw [pieces_of_sound hl hunclosed]
        rw [Lexeme.closed_of_isUnclosed hunclosed] at htoken
        exact .cons (.token rfl htoken) ih
      | true =>
        obtain ⟨q, content, hcontent⟩ := Lexeme.isUnclosed_iff.1 hunclosed
        rw [pieces_of_unclosed hcontent]
        refine .cons (.token rfl ?_) ih
        rw [htoken, Lexeme.closed, hcontent]
    | true =>
      obtain ⟨content, hcontent⟩ := Lexeme.isStray_iff.1 hl
      obtain ⟨rfl, rfl⟩ := hstray hl
      rw [pieces_of_stray hcontent, pieces_of_stray (Closing.token_of_stray htoken hcontent)]
      exact asClosed_consStray hrest ih

end

/-! ## What is scanned -/

def RepairEvent.strayText? : RepairEvent → Option String
  | .stray text _ => some text
  | _ => none

/-- The second outcome is the first one but for the open texts: it has the same tokens, and reports
nothing but the same stray characters. -/
structure Repaired.AsClosed (r r' : Repaired) : Prop where
  tokens : r'.tokens.map Lexeme.token = r.tokens.map Lexeme.token
  strays : r'.events.filterMap RepairEvent.strayText? = r.events.filterMap RepairEvent.strayText?
  stray : ∀ e ∈ r'.events, ∃ text span, e = .stray text span

theorem strayTexts_of_lexeme? {p : Piece} {l : Lexeme} (h : p.lexeme? = some l) :
    p.events.filterMap RepairEvent.strayText? = [] := by
  cases p with
  | stray => cases h
  | _ => rfl

theorem Repaired.asClosed_ofPieces {ps ps' : List Piece}
    (h : List.Forall₂ Piece.AsClosed ps ps') : AsClosed (ofPieces ps) (ofPieces ps') := by
  induction h with
  | nil => exact ⟨rfl, rfl, nofun⟩
  | @cons p p' ps ps' hfirst _ ih =>
    obtain ⟨htokens, hstrays, hstray⟩ := ih
    simp only [ofPieces] at htokens hstrays hstray ⊢
    cases hfirst with
    | @token _ l l' hp htoken =>
      constructor
      · have hlexeme : (Piece.sound l').lexeme? = some l' := rfl
        rw [List.filterMap_cons_some hp, List.filterMap_cons_some hlexeme]
        exact congrArg₂ List.cons htoken htokens
      · rw [List.flatMap_cons, List.flatMap_cons, List.filterMap_append, List.filterMap_append,
          strayTexts_of_lexeme? hp, hstrays]
        rfl
      · exact hstray
    | stray text span span' =>
      constructor
      · exact htokens
      · simp [Piece.events, RepairEvent.strayText?, hstrays]
      · exact List.forall_mem_cons.2 ⟨⟨text, span', rfl⟩, hstray⟩

theorem Repaired.AsClosed.closedCount {r r' : Repaired} (h : AsClosed r r') :
    r'.closedCount = 0 := by
  refine List.countP_eq_zero.2 fun e he ↦ ?_
  obtain ⟨text, span, rfl⟩ := h.stray e he
  nofun

theorem forall₂_firstPieces {ps ps' : List Piece} (h : List.Forall₂ Piece.AsClosed ps ps')
    (n : Nat) : List.Forall₂ Piece.AsClosed (firstPieces n ps) (firstPieces n ps') := by
  induction h generalizing n with
  | nil => cases n <;> exact .nil
  | @cons p p' ps ps' hfirst _ ih =>
    have hsome : p'.lexeme?.isSome = p.lexeme?.isSome := by
      cases hfirst with
      | token hp => rw [hp]; rfl
      | stray => rfl
    cases n with
    | zero => exact .nil
    | succ n =>
      rw [firstPieces, firstPieces, hsome]
      exact .cons hfirst (ih _)

theorem asClosed_lex (source : String) :
    List.Forall₂ Piece.AsClosed (pieces (lex source)) (pieces (lex (closeQuotes source))) := by
  have hpieces := asClosed_pieces (closing_lexFrom 0 0 source.toList)
  unfold lex closeQuotes
  rw [String.toList_ofList]
  exact hpieces

/-- What a scanner has handed out and reported after pulling so many tokens. -/
def Scanner.pulled (n : Nat) (source : String) : Repaired :=
  { tokens := ((start source).pull n).1, events := ((start source).pull n).2.events }

/-- Repairing a source is as if the missing marks had been written: with them put in, the source
has the same tokens and the same stray characters, and no open text is reported or closed. So it is
whether the source is repaired as a whole or tokens are pulled from it. -/
theorem asClosed_closeQuotes (source : String) :
    Repaired.AsClosed (Repaired.ofSource source) (Repaired.ofSource (closeQuotes source)) ∧
      ∀ n, Repaired.AsClosed (Scanner.pulled n source) (Scanner.pulled n (closeQuotes source)) ∧
        ((Scanner.start (closeQuotes source)).pull n).2.closed = 0 := by
  have hpieces := asClosed_lex source
  refine ⟨Repaired.asClosed_ofPieces hpieces, fun n ↦ ?_⟩
  have hfirst := Repaired.asClosed_ofPieces (forall₂_firstPieces hpieces n)
  obtain ⟨htokens, hevents, -⟩ := Scanner.pull_start source n
  obtain ⟨htokens', hevents', hclosed'⟩ := Scanner.pull_start (closeQuotes source) n
  unfold Scanner.pulled
  rw [htokens, hevents, htokens', hevents', hclosed']
  exact ⟨hfirst, hfirst.closedCount⟩

example : closeQuotes "§'it\r\n\"b" = "§'it'\r\n\"b\"" := by decide +kernel

end MasCheck
