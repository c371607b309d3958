import MasCheck.Proofs.Lists.Basic
import MasCheck.Proofs.Token.Spelling

/-!
# Texts that are joined

What is read in a text depends on what is joined behind it only at the joint. A token in front of
the joint stays as it is unless the first character behind goes on with it, and padding in front of
the joint is passed over when its last comment is closed.
-/

namespace MasCheck

open Text (isAsciiDigit isIdentifierStart isIdentifierRest)

/-! ## Tokens in front of a joint -/

/-- The character ends the token when it follows. It must be a separator as well. -/
def Token.endsAt : Token → Char → Bool
  | unclosed _ _, c => c = '\n'
  | operator _, c => !Reading.isOperator c
  | _, _ => true

namespace Reading

/-- The reading with more text behind it. -/
def before (r : Reading) (back : List Char) : Reading :=
  { r with rest := r.rest ++ back }

/-- No word, no number and no compound goes on with the character. -/
def isSeparator (c : Char) : Bool :=
  !isIdentifierRest c && c ≠ '.' && c ≠ '-'

variable {c : Char} {cs back : List Char}

theorem isSeparator_iff :
    isSeparator c = true ↔ isIdentifierRest c = false ∧ c ≠ '.' ∧ c ≠ '-' := by
  simp [isSeparator, and_assoc]

theorem isIdentifierRest_of_isAsciiDigit (h : isAsciiDigit c = true) :
    isIdentifierRest c = true := by
  have hbounds : 48 ≤ c.toNat ∧ c.toNat ≤ 57 := by
    simpa [isAsciiDigit, Char.le_def, UInt32.le_iff_toNat_le] using h
  have hascii : c.toNat < 128 := by omega
  simp [isIdentifierRest, hascii, h]

theorem not_isAsciiDigit_of_isSeparator (h : isSeparator c = true) : isAsciiDigit c = false := by
  by_contra hdigit
  have hrest := isIdentifierRest_of_isAsciiDigit (by simpa using hdigit : isAsciiDigit c = true)
  cases hrest.symm.trans (isSeparator_iff.1 h).1

theorem run_joined {test : Char → Bool}
    (h : (run test cs).2 = [] → ∀ d ∈ back.head?, test d = false) :
    run test (cs ++ back) = ((run test cs).1, (run test cs).2 ++ back) := by
  induction cs with
  | nil => exact run_append_of_all nofun (h rfl)
  | cons c cs ih =>
    by_cases hc : test c
    · have hrest := ih (by simpa [run, hc] using h)
      simpa [run, hc] using hrest
    · simp [run, hc]

theorem quoted_joined {q : Quote} (h : (quoted q cs).rest = [] →
    ∀ d ∈ back.head?, (quoted q cs).token.endsAt d = true) :
    quoted q (cs ++ back) = (quoted q cs).before back := by
  set test : Char → Bool := fun c ↦ c ≠ q.char && c ≠ '\n' with htest
  by_cases hend : (run test cs).2 = []
  · have hopen : quoted q cs =
        ⟨.unclosed q (String.ofList (trimReturns (run test cs).1)), q.char :: (run test cs).1,
          []⟩ := by
      unfold quoted
      dsimp only
      rw [← htest, hend]
    rw [hopen] at h
    have hnewline : ∀ d ∈ back.head?, d = '\n' := fun d hd ↦ by
      simpa [Token.endsAt] using h rfl d hd
    have hrun : run test (cs ++ back) = ((run test cs).1, back) := by
      rw [run_joined fun _ d hd ↦ by simp [htest, hnewline d hd], hend, List.nil_append]
    rw [hopen]
    unfold quoted
    dsimp only
    rw [← htest, hrun]
    cases back with
    | nil => rfl
    | cons d back =>
      obtain rfl := hnewline d rfl
      have hmark : '\n' ≠ q.char := by cases q <;> decide
      exact if_neg hmark
  · obtain ⟨d, rest, hrest⟩ := List.exists_cons_of_ne_nil hend
    have hrun : run test (cs ++ back) = ((run test cs).1, d :: (rest ++ back)) := by
      rw [run_joined fun hnil ↦ absurd hnil hend, hrest, List.cons_append]
    unfold quoted
    dsimp only
    rw [← htest, hrun, hrest]
    dsimp only
    split <;> rfl

theorem number_joined {d : Char} (h : ∀ e ∈ back.head?, isSeparator e = true) :
    number d (cs ++ back) = (number d cs).before back := by
  have hdigit : ∀ e ∈ back.head?, isAsciiDigit e = false :=
    fun e he ↦ not_isAsciiDigit_of_isSeparator (h e he)
  have hwhole : (if d = '0' then ([], cs ++ back) else run isAsciiDigit (cs ++ back)) =
      ((if d = '0' then ([], cs) else run isAsciiDigit cs).1,
        (if d = '0' then ([], cs) else run isAsciiDigit cs).2 ++ back) := by
    split
    · rfl
    · exact run_joined fun _ ↦ hdigit
  unfold number
  dsimp only
  rw [hwhole]
  generalize (if d = '0' then ([], cs) else run isAsciiDigit cs) = whole
  obtain ⟨digits, behind⟩ := whole
  dsimp only
  match behind with
  | [] =>
    rw [List.nil_append]
    split
    · next point digit rest =>
      have hpoint : point ≠ '.' := (isSeparator_iff.1 (h point rfl)).2.1
      simp [hpoint, before]
    · rfl
  | [point] =>
    cases back with
    | nil => rfl
    | cons e back =>
      have he : isAsciiDigit e = false := hdigit e rfl
      simp [he, before]
  | point :: digit :: rest =>
    dsimp only [List.cons_append]
    split
    · rw [run_joined fun _ ↦ hdigit]
      rfl
    · rfl

/-- The characters of a compound behind its first belong to words, apart from the hyphen. -/
theorem isSeparator_of_mem_compound {s : Sign} (hs : s ∈ compounds) :
    ∀ d ∈ s.text.toList.tail, isSeparator d = false := by
  have hall : s.text.toList.tail.all (fun d ↦ !isSeparator d) = true := by
    simp only [compounds, List.mem_cons, List.not_mem_nil, or_false] at hs
    rcases hs with rfl | rfl | rfl <;> decide
  exact fun d hd ↦ by simpa using List.all_eq_true.1 hall d hd

theorem prefix_joined_iff {s : Sign} (hs : s ∈ compounds)
    (h : ∀ d ∈ back.head?, isSeparator d = true) :
    s.text.toList <+: c :: cs ++ back ↔ s.text.toList <+: c :: cs := by
  refine ⟨fun hlong ↦ ?_, fun hshort ↦ hshort.trans (List.prefix_append _ _)⟩
  have hside := List.prefix_or_prefix_of_prefix hlong (List.prefix_append (c :: cs) back)
  rcases hside with hfront | hover
  · exact hfront
  · obtain ⟨more, hmore⟩ := hover
    rw [← hmore, List.prefix_append_right_inj] at hlong
    cases more with
    | nil => exact ⟨[], by rw [← hmore, List.append_nil, List.append_nil]⟩
    | cons d more =>
      obtain ⟨rest, rfl⟩ := hlong
      have hinside : d ∈ s.text.toList.tail := by simp [← hmore]
      cases (h d rfl).symm.trans (isSeparator_of_mem_compound hs d hinside)

theorem compound?_joined (h : ∀ d ∈ back.head?, isSeparator d = true) :
    compound? (c :: cs ++ back) = (compound? (c :: cs)).map fun r ↦ r.before back := by
  refine findSome?_eq_map fun s hs ↦ ?_
  dsimp only
  by_cases hprefix : s.text.toList <+: c :: cs
  · have hlong := (prefix_joined_iff hs h).2 hprefix
    rw [if_pos (List.isPrefixOf_iff_prefix.2 hprefix), if_pos (List.isPrefixOf_iff_prefix.2 hlong),
      List.drop_append_of_le_length hprefix.length_le]
    rfl
  · have hlong := mt (prefix_joined_iff hs h).1 hprefix
    rw [if_neg (mt List.isPrefixOf_iff_prefix.1 hprefix),
      if_neg (mt List.isPrefixOf_iff_prefix.1 hlong)]
    rfl

theorem word_joined (h : ∀ d ∈ back.head?, isSeparator d = true) :
    word c (cs ++ back) = (word c cs).before back := by
  unfold word
  rw [run_joined fun _ d hd ↦ (isSeparator_iff.1 (h d hd)).1]
  rfl

/-- A token is read in front of a joint as it is read at the end of a text, when a separator
follows that ends the token. -/
theorem ofText_joined (h : ∀ d ∈ back.head?, isSeparator d = true)
    (hend : (ofText c cs).rest = [] → ∀ d ∈ back.head?, (ofText c cs).token.endsAt d = true) :
    ofText c (cs ++ back) = (ofText c cs).before back := by
  unfold ofText at hend ⊢
  split
  · next hdouble =>
    rw [if_pos hdouble] at hend
    exact quoted_joined hend
  split
  · next hdouble hsingle =>
    rw [if_neg hdouble, if_pos hsingle] at hend
    exact quoted_joined hend
  split
  · exact number_joined h
  next hdouble hsingle hdigit =>
  rw [if_neg hdouble, if_neg hsingle, if_neg hdigit] at hend
  rw [← List.cons_append, compound?_joined h]
  cases hcompound : compound? (c :: cs) with
  | some r => rfl
  | none =>
    rw [hcompound] at hend
    dsimp only [Option.map_none] at hend ⊢
    split
    · exact word_joined h
    next hstart =>
    rw [if_neg hstart] at hend
    cases hsign : sign? c with
    | some s => rfl
    | none =>
      rw [hsign] at hend
      dsimp only at hend ⊢
      split
      · next hoperator =>
        rw [if_pos hoperator] at hend
        have hstop : (run isOperator cs).2 = [] → ∀ d ∈ back.head?, isOperator d = false :=
          fun hnil d hd ↦ by simpa [Token.endsAt] using hend hnil d hd
        rw [run_joined hstop]
        rfl
      · rfl

/-! ## Tokens that reach the end of a text -/

variable {d : Char}

theorem all_of_run_eq_nil {test : Char → Bool} (h : (run test cs).2 = []) :
    ∀ c ∈ cs, test c = true := by
  have hall := run_append test cs
  rw [h, List.append_nil] at hall
  exact fun c hc ↦ all_run c (hall ▸ hc)

theorem run_passed {test : Char → Bool} (h : ∀ c ∈ cs, test c = true) (back : List Char) :
    run test (cs ++ back) = (cs ++ (run test back).1, (run test back).2) := by
  unfold run
  rw [List.takeWhile_append_of_pos h, List.dropWhile_append_of_pos h]

/-- Quoted texts and operators are read by their first character, and no other token is left open
or is an operator. -/
theorem ofText_cases (c : Char) (cs : List Char) :
    (∃ q : Quote, c = q.char ∧ ofText c cs = quoted q cs) ∨
      (isOperator c = true ∧ ofText c cs =
        ⟨.operator (String.ofList (c :: (run isOperator cs).1)), c :: (run isOperator cs).1,
          (run isOperator cs).2⟩) ∨
      ((ofText c cs).token.isUnclosed = false ∧ (ofText c cs).token.isOperator = false) := by
  unfold ofText
  split
  · next hc => exact .inl ⟨.double, hc, rfl⟩
  split
  · next hc => exact .inl ⟨.single, hc, rfl⟩
  split
  · refine .inr (.inr ?_)
    unfold number
    dsimp only
    repeat' split
    all_goals exact ⟨rfl, rfl⟩
  split
  · next r hcompound =>
    obtain ⟨s, -, hr⟩ := List.exists_of_findSome?_eq_some hcompound
    dsimp only at hr
    split at hr
    · obtain rfl := Option.some.inj hr
      exact .inr (.inr ⟨rfl, rfl⟩)
    · cases hr
  split
  · refine .inr (.inr ?_)
    unfold word
    dsimp only
    split <;> exact ⟨rfl, rfl⟩
  split
  · exact .inr (.inr ⟨rfl, rfl⟩)
  split
  · next hoperator => exact .inr (.inl ⟨hoperator, rfl⟩)
  · exact .inr (.inr ⟨rfl, rfl⟩)

theorem length_rest_quoted_le (q : Quote) (cs : List Char) :
    (quoted q cs).rest.length ≤ (run (fun c ↦ c ≠ q.char && c ≠ '\n') cs).2.length := by
  unfold quoted
  dsimp only
  generalize run (fun c ↦ c ≠ q.char && c ≠ '\n') cs = body
  split
  · next c rest hrest =>
    rw [hrest]
    split
    · exact Nat.le_succ _
    · exact Nat.le_refl _
  · exact Nat.zero_le _

theorem run_eq_nil_of_isUnclosed {q : Quote} (hopen : (quoted q cs).token.isUnclosed = true)
    (hend : (quoted q cs).rest = []) :
    (run (fun c ↦ c ≠ q.char && c ≠ '\n') cs).2 = [] := by
  unfold quoted at hopen hend
  dsimp only at hopen hend
  generalize run (fun c ↦ c ≠ q.char && c ≠ '\n') cs = body at hopen hend
  split at hend
  · next c rest hrest =>
    split at hend
    · next hc =>
      rw [hrest] at hopen
      dsimp only at hopen
      rw [if_pos hc] at hopen
      cases hopen
    · exact hend
  · next hrest => exact hrest

/-- A text that is left open goes on with all that follows on its line. -/
theorem length_rest_le_of_isUnclosed (hopen : (ofText c cs).token.isUnclosed = true)
    (hend : (ofText c cs).rest = []) (hd : d ≠ '\n') :
    (ofText c (cs ++ d :: back)).rest.length ≤ back.length := by
  rcases ofText_cases c cs with ⟨q, rfl, hquoted⟩ | ⟨-, hoperator⟩ | ⟨hclosed, -⟩
  · rw [hquoted] at hopen hend
    have hall := all_of_run_eq_nil (run_eq_nil_of_isUnclosed hopen hend)
    rw [ofText_mark]
    by_cases hmark : d = q.char
    · have hnotMark : q.char ∉ cs := fun hmem ↦ by simpa using hall _ hmem
      have hnotNewline : '\n' ∉ cs := fun hmem ↦ by simpa using hall _ hmem
      rw [hmark, quoted_closed hnotMark hnotNewline]
    · have hmore : ∀ e ∈ cs ++ [d], (fun c ↦ c ≠ q.char && c ≠ '\n') e = true := by
        refine List.forall_mem_append.2 ⟨hall, fun e he ↦ ?_⟩
        simp [List.mem_singleton.1 he, hmark, hd]
      refine (length_rest_quoted_le q _).trans ?_
      rw [List.append_cons, run_passed hmore]
      exact (List.dropWhile_suffix _).length_le
  · rw [hoperator] at hopen
    cases hopen
  · cases hclosed.symm.trans hopen

theorem ofText_of_isOperator (hc : isOperator c = true) (cs : List Char) : ofText c cs =
    ⟨.operator (String.ofList (c :: (run isOperator cs).1)), c :: (run isOperator cs).1,
      (run isOperator cs).2⟩ := by
  have hstop : ∀ d ∈ (run isOperator cs).2.head?, isOperator d = false := by
    intro d hd
    have hhead := List.head?_dropWhile_not isOperator cs
    change (List.dropWhile isOperator cs).head? = some d at hd
    rw [hd] at hhead
    exact hhead
  have hread := @ofText_operator c (run isOperator cs).1 _ hc all_run hstop
  rwa [run_append] at hread

theorem isOperator_quoted (q : Quote) (cs : List Char) :
    (quoted q cs).token.isOperator = false := by
  unfold quoted
  dsimp only
  split
  · split <;> rfl
  · rfl

/-- An operator goes on with characters of operators. -/
theorem token_ne_of_isOperator (hoperator : (ofText c cs).token.isOperator = true)
    (hend : (ofText c cs).rest = []) (hd : isOperator d = true) :
    (ofText c (cs ++ d :: back)).token ≠ (ofText c cs).token := by
  rcases ofText_cases c cs with ⟨q, -, hquoted⟩ | ⟨hc, hread⟩ | ⟨-, hother⟩
  · rw [hquoted, isOperator_quoted] at hoperator
    cases hoperator
  · rw [hread] at hend
    dsimp only at hend
    have hgrown : (run isOperator (cs ++ d :: back)).1 = cs ++ d :: (run isOperator back).1 := by
      rw [run_passed (all_of_run_eq_nil hend)]
      simp [run, hd]
    have hfront : (run isOperator cs).1 = cs := by
      have hall := run_append isOperator cs
      rwa [hend, List.append_nil] at hall
    intro hsame
    rw [ofText_of_isOperator hc, ofText_of_isOperator hc, hgrown, hfront] at hsame
    have htexts := congrArg String.toList (Token.operator.inj hsame)
    simp at htexts
  · cases hother.symm.trans hoperator

theorem ofText_joined_cons (hseparator : isSeparator d = true)
    (hend : (ofText c cs).rest = [] → (ofText c cs).token.endsAt d = true) :
    ofText c (cs ++ d :: back) = (ofText c cs).before (d :: back) :=
  ofText_joined (fun _ he ↦ Option.some.inj he ▸ hseparator)
    fun hnil _ he ↦ Option.some.inj he ▸ hend hnil

/-- A token that ends in front of a separator is read without what follows from there. -/
theorem ofText_of_rest_eq {between : List Char} (hrest : (ofText c cs).rest = between ++ d :: back)
    (hseparator : isSeparator d = true) (hoperator : isOperator d = false) (hd : d ≠ '\n') :
    ∃ front, cs = front ++ d :: back ∧ (ofText c front).rest = between ∧
      ((ofText c front).rest = [] → (ofText c front).token.endsAt d = true) := by
  have hall := ofText_append c cs
  obtain ⟨e, more, htaken⟩ := List.exists_cons_of_ne_nil (taken_ne_nil c cs)
  rw [htaken, hrest] at hall
  obtain rfl : cs = more ++ between ++ d :: back := by
    rw [List.append_assoc]
    exact (List.cons.inj hall).2.symm
  have hbehind : back.length < (ofText c (more ++ between ++ d :: back)).rest.length := by
    rw [hrest, List.length_append, List.length_cons]
    omega
  have hend : (ofText c (more ++ between)).rest = [] →
      (ofText c (more ++ between)).token.endsAt d = true := by
    intro hnil
    cases htoken : (ofText c (more ++ between)).token with
    | unclosed q text =>
      have hlength := @length_rest_le_of_isUnclosed c _ back d (htoken ▸ rfl) hnil hd
      exact absurd hlength (Nat.not_le.2 hbehind)
    | operator text => simp [Token.endsAt, hoperator]
    | _ => rfl
  refine ⟨more ++ between, rfl, ?_, hend⟩
  rw [ofText_joined_cons hseparator hend] at hrest
  exact List.append_cancel_right hrest

end Reading

/-! ## Padding in front of a joint -/

namespace Padding

theorem split_cons (mode : Padding) {c : Char} {cs : List Char}
    (hgo : mode = blank → opens c cs = true) :
    split mode (c :: cs) = Prod.map (c :: ·) id (split (mode.after c) cs) := by
  rw [split, if_neg]
  simp only [Bool.and_eq_true, decide_eq_true_eq, Bool.not_eq_true', not_and,
    Bool.not_eq_false]
  exact hgo

/-- Inside of a comment every character is passed over. -/
theorem split_inside {mode : Padding} (hmode : mode ≠ blank) (c : Char) (cs : List Char) :
    split mode (c :: cs) = Prod.map (c :: ·) id (split (mode.after c) cs) :=
  split_cons mode fun hblank ↦ absurd hblank hmode

/-- A character opens padding or not whatever is joined behind, unless a slash gets its star from
there. -/
theorem opens_joined {d : Char} (hd : d ≠ '*') (c : Char) (cs back : List Char) :
    opens c (cs ++ d :: back) = opens c cs := by
  cases cs with
  | nil => simp [opens, hd]
  | cons e es => rfl

/-- In a line comment all is passed over up to its newline. -/
theorem split_line {body : List Char} (hbody : '\n' ∉ body) (cs : List Char) :
    split line (body ++ '\n' :: cs) = Prod.map (body ++ ['\n'] ++ ·) id (split blank cs) := by
  induction body with
  | nil => rfl
  | cons c body ih =>
    obtain ⟨hc, hrest⟩ := List.ne_and_not_mem_of_not_mem_cons hbody
    rw [List.cons_append, split_inside (by decide : line ≠ blank), after, if_neg (Ne.symm hc),
      ih hrest]
    rfl

theorem not_infix_of_cons {part body : List Char} {c : Char} (h : ¬ part <:+: c :: body) :
    ¬ part <:+: body :=
  fun hbody ↦ h (hbody.trans (List.suffix_cons c body).isInfix)

/-- In a block comment all is passed over up to the first mark that closes it. -/
theorem split_block {body : List Char} (cs : List Char) :
    (¬ ['*', '/'] <:+: body → split block (body ++ '*' :: '/' :: cs) =
      Prod.map (body ++ ['*', '/'] ++ ·) id (split blank cs)) ∧
    (¬ ['*', '/'] <:+: '*' :: body → split star (body ++ '*' :: '/' :: cs) =
      Prod.map (body ++ ['*', '/'] ++ ·) id (split blank cs)) := by
  induction body with
  | nil => exact ⟨fun _ ↦ rfl, fun _ ↦ rfl⟩
  | cons c body ih =>
    obtain ⟨hblock, hstar⟩ := ih
    constructor
    · intro hbody
      rw [List.cons_append, split_inside (by decide : block ≠ blank), after]
      split
      · next hc =>
        subst hc
        rw [hstar hbody]
        rfl
      · rw [hblock (not_infix_of_cons hbody)]
        rfl
    · intro hbody
      have hslash : c ≠ '/' := by
        rintro rfl
        exact hbody ⟨[], body, rfl⟩
      rw [List.cons_append, split_inside (by decide : star ≠ blank), after, if_neg hslash]
      split
      · next hc =>
        subst hc
        rw [hstar (not_infix_of_cons hbody)]
        rfl
      · rw [hblock (not_infix_of_cons (not_infix_of_cons hbody))]
        rfl

/-- Padding whose comments are closed is passed over whatever follows. -/
theorem split_append_of_isPadding {pad : List Char} (h : IsPadding false pad) (cs : List Char) :
    split blank (pad ++ cs) = Prod.map (pad ++ ·) id (split blank cs) := by
  induction h with
  | nil => rfl
  | @blank c pad hc hpad ih =>
    have hblank : isBlank c = true := by simpa [isBlank, or_assoc] using hc
    have hafter : blank.after c = blank := by
      simp only [List.mem_cons, List.not_mem_nil, or_false] at hc
      rcases hc with rfl | rfl | rfl | rfl <;> rfl
    rw [List.cons_append, split_cons blank fun _ ↦ by simp [opens, hblank], hafter, ih]
    rfl
  | @line body pad hbody hpad ih =>
    have htext : '%' :: (body ++ '\n' :: pad) ++ cs = '%' :: (body ++ '\n' :: (pad ++ cs)) := by
      simp
    rw [htext, split_cons blank fun _ ↦ rfl, after, if_pos rfl, split_line hbody, ih]
    simp [Prod.map]
  | @block body pad hbody hpad ih =>
    have htext : '/' :: '*' :: (body ++ '*' :: '/' :: pad) ++ cs =
        '/' :: '*' :: (body ++ '*' :: '/' :: (pad ++ cs)) := by simp
    have hopening : split opening ('*' :: (body ++ '*' :: '/' :: (pad ++ cs))) =
        Prod.map ('*' :: ·) id (split block (body ++ '*' :: '/' :: (pad ++ cs))) := rfl
    rw [htext, split_cons blank fun _ ↦ rfl]
    change Prod.map _ id (split opening _) = _
    rw [hopening, (split_block _).1 hbody, ih]
    simp [Prod.map]
  | openLine hlast => cases hlast
  | openBlock hlast => cases hlast

theorem split_of_isPadding {padding rest : List Char} {c : Char} (h : IsPadding false padding)
    (hopens : opens c rest = false) :
    split blank (padding ++ c :: rest) = (padding, c :: rest) := by
  have hstop : split blank (c :: rest) = ([], c :: rest) := by
    rw [split, if_pos]
    simp [hopens]
  rw [split_append_of_isPadding h, hstop]
  exact Prod.ext (List.append_nil padding) rfl

/-- What stands in front of a token and where it is read. -/
theorem isPadding_of_split {cs padding rest : List Char} {c : Char}
    (h : split blank cs = (padding, c :: rest)) :
    cs = padding ++ c :: rest ∧ IsPadding false padding := by
  have hcs := split_append blank cs
  have hpadding := isPadding_blank cs
  rw [h] at hcs hpadding
  exact ⟨hcs.symm, hpadding⟩

end Padding

theorem lexFrom_eq_nil {cs : List Char} (here : Nat) (h : (Padding.split .blank cs).2 = []) :
    lexFrom here cs = [] := by
  rw [lexFrom]
  split
  · rfl
  · next hsplit =>
    rw [hsplit] at h
    cases h

/-- Padding only moves the tokens behind it. -/
theorem lexFrom_append_of_isPadding {pad : List Char} (h : IsPadding false pad) (here : Nat)
    (cs : List Char) : lexFrom here (pad ++ cs) = lexFrom (here + Text.byteLength pad) cs := by
  have hjoined := Padding.split_append_of_isPadding h cs
  cases hsplit : Padding.split .blank cs with
  | mk padding behind =>
  rw [hsplit] at hjoined
  cases behind with
  | nil => rw [lexFrom_eq_nil here (by rw [hjoined]; rfl), lexFrom_eq_nil _ (by rw [hsplit])]
  | cons c rest =>
    rw [lexFrom_cons here hjoined rfl, lexFrom_cons _ hsplit rfl, Text.byteLength_append,
      ← Nat.add_assoc here]

/-! ## Texts in front of a joint -/

theorem lexFrom_cons_joined {padding rest back : List Char} {c d : Char} (here : Nat)
    (hpadding : IsPadding false padding) (hopens : Padding.opens c rest = false)
    (hseparator : Reading.isSeparator d = true) (hstar : d ≠ '*')
    (hend : (Reading.ofText c rest).rest = [] → (Reading.ofText c rest).token.endsAt d = true) :
    lexFrom here (padding ++ c :: rest ++ d :: back) =
      ⟨(Reading.ofText c rest).token, ⟨here + Text.byteLength padding,
        here + Text.byteLength padding + Text.byteLength (Reading.ofText c rest).taken⟩⟩ ::
      lexFrom (here + Text.byteLength padding + Text.byteLength (Reading.ofText c rest).taken)
        ((Reading.ofText c rest).rest ++ d :: back) := by
  have hopens' : Padding.opens c (rest ++ d :: back) = false :=
    (Padding.opens_joined hstar c rest back).trans hopens
  rw [List.append_assoc]
  exact lexFrom_cons here (Padding.split_of_isPadding hpadding hopens')
    (Reading.ofText_joined_cons hseparator hend)

/-- Behind the text the separator ends the last token, or completes the padding. -/
inductive IsEndedBy (d : Char) (separator : List Char) : List Char → Prop
  | padding {cs : List Char} (hcs : (Padding.split .blank cs).2 = [])
      (hpadding : IsPadding false (cs ++ d :: separator)) : IsEndedBy d separator cs
  | token {padding rest : List Char} {c : Char} (hpadding : IsPadding false padding)
      (hopens : Padding.opens c rest = false)
      (hend : (Reading.ofText c rest).rest = [] → (Reading.ofText c rest).token.endsAt d = true)
      (hrest : IsEndedBy d separator (Reading.ofText c rest).rest) :
      IsEndedBy d separator (padding ++ c :: rest)

/-- Texts with a separator between them have the tokens of the first and then those of the
second. -/
theorem IsEndedBy.lexFrom_append {d : Char} {separator cs : List Char}
    (h : IsEndedBy d separator cs) (hseparator : Reading.isSeparator d = true) (hstar : d ≠ '*')
    (here : Nat) (back : List Char) :
    lexFrom here (cs ++ d :: separator ++ back) =
      lexFrom here cs ++ lexFrom (here + Text.byteLength (cs ++ d :: separator)) back := by
  induction h generalizing here with
  | padding hcs hpadding =>
    rw [lexFrom_eq_nil here hcs, lexFrom_append_of_isPadding hpadding, List.nil_append]
  | @token padding rest c hpadding hopens hend hrest ih =>
    have htaken := congrArg Text.byteLength (Reading.ofText_append c rest)
    have hsplit := Padding.split_of_isPadding hpadding hopens
    have hlong : padding ++ c :: rest ++ d :: separator ++ back =
        padding ++ c :: rest ++ d :: (separator ++ back) := by simp
    have hlong' : (Reading.ofText c rest).rest ++ d :: (separator ++ back) =
        (Reading.ofText c rest).rest ++ d :: separator ++ back := by simp
    rw [hlong, lexFrom_cons_joined here hpadding hopens hseparator hstar hend, hlong', ih,
      lexFrom_cons here hsplit rfl, List.cons_append]
    simp only [Text.byteLength_append] at htaken ⊢
    rw [← htaken]
    simp only [Nat.add_assoc]

/-! ## Texts that end with a closing brace -/

/-- The last token is a closing brace, and nothing stands behind it. -/
inductive IsClosed : List Char → Prop
  | brace {padding : List Char} (hpadding : IsPadding false padding) : IsClosed (padding ++ ['}'])
  | token {padding rest : List Char} {c : Char} (hpadding : IsPadding false padding)
      (hopens : Padding.opens c rest = false) (hrest : IsClosed (Reading.ofText c rest).rest) :
      IsClosed (padding ++ c :: rest)

theorem isClosed_of_lexFrom (here : Nat) (cs : List Char) : ∀ ls start,
    lexFrom here cs = ls ++ [⟨.sign .rightBrace, ⟨start, here + Text.byteLength cs⟩⟩] →
      IsClosed cs := by
  fun_induction lexFrom here cs with
  | case1 =>
    intro ls start hcs
    exact absurd hcs.symm (List.append_ne_nil_of_right_ne_nil ls (List.cons_ne_nil _ []))
  | case2 here cs padding c rest hsplit reading start stop ih =>
    intro ls brace hcs
    obtain ⟨rfl, hpadding⟩ := Padding.isPadding_of_split hsplit
    have hopens := Padding.opens_of_split hsplit
    have hfinish : here + Text.byteLength (padding ++ c :: rest) =
        stop + Text.byteLength reading.rest := by
      rw [← Reading.ofText_append c rest, Text.byteLength_append, Text.byteLength_append]
      simp only [stop, start, reading, Nat.add_assoc]
    rw [hfinish] at hcs
    cases ls with
    | cons l ls => exact .token hpadding hopens (ih ls brace (List.cons.inj hcs).2)
    | nil =>
      have hfirst := (List.cons.inj hcs).1
      have htoken : reading.token = .sign .rightBrace := congrArg Lexeme.token hfirst
      have hrest : reading.rest = [] := by
        have hstop : stop = stop + Text.byteLength reading.rest :=
          congrArg (fun l ↦ l.span.stop) hfirst
        exact Text.eq_nil_of_byteLength_eq_zero (by omega)
      have htaken : reading.token.IsWrittenAs reading.taken :=
        (Reading.keeps_ofText (ne_newline_of_split hsplit) rest).written
      have hbrace : ['}'] = reading.taken := by
        rw [htoken] at htaken
        exact htaken
      have htext : reading.taken ++ reading.rest = c :: rest := Reading.ofText_append c rest
      rw [hrest, List.append_nil, ← hbrace] at htext
      obtain ⟨rfl, rfl⟩ := List.cons.inj htext
      exact .brace hpadding

theorem IsClosed.exists_concat {cs : List Char} (h : IsClosed cs) :
    ∃ front, cs = front ++ ['}'] := by
  induction h with
  | brace => exact ⟨_, rfl⟩
  | @token padding rest c _ _ _ ih =>
    obtain ⟨front, hfront⟩ := ih
    refine ⟨padding ++ ((Reading.ofText c rest).taken ++ front), ?_⟩
    rw [← Reading.ofText_append c rest, hfront]
    simp

/-- Behind a closing brace anything may follow. -/
theorem IsClosed.lexFrom_append {cs : List Char} (h : IsClosed cs) (here : Nat)
    (back : List Char) :
    lexFrom here (cs ++ back) = lexFrom here cs ++ lexFrom (here + Text.byteLength cs) back := by
  induction h generalizing here with
  | @brace padding hpadding =>
    have hread : ∀ back, Reading.ofText '}' back = ⟨.sign .rightBrace, ['}'], back⟩ := fun _ ↦ rfl
    have hlex : ∀ back, lexFrom here (padding ++ '}' :: back) =
        ⟨.sign .rightBrace, ⟨here + Text.byteLength padding, here + Text.byteLength padding + 1⟩⟩ ::
          lexFrom (here + Text.byteLength padding + 1) back :=
      fun back ↦ lexFrom_cons here (Padding.split_of_isPadding hpadding rfl) (hread back)
    rw [List.append_assoc, List.singleton_append, hlex back, hlex [], @lexFrom_eq_nil [] _ rfl,
      Text.byteLength_append, ← Nat.add_assoc]
    rfl
  | @token padding rest c hpadding hopens hrest ih =>
    -- the brace at the end separates each token in front of it from what follows
    obtain ⟨between, hbetween⟩ := hrest.exists_concat
    obtain ⟨front, rfl, -, hend⟩ :=
      Reading.ofText_of_rest_eq hbetween (by decide) (by decide) (by decide)
    have hopens' : Padding.opens c front = false :=
      (Padding.opens_joined (by decide) c front []).symm.trans hopens
    have hlex : ∀ back, lexFrom here (padding ++ c :: front ++ '}' :: back) = _ :: lexFrom _ _ :=
      fun back ↦ lexFrom_cons_joined here hpadding hopens' (by decide) (by decide) hend
    have hread : (Reading.ofText c (front ++ ['}'])).rest =
        (Reading.ofText c front).rest ++ ['}'] :=
      congrArg Reading.rest (Reading.ofText_joined_cons (by decide) hend)
    have hlength : here + Text.byteLength padding +
        Text.byteLength (Reading.ofText c front).taken +
          Text.byteLength ((Reading.ofText c front).rest ++ ['}']) =
        here + Text.byteLength (padding ++ c :: (front ++ ['}'])) := by
      rw [← List.cons_append, ← Reading.ofText_append c front]
      simp only [Text.byteLength_append, Nat.add_assoc]
    have htext : ∀ back : List Char,
        padding ++ c :: (front ++ ['}']) ++ back = padding ++ c :: front ++ '}' :: back := by simp
    have hrest : (Reading.ofText c front).rest ++ '}' :: back =
        (Reading.ofText c front).rest ++ ['}'] ++ back := by simp
    have hnil := htext []
    rw [List.append_nil] at hnil
    rw [hread] at ih
    rw [htext back, hlex back, hrest, ih, hlength, hnil, hlex []]
    rfl

end MasCheck
