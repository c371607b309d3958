import MasCheck.Proofs.Token.Runs
import MasCheck.Token.Layout

/-!
# How tokens are spelled

A token that comes out of a scanner has a text of its kind. Written in front of a text that does
not go on with it, it is read again as the same token.
-/

namespace MasCheck

open Text (isAsciiDigit isIdentifierStart isIdentifierRest)

/-- The word with these characters, reserved or not. -/
def Token.ofWord (text : List Char) : Token :=
  match Keyword.ofText? (String.ofList text) with
  | some k => .keyword k
  | none => .identifier (String.ofList text)

/-- The texts that tokens have when they come out of a scanner. -/
inductive Token.IsSpelled : Token → Prop
  | word {c : Char} {cs : List Char} (hstart : isIdentifierStart c = true)
      (hrest : ∀ d ∈ cs, isIdentifierRest d = true) : IsSpelled (ofWord (c :: cs))
  | sign (s : Sign) : IsSpelled (.sign s)
  | integer {d : Char} {ds : List Char} (hfirst : isAsciiDigit d = true)
      (hdigits : ∀ e ∈ ds, isAsciiDigit e = true) (hzero : d = '0' → ds = []) :
      IsSpelled (.integer (String.ofList (d :: ds)))
  | decimal {d e : Char} {ds es : List Char} (hfirst : isAsciiDigit d = true)
      (hdigits : ∀ e ∈ ds, isAsciiDigit e = true) (hzero : d = '0' → ds = [])
      (hpoint : isAsciiDigit e = true) (hfraction : ∀ d ∈ es, isAsciiDigit d = true) :
      IsSpelled (.decimal (String.ofList (d :: ds ++ '.' :: e :: es)))
  | quoted {q : Quote} {text : List Char} (hmark : q.char ∉ text) (hline : '\n' ∉ text) :
      IsSpelled (.quoted q (String.ofList text))
  | operator {c : Char} {cs : List Char} (hfirst : Reading.isOperator c = true)
      (hrest : ∀ d ∈ cs, Reading.isOperator d = true) :
      IsSpelled (.operator (String.ofList (c :: cs)))

namespace Reading

theorem run_append_of_all {test : Char → Bool} {front back : List Char}
    (hfront : ∀ c ∈ front, test c = true) (hback : ∀ c ∈ back.head?, test c = false) :
    run test (front ++ back) = (front, back) := by
  unfold run
  rw [List.takeWhile_append_of_pos hfront, List.dropWhile_append_of_pos hfront]
  cases back with
  | nil => simp
  | cons c back => simp [hback c rfl]

/-! ## Characters that tokens begin with -/

theorem not_start_of_isAsciiDigit {c : Char} (h : isAsciiDigit c = true) :
    isIdentifierStart c = false := by
  have hbounds : 48 ≤ c.toNat ∧ c.toNat ≤ 57 := by
    simpa [isAsciiDigit, Char.le_def, UInt32.le_iff_toNat_le] using h
  have hascii : c.toNat < 128 := by omega
  have hletter : Text.isAsciiLetter c = false := by
    have hlower : ¬ 97 ≤ c.toNat := by omega
    have hupper : ¬ 65 ≤ c.toNat := by omega
    simpa [Text.isAsciiLetter, Char.le_def, UInt32.le_iff_toNat_le] using
      ⟨fun h ↦ absurd h hlower, fun h ↦ absurd h hupper⟩
  have hunderscore : c ≠ '_' := by
    rintro rfl
    exact absurd h (by decide)
  simp [isIdentifierStart, hascii, hletter, hunderscore]

/-- A character of a class without blanks and marks of comments opens no padding. A slash may belong
to the class if it is not followed by a star. -/
theorem opens_eq_false {test : Char → Bool} {c : Char} {cs : List Char} (hc : test c = true)
    (htest : [' ', '\t', '\r', '\n', '%'].any test = false)
    (hblock : test '/' = false ∨ cs.head? ≠ some '*') : Padding.opens c cs = false := by
  have hnot : c ∉ [' ', '\t', '\r', '\n', '%'] :=
    fun hmem ↦ List.any_eq_false.1 htest c hmem hc
  simp only [List.mem_cons, List.not_mem_nil, or_false, not_or] at hnot
  obtain ⟨hspace, htab, hreturn, hnewline, hline⟩ := hnot
  have hslash : c ≠ '/' ∨ cs.head? ≠ some '*' := by
    refine hblock.imp_left ?_
    rintro htest rfl
    cases hc.symm.trans htest
  simp [Padding.opens, Padding.isBlank, hspace, htab, hreturn, hnewline, hline, imp_iff_not_or,
    hslash]

/-! ## Words -/

theorem written_ofWord (text : List Char) : (Token.ofWord text).written.toList = text := by
  unfold Token.ofWord
  split
  · next k hk =>
    have htext := List.find?_some hk
    rw [decide_eq_true_eq] at htext
    rw [Token.written, htext, String.toList_ofList]
  · exact String.toList_ofList

theorem takeWhile_compound {s : Sign} (hs : s ∈ compounds) (rest : List Char) :
    (s.text.toList ++ rest).takeWhile isIdentifierRest =
      s.text.toList.takeWhile isIdentifierRest := by
  simp only [compounds, List.mem_cons, List.not_mem_nil, or_false] at hs
  rcases hs with rfl | rfl | rfl <;> rfl

/-- A word is not the front part of a compound unless its hyphen follows. -/
theorem compound?_eq_none {word rest : List Char} (hword : ∀ c ∈ word, isIdentifierRest c = true)
    (hne : word ≠ []) (hstop : ∀ c ∈ rest.head?, isIdentifierRest c = false)
    (hhyphen : rest.head? = some '-' → word ≠ ['a'] ∧ word ≠ ['g', 'o', 'a', 'l']) :
    compound? (word ++ rest) = none := by
  unfold compound?
  rw [List.findSome?_eq_none_iff]
  intro s hs
  dsimp only
  split
  · next hprefix =>
    exfalso
    obtain ⟨back, hback⟩ := List.isPrefixOf_iff_prefix.1 hprefix
    have hfront : word = s.text.toList.takeWhile isIdentifierRest := by
      have hrun := congrArg Prod.fst (run_append_of_all hword hstop)
      rw [← takeWhile_compound hs back, hback]
      exact hrun.symm
    have hbehind : rest = s.text.toList.dropWhile isIdentifierRest ++ back := by
      rw [← List.takeWhile_append_dropWhile (p := isIdentifierRest) (l := s.text.toList),
        List.append_assoc, ← hfront] at hback
      exact (List.append_cancel_left hback).symm
    simp only [compounds, List.mem_cons, List.not_mem_nil, or_false] at hs
    rcases hs with rfl | rfl | rfl
    · exact (hhyphen (hbehind ▸ rfl)).1 hfront
    · exact (hhyphen (hbehind ▸ rfl)).2 hfront
    · exact hne hfront
  · rfl

theorem ofText_word {c : Char} {cs rest : List Char} (hstart : isIdentifierStart c = true)
    (hrest : ∀ d ∈ cs, isIdentifierRest d = true)
    (hstop : ∀ d ∈ rest.head?, isIdentifierRest d = false)
    (hhyphen : rest.head? = some '-' → c :: cs ≠ ['a'] ∧ c :: cs ≠ ['g', 'o', 'a', 'l']) :
    ofText c (cs ++ rest) = ⟨.ofWord (c :: cs), c :: cs, rest⟩ := by
  have hdouble : c ≠ '"' := by
    rintro rfl
    exact absurd hstart (by decide)
  have hsingle : c ≠ '\'' := by
    rintro rfl
    exact absurd hstart (by decide)
  have hdigit : isAsciiDigit c = false := by
    by_contra hdigit
    rw [not_start_of_isAsciiDigit (by simpa using hdigit)] at hstart
    cases hstart
  have hall : ∀ d ∈ c :: cs, isIdentifierRest d = true :=
    List.forall_mem_cons.2 ⟨Text.isIdentifierRest_of_start hstart, hrest⟩
  have hcompound := compound?_eq_none hall (List.cons_ne_nil c cs) hstop hhyphen
  unfold ofText
  rw [if_neg hdouble, if_neg hsingle, hdigit, if_neg Bool.false_ne_true, ← List.cons_append,
    hcompound]
  dsimp only
  rw [if_pos hstart, word, run_append_of_all hrest hstop]
  rfl

/-! ## Numbers -/

theorem number_integer {d : Char} {ds rest : List Char} (hdigits : ∀ e ∈ ds, isAsciiDigit e = true)
    (hzero : d = '0' → ds = []) (hstop : ∀ e ∈ rest.head?, isAsciiDigit e = false ∧ e ≠ '.') :
    number d (ds ++ rest) = ⟨.integer (String.ofList (d :: ds)), d :: ds, rest⟩ := by
  have hwhole : (if d = '0' then ([], ds ++ rest) else run isAsciiDigit (ds ++ rest)) =
      (ds, rest) := by
    split
    · next hd => rw [hzero hd, List.nil_append]
    · exact run_append_of_all hdigits fun e he ↦ (hstop e he).1
  unfold number
  dsimp only
  rw [hwhole]
  dsimp only
  split
  · next point digit back =>
    have hpoint : point ≠ '.' := (hstop point rfl).2
    simp [hpoint]
  · rfl

theorem number_decimal {d e : Char} {ds es rest : List Char}
    (hdigits : ∀ e ∈ ds, isAsciiDigit e = true) (hzero : d = '0' → ds = [])
    (hpoint : isAsciiDigit e = true) (hfraction : ∀ d ∈ es, isAsciiDigit d = true)
    (hstop : ∀ d ∈ rest.head?, isAsciiDigit d = false) :
    number d ((ds ++ '.' :: e :: es) ++ rest) =
      ⟨.decimal (String.ofList (d :: ds ++ '.' :: e :: es)), d :: ds ++ '.' :: e :: es, rest⟩ := by
  have hwhole : (if d = '0' then ([], (ds ++ '.' :: e :: es) ++ rest)
      else run isAsciiDigit ((ds ++ '.' :: e :: es) ++ rest)) = (ds, '.' :: e :: (es ++ rest)) := by
    rw [List.append_assoc]
    split
    · next hd => simp [hzero hd]
    · refine run_append_of_all hdigits fun c hc ↦ ?_
      obtain rfl := Option.some.inj hc
      rfl
  unfold number
  dsimp only
  rw [hwhole]
  dsimp only
  rw [run_append_of_all hfraction hstop]
  simp [hpoint]

theorem ofText_digit {d : Char} (hd : isAsciiDigit d = true) (cs : List Char) :
    ofText d cs = number d cs := by
  have hdouble : d ≠ '"' := by
    rintro rfl
    exact absurd hd (by decide)
  have hsingle : d ≠ '\'' := by
    rintro rfl
    exact absurd hd (by decide)
  unfold ofText
  rw [if_neg hdouble, if_neg hsingle, if_pos hd]

/-! ## Quoted texts, operators and signs -/

theorem quoted_closed {q : Quote} {text : List Char} (hmark : q.char ∉ text) (hline : '\n' ∉ text)
    (rest : List Char) : quoted q (text ++ q.char :: rest) =
      ⟨.quoted q (String.ofList text), q.char :: text ++ [q.char], rest⟩ := by
  have hbody : run (fun c ↦ c ≠ q.char && c ≠ '\n') (text ++ q.char :: rest) =
      (text, q.char :: rest) := by
    refine run_append_of_all (fun c hc ↦ ?_) (fun c hc ↦ ?_)
    · have hc' : c ≠ q.char ∧ c ≠ '\n' :=
        ⟨fun heq ↦ hmark (heq ▸ hc), fun heq ↦ hline (heq ▸ hc)⟩
      simp [hc']
    · obtain rfl := Option.some.inj hc
      simp
  unfold quoted
  dsimp only
  rw [hbody]
  simp

theorem ofText_mark (q : Quote) (cs : List Char) : ofText q.char cs = quoted q cs := by
  cases q <;> rfl

/-- No other token begins with a character of operators. -/
theorem operator_only {c : Char} (hc : isOperator c = true) :
    c ≠ '"' ∧ c ≠ '\'' ∧ isAsciiDigit c = false ∧ isIdentifierStart c = false ∧ sign? c = none ∧
      c ≠ 'a' ∧ c ≠ 'g' ∧ c ≠ '@' := by
  simp only [isOperator, List.mem_cons, List.not_mem_nil, or_false, decide_eq_true_eq] at hc
  rcases hc with rfl | rfl | rfl | rfl | rfl | rfl | rfl | rfl | rfl | rfl | rfl | rfl | rfl | rfl |
    rfl | rfl <;> decide

theorem ofText_operator {c : Char} {cs rest : List Char} (hc : isOperator c = true)
    (hcs : ∀ d ∈ cs, isOperator d = true) (hstop : ∀ d ∈ rest.head?, isOperator d = false) :
    ofText c (cs ++ rest) = ⟨.operator (String.ofList (c :: cs)), c :: cs, rest⟩ := by
  obtain ⟨hdouble, hsingle, hdigit, hstart, hsign, ha, hg, hat⟩ := operator_only hc
  have hcompound : compound? (c :: (cs ++ rest)) = none := by
    unfold compound?
    rw [List.findSome?_eq_none_iff]
    intro s hs
    simp only [compounds, List.mem_cons, List.not_mem_nil, or_false] at hs
    rcases hs with rfl | rfl | rfl <;> simp [Sign.text, ha.symm, hg.symm, hat.symm]
  unfold ofText
  rw [if_neg hdouble, if_neg hsingle, hdigit, if_neg Bool.false_ne_true, hcompound]
  dsimp only
  rw [hstart, if_neg Bool.false_ne_true, hsign]
  dsimp only
  rw [if_pos hc, run_append_of_all hcs hstop]

end Reading

namespace Token

open Reading

variable {t : Token} {rest : List Char}

/-- The character does not belong to the token when it follows. -/
def stopsAt : Token → Char → Bool
  | keyword _, c => !isIdentifierRest c && c ≠ '-'
  | identifier _, c => !isIdentifierRest c && c ≠ '-'
  | integer _, c => !isAsciiDigit c && c ≠ '.'
  | decimal _, c => !isAsciiDigit c
  | operator _, c => !Reading.isOperator c && c ≠ '*'
  | _, _ => true

/-- The text does not go on with the token. -/
def StopsBefore (t : Token) (rest : List Char) : Prop :=
  ∀ c ∈ rest.head?, t.stopsAt c = true

/-- The token is read when it is written in front of the text, and all that it is written with. -/
def ReadsBefore (t : Token) (rest : List Char) : Prop :=
  ∃ c cs, t.written.toList = c :: cs ∧ Padding.opens c (cs ++ rest) = false ∧
    ofText c (cs ++ rest) = ⟨t, c :: cs, rest⟩

theorem stopsAt_ofWord (text : List Char) (c : Char) :
    (ofWord text).stopsAt c = (!isIdentifierRest c && c ≠ '-') := by
  unfold ofWord
  split <;> rfl

theorem isWord_ofWord (text : List Char) : (ofWord text).isWord = true := by
  unfold ofWord
  split <;> rfl

theorem readsBefore_sign (s : Sign) (rest : List Char) : (sign s).ReadsBefore rest := by
  cases s <;> exact ⟨_, _, rfl, rfl, rfl⟩

theorem IsSpelled.readsBefore (h : t.IsSpelled) (hstop : t.StopsBefore rest) :
    t.ReadsBefore rest := by
  cases h with
  | word hstart hrest =>
    have hends : ∀ d ∈ rest.head?, isIdentifierRest d = false ∧ d ≠ '-' := by
      simpa [StopsBefore, stopsAt_ofWord] using hstop
    refine ⟨_, _, written_ofWord _, opens_eq_false hstart rfl (.inl rfl), ?_⟩
    refine ofText_word hstart hrest (fun d hd ↦ (hends d hd).1) fun hhyphen ↦ ?_
    exact absurd rfl (hends '-' hhyphen).2
  | sign s => exact readsBefore_sign s rest
  | integer hfirst hdigits hzero =>
    refine ⟨_, _, String.toList_ofList, opens_eq_false hfirst rfl (.inl rfl), ?_⟩
    rw [ofText_digit hfirst]
    exact number_integer hdigits hzero (by simpa [StopsBefore, stopsAt] using hstop)
  | decimal hfirst hdigits hzero hpoint hfraction =>
    refine ⟨_, _, String.toList_ofList, opens_eq_false hfirst rfl (.inl rfl), ?_⟩
    rw [ofText_digit hfirst]
    exact number_decimal hdigits hzero hpoint hfraction
      (by simpa [StopsBefore, stopsAt] using hstop)
  | @quoted q text hmark hline =>
    have hwritten : (Token.quoted q (String.ofList text)).written.toList =
        q.char :: (text ++ [q.char]) := by
      simp [written]
    refine ⟨_, _, hwritten, by cases q <;> rfl, ?_⟩
    rw [ofText_mark, List.append_assoc]
    exact quoted_closed hmark hline rest
  | @operator c cs hfirst hrest =>
    have hends : ∀ d ∈ rest.head?, Reading.isOperator d = false ∧ d ≠ '*' := by
      simpa [StopsBefore, stopsAt] using hstop
    have hnext : (cs ++ rest).head? ≠ some '*' := by
      cases cs with
      | nil => exact fun hstar ↦ (hends '*' hstar).2 rfl
      | cons d cs =>
        intro hstar
        obtain rfl := Option.some.inj hstar
        exact absurd (hrest '*' List.mem_cons_self) (by decide)
    refine ⟨_, _, String.toList_ofList, opens_eq_false hfirst rfl (.inr hnext), ?_⟩
    exact ofText_operator hfirst hrest fun d hd ↦ (hends d hd).1

end Token

/-! ## Tokens of a scanner -/

/-- A sound token is spelled as one of its kind, and one left open is when it is closed. -/
structure Token.IsMendable (t : Token) : Prop where
  sound : t.isFaulty = false → t.IsSpelled
  closed : ∀ q text, t = .unclosed q text → (Token.quoted q text).IsSpelled

theorem Token.IsSpelled.isMendable {t : Token} (h : t.IsSpelled) : t.IsMendable := by
  refine ⟨fun _ ↦ h, fun q text htoken ↦ ?_⟩
  cases h with
  | word hstart hrest =>
    unfold Token.ofWord at htoken
    split at htoken <;> cases htoken
  | _ => cases htoken

namespace Reading

theorem all_run {test : Char → Bool} {cs : List Char} : ∀ c ∈ (run test cs).1, test c = true :=
  fun _ hc ↦ List.all_eq_true.1 List.all_takeWhile _ hc

theorem mem_of_mem_trimReturns {c : Char} {cs : List Char} (h : c ∈ trimReturns cs) : c ∈ cs :=
  List.mem_reverse.1 ((List.dropWhile_sublist _).subset (List.mem_reverse.1 h))

theorem isMendable_quoted (q : Quote) (cs : List Char) : (quoted q cs).token.IsMendable := by
  have hbody : ∀ c ∈ (run (fun c ↦ c ≠ q.char && c ≠ '\n') cs).1, c ≠ q.char ∧ c ≠ '\n' :=
    fun c hc ↦ by simpa using all_run c hc
  unfold quoted
  dsimp only
  generalize run (fun c ↦ c ≠ q.char && c ≠ '\n') cs = body at hbody ⊢
  have hclosed : (Token.quoted q (String.ofList body.1)).IsSpelled :=
    .quoted (fun hmem ↦ (hbody _ hmem).1 rfl) (fun hmem ↦ (hbody _ hmem).2 rfl)
  have hopen : (Token.quoted q (String.ofList (trimReturns body.1))).IsSpelled :=
    .quoted (fun hmem ↦ (hbody _ (mem_of_mem_trimReturns hmem)).1 rfl)
      (fun hmem ↦ (hbody _ (mem_of_mem_trimReturns hmem)).2 rfl)
  have hunclosed : (Token.unclosed q (String.ofList (trimReturns body.1))).IsMendable := by
    refine ⟨nofun, fun q' text htoken ↦ ?_⟩
    obtain ⟨rfl, rfl⟩ := Token.unclosed.inj htoken
    exact hopen
  split
  · split
    · exact hclosed.isMendable
    · exact hunclosed
  · exact hunclosed

theorem isMendable_number {d : Char} (hd : isAsciiDigit d = true) (cs : List Char) :
    (number d cs).token.IsMendable := by
  have hwhole : (∀ e ∈ (if d = '0' then ([], cs) else run isAsciiDigit cs).1,
      isAsciiDigit e = true) ∧
        (d = '0' → (if d = '0' then ([], cs) else run isAsciiDigit cs).1 = []) := by
    split
    · exact ⟨fun _ he ↦ absurd he List.not_mem_nil, fun _ ↦ rfl⟩
    · next hzero => exact ⟨all_run, fun h ↦ absurd h hzero⟩
  unfold number
  dsimp only
  generalize (if d = '0' then ([], cs) else run isAsciiDigit cs) = whole at hwhole ⊢
  have hinteger : (Token.integer (String.ofList (d :: whole.1))).IsSpelled :=
    .integer hd hwhole.1 hwhole.2
  split
  · next point digit rest hrest =>
    split
    · next hpoint =>
      simp only [Bool.and_eq_true, decide_eq_true_eq] at hpoint
      obtain ⟨rfl, hdigit⟩ := hpoint
      exact (Token.IsSpelled.decimal hd hwhole.1 hwhole.2 hdigit all_run).isMendable
    · exact hinteger.isMendable
  · exact hinteger.isMendable

theorem isMendable_ofText (c : Char) (cs : List Char) : (ofText c cs).token.IsMendable := by
  unfold ofText
  split
  · exact isMendable_quoted .double cs
  split
  · exact isMendable_quoted .single cs
  split
  · next hdigit => exact isMendable_number hdigit cs
  split
  · next r hcompound =>
    obtain ⟨s, -, hr⟩ := List.exists_of_findSome?_eq_some hcompound
    dsimp only at hr
    split at hr
    · obtain rfl := Option.some.inj hr
      exact (Token.IsSpelled.sign s).isMendable
    · cases hr
  split
  · next hstart => exact (Token.IsSpelled.word hstart all_run).isMendable
  split
  · next s hsign => exact (Token.IsSpelled.sign s).isMendable
  split
  · next hoperator => exact (Token.IsSpelled.operator hoperator all_run).isMendable
  · exact ⟨nofun, nofun⟩

end Reading

/-- The token comes out of a scanner, from some source. -/
def Token.IsScanned (t : Token) : Prop :=
  ∃ source, ∃ l ∈ (Repaired.ofSource source).tokens, l.token = t

theorem mem_of_mem_consStray {text : String} {span : Span} {ps : List Piece} {p : Piece}
    {l : Lexeme} (hp : p ∈ Piece.consStray text span ps) (hl : p.lexeme? = some l) : p ∈ ps := by
  unfold Piece.consStray at hp
  split at hp
  · split at hp
    · rcases List.mem_cons.1 hp with rfl | hp
      · cases hl
      · exact List.mem_cons_of_mem _ hp
    · rcases List.mem_cons.1 hp with rfl | hp
      · cases hl
      · exact hp
  · rcases List.mem_cons.1 hp with rfl | hp
    · cases hl
    · exact hp

theorem isSpelled_of_mem_pieces {ls : List Lexeme} {p : Piece} {l : Lexeme}
    (hls : ∀ k ∈ ls, k.token.IsMendable) (hp : p ∈ pieces ls)
    (hl : p.lexeme? = some l) : l.token.IsSpelled := by
  induction ls with
  | nil => cases hp
  | cons k ls ih =>
    obtain ⟨hk, hrest⟩ := List.forall_mem_cons.1 hls
    obtain ⟨t, span⟩ := k
    cases t with
    | stray text => exact ih hrest (mem_of_mem_consStray hp hl)
    | unclosed q text =>
      rcases List.mem_cons.1 hp with rfl | hp
      · obtain rfl := Option.some.inj hl
        exact hk.closed q text rfl
      · exact ih hrest hp
    | _ =>
      rcases List.mem_cons.1 hp with rfl | hp
      · obtain rfl := Option.some.inj hl
        exact hk.sound rfl
      · exact ih hrest hp

theorem Token.IsScanned.isSpelled {t : Token} (h : t.IsScanned) : t.IsSpelled := by
  obtain ⟨source, l, hl, rfl⟩ := h
  obtain ⟨p, hp, hlexeme⟩ := List.mem_filterMap.1 hl
  refine isSpelled_of_mem_pieces (fun k hk ↦ ?_) hp hlexeme
  obtain ⟨-, -⟩ := isReadIn_lex hk
  exact Reading.isMendable_ofText _ _

end MasCheck
