import MasCheck.Proofs.Grammar.Term
import MasCheck.Proofs.Token.Spelling

/-!
# Reading a layout again

A layout of scanned tokens is read again token by token, with one exception: between a word and one
of the signs `a-goal` and `goal-a` behind it stands no space, and the front part of the sign is
read as a part of the word. The tokens of a layout can be told from its text all the same, because
no other token has a hyphen behind a word.
-/

namespace MasCheck

open Text (isAsciiDigit isIdentifierStart isIdentifierRest)

namespace Token

open Reading (ofText opens_eq_false ofText_word ofText_operator written_ofWord)

variable {t u left : Token} {ts us : List Token}

/-- Identifiers and reserved words. -/
def isName : Token → Bool
  | keyword _ => true
  | identifier _ => true
  | _ => false

/-- The signs that begin with a letter. -/
def isHyphenated : Token → Bool
  | sign .aGoal => true
  | sign .goalA => true
  | _ => false

/-- The second token is joined to the first when they are written side by side. -/
def joins (t u : Token) : Bool :=
  t.isName && u.isHyphenated

/-- No token is joined to the one in front of it. -/
def IsSeparable (ts : List Token) : Prop :=
  ts.IsChain fun t u ↦ t.joins u = false

instance : DecidablePred IsSeparable := fun ts ↦
  inferInstanceAs (Decidable (ts.IsChain fun t u ↦ t.joins u = false))

/-! ## What follows a token -/

/-- What is written between a token and the tokens behind it. -/
def gap (left : Token) : List Token → List Char
  | [] => []
  | t :: _ => if spaced left t then [' '] else []

theorem gap_cases (left : Token) (ts : List Token) : gap left ts = [] ∨ gap left ts = [' '] := by
  cases ts with
  | nil => exact .inl rfl
  | cons t ts =>
    rw [gap]
    split
    · exact .inr rfl
    · exact .inl rfl

theorem toList_layout_cons (t : Token) (ts : List Token) :
    (layout (t :: ts)).toList = t.written.toList ++ (layoutAfter t ts).toList :=
  String.toList_append

theorem toList_layoutAfter (left : Token) (ts : List Token) :
    (layoutAfter left ts).toList = gap left ts ++ (layout ts).toList := by
  cases ts with
  | nil => rfl
  | cons t ts =>
    rw [layoutAfter, gap, toList_layout_cons, String.toList_append, String.toList_append,
      List.append_assoc]
    split <;> rfl

theorem IsSpelled.exists_head (ht : t.IsSpelled) :
    ∃ c cs, t.written.toList = c :: cs ∧ c ≠ ' ' := by
  have hreads : t.ReadsBefore [] := ht.readsBefore nofun
  obtain ⟨c, cs, hwritten, hopens, -⟩ := hreads
  refine ⟨c, cs, hwritten, ?_⟩
  rintro rfl
  cases hopens

theorem not_stopsBefore_hyphen (text rest : List Char) :
    ¬ (ofWord text).StopsBefore ('-' :: rest) := by
  intro hstop
  have hhyphen := hstop '-' rfl
  rw [stopsAt_ofWord] at hhyphen
  cases hhyphen

theorem stopsAt_blank (t : Token) : t.stopsAt ' ' = true := by
  cases t <;> rfl

theorem head_of_sign {s : Sign} (hdot : s ≠ .dot) : ∀ c ∈ s.text.toList.head?,
    isAsciiDigit c = false ∧ c ≠ '.' ∧
      ((sign s).isHyphenated = false → isIdentifierRest c = false ∧ c ≠ '-') := by
  intro c hc
  cases s with
  | dot => exact absurd rfl hdot
  | _ =>
    obtain rfl := Option.some.inj hc
    decide

/-- What is written next to a word without a space is a sign or a quoted text. -/
theorem stopsAt_head_of_isWord (ht : t.isWord = true) (hu : u.IsSpelled)
    (hspaced : spaced t u = false) (hjoin : t.joins u = false) (hdot : u ≠ .sign .dot) :
    ∀ c ∈ u.written.toList.head?, t.stopsAt c = true := by
  have hword : u.isWord = false ∧ u.isOperator = false := by
    simp only [spaced, Bool.or_eq_false_iff, ht, Bool.true_and] at hspaced
    exact ⟨hspaced.1.1, hspaced.2⟩
  have hends : ∀ c ∈ u.written.toList.head?, isAsciiDigit c = false ∧ c ≠ '.' ∧
      (u.isHyphenated = false → isIdentifierRest c = false ∧ c ≠ '-') := by
    cases hu with
    | word =>
      rw [isWord_ofWord] at hword
      cases hword.1
    | sign s => exact head_of_sign fun hs ↦ hdot (hs ▸ rfl)
    | integer => cases hword.1
    | decimal => cases hword.1
    | @quoted q text =>
      rintro c hc
      obtain rfl : q.char = c := by simpa [written] using hc
      cases q <;> exact ⟨rfl, by decide, fun _ ↦ ⟨rfl, by decide⟩⟩
    | operator => cases hword.2
  intro c hc
  obtain ⟨hdigit, hpoint, hletter⟩ := hends c hc
  cases t with
  | keyword word => simpa [stopsAt] using hletter (by simpa [joins, isName] using hjoin)
  | identifier text => simpa [stopsAt] using hletter (by simpa [joins, isName] using hjoin)
  | integer text => simp [stopsAt, hdigit, hpoint]
  | decimal text => simp [stopsAt, hdigit]
  | _ => cases ht

theorem stopsBefore_layoutAfter (hts : ∀ u ∈ ts, u.IsSpelled) (hdot : .sign .dot ∉ ts)
    (hjoin : ∀ u ∈ ts.head?, t.joins u = false) : t.StopsBefore (layoutAfter t ts).toList := by
  cases ts with
  | nil => exact nofun
  | cons u ts =>
    obtain ⟨hu, -⟩ := List.forall_mem_cons.1 hts
    obtain ⟨c, cs, hwritten, -⟩ := hu.exists_head
    intro d hd
    rw [toList_layoutAfter, toList_layout_cons, gap] at hd
    cases hspaced : spaced t u with
    | true =>
      rw [hspaced, if_pos rfl] at hd
      obtain rfl := Option.some.inj hd
      exact t.stopsAt_blank
    | false =>
      rw [hspaced, if_neg Bool.false_ne_true, List.nil_append, hwritten] at hd
      have hhead : d ∈ u.written.toList.head? := by
        rw [hwritten]
        exact hd
      have hne : u ≠ .sign .dot := fun heq ↦ hdot (heq ▸ List.mem_cons_self)
      cases hword : t.isWord with
      | true => exact stopsAt_head_of_isWord hword hu hspaced (hjoin u rfl) hne d hhead
      | false =>
        cases t with
        | operator text => simp [spaced, isOperator] at hspaced
        | sign s => rfl
        | quoted q text => rfl
        | unclosed q text => rfl
        | stray text => rfl
        | _ => cases hword

/-! ## Joined signs -/

/-- What stands in front of the hyphen of a sign and what stands behind it. -/
def AreHalves (front back : List Char) : Prop :=
  (front = ['a'] ∧ back = ['g', 'o', 'a', 'l']) ∨ (front = ['g', 'o', 'a', 'l'] ∧ back = ['a'])

theorem exists_halves (hu : u.isHyphenated = true) :
    ∃ front back, u.written.toList = front ++ '-' :: back ∧ AreHalves front back := by
  cases u with
  | sign s =>
    cases s with
    | aGoal => exact ⟨_, _, rfl, .inl ⟨rfl, rfl⟩⟩
    | goalA => exact ⟨_, _, rfl, .inr ⟨rfl, rfl⟩⟩
    | _ => cases hu
  | _ => cases hu

theorem IsSpelled.exists_word (ht : t.IsSpelled) (hname : t.isName = true) : ∃ c cs,
    t = ofWord (c :: cs) ∧ isIdentifierStart c = true ∧ ∀ d ∈ cs, isIdentifierRest d = true := by
  cases ht with
  | word hstart hrest => exact ⟨_, _, rfl, hstart, hrest⟩
  | _ => cases hname

/-- Behind a word, the front part of a hyphenated sign is read as a part of the word. -/
theorem ofText_joined {c : Char} {cs front back : List Char} (hstart : isIdentifierStart c = true)
    (hrest : ∀ d ∈ cs, isIdentifierRest d = true) (hhalves : AreHalves front back)
    (rest : List Char) : ofText c ((cs ++ front) ++ '-' :: (back ++ rest)) =
      ⟨ofWord (c :: cs ++ front), c :: cs ++ front, '-' :: (back ++ rest)⟩ := by
  have hmore : ∀ d ∈ cs ++ front, isIdentifierRest d = true := by
    rw [List.forall_mem_append]
    refine ⟨hrest, ?_⟩
    rcases hhalves with ⟨rfl, -⟩ | ⟨rfl, -⟩ <;> exact List.all_eq_true.1 rfl
  have hlonger : c :: (cs ++ front) ≠ ['a'] ∧ c :: (cs ++ front) ≠ ['g', 'o', 'a', 'l'] := by
    rcases hhalves with ⟨rfl, -⟩ | ⟨rfl, -⟩
    · refine ⟨by simp, fun heq ↦ ?_⟩
      have hends : (c :: cs) ++ ['a'] = ['g', 'o', 'a'] ++ ['l'] := heq
      cases List.append_inj_right' hends rfl
    · exact ⟨by simp, fun heq ↦ by simpa using congrArg List.length heq⟩
  exact ofText_word hstart hmore (by simp; decide) fun _ ↦ hlonger

theorem ofText_hyphen {front back : List Char} (hhalves : AreHalves front back)
    (rest : List Char) : ofText '-' (back ++ rest) = ⟨.operator "-", ['-'], back ++ rest⟩ := by
  have hstop : ∀ d ∈ (back ++ rest).head?, Reading.isOperator d = false := by
    rcases hhalves with ⟨-, rfl⟩ | ⟨-, rfl⟩ <;> simp <;> decide
  have hreading : ofText '-' ([] ++ (back ++ rest)) = ⟨.operator "-", ['-'], back ++ rest⟩ :=
    ofText_operator (by decide) nofun hstop
  exact hreading

/-! ## One reading at a time -/

theorem split_gap {pre cs : List Char} {c : Char} (hpre : pre = [] ∨ pre = [' '])
    (hopens : Padding.opens c cs = false) :
    Padding.split .blank (pre ++ c :: cs) = (pre, c :: cs) := by
  have hstop : Padding.split .blank (c :: cs) = ([], c :: cs) := by
    simp [Padding.split, hopens]
  rcases hpre with rfl | rfl
  · exact hstop
  · have hblank : Padding.split .blank (' ' :: (c :: cs)) =
        Prod.map (' ' :: ·) id (Padding.split .blank (c :: cs)) := rfl
    rw [List.singleton_append, hblank, hstop]
    rfl

theorem tokens_cons {pre cs : List Char} {c : Char} {reading : Reading} (here : Nat)
    (hpre : pre = [] ∨ pre = [' ']) (hopens : Padding.opens c cs = false)
    (hreading : ofText c cs = reading) :
    ∃ stop, (lexFrom here (pre ++ c :: cs)).map Lexeme.token =
      reading.token :: (lexFrom stop reading.rest).map Lexeme.token := by
  rw [lexFrom_cons here (split_gap hpre hopens) hreading]
  exact ⟨_, rfl⟩

/-- What is read first in the layout of a list and the text behind it: the first token alone, or
with the front part of the sign that is joined to it. -/
inductive IsFirstRead : List Token → Token → List Char → Prop
  | alone {t : Token} {ts : List Token} (hjoin : ∀ u ∈ ts.head?, t.joins u = false)
      (hstop : t.StopsBefore (layoutAfter t ts).toList) :
      IsFirstRead (t :: ts) t (layoutAfter t ts).toList
  | joined {t u : Token} {ts : List Token} {front back : List Char} (hjoin : t.joins u = true)
      (hsign : u.written.toList = front ++ '-' :: back) (hhalves : AreHalves front back) :
      IsFirstRead (t :: u :: ts) (ofWord (t.written.toList ++ front))
        ('-' :: (back ++ (layoutAfter u ts).toList))

theorem gap_eq_nil_of_joins (hjoin : t.joins u = true) (ts : List Token) :
    gap t (u :: ts) = [] := by
  obtain ⟨hname, hsign⟩ := (Bool.and_eq_true _ _).mp hjoin
  cases t with
  | keyword word => cases u <;> first | rfl | cases hsign
  | identifier text => cases u <;> first | rfl | cases hsign
  | _ => cases hname

theorem exists_isFirstRead (hspelled : ∀ u ∈ t :: ts, u.IsSpelled) (hdot : .sign .dot ∉ t :: ts) :
    ∃ c cs v taken rest, (layout (t :: ts)).toList = c :: cs ∧ Padding.opens c cs = false ∧
      ofText c cs = ⟨v, taken, rest⟩ ∧ IsFirstRead (t :: ts) v rest := by
  obtain ⟨ht, hts⟩ := List.forall_mem_cons.1 hspelled
  by_cases hjoin : ∀ u ∈ ts.head?, t.joins u = false
  · have hstop := stopsBefore_layoutAfter hts (List.not_mem_of_not_mem_cons hdot) hjoin
    obtain ⟨c, cs, hwritten, hopens, hreading⟩ := ht.readsBefore hstop
    refine ⟨c, cs ++ (layoutAfter t ts).toList, _, _, _, ?_, hopens, hreading, .alone hjoin hstop⟩
    rw [toList_layout_cons, hwritten, List.cons_append]
  · cases ts with
    | nil => exact absurd nofun hjoin
    | cons u ts =>
      have hjoin : t.joins u = true := by simpa using hjoin
      obtain ⟨hname, hsign⟩ := (Bool.and_eq_true _ _).mp hjoin
      obtain ⟨c, cs, rfl, hstart, hrest⟩ := ht.exists_word hname
      obtain ⟨front, back, hwritten, hhalves⟩ := exists_halves hsign
      have hfirst : IsFirstRead (ofWord (c :: cs) :: u :: ts) (ofWord (c :: cs ++ front))
          ('-' :: (back ++ (layoutAfter u ts).toList)) := by
        have hjoined :=
          @IsFirstRead.joined (ofWord (c :: cs)) u ts front back hjoin hwritten hhalves
        rwa [written_ofWord] at hjoined
      refine ⟨c, _, _, _, _, ?_, ?_, ofText_joined hstart hrest hhalves _, hfirst⟩
      · rw [toList_layout_cons, toList_layoutAfter, gap_eq_nil_of_joins hjoin,
          toList_layout_cons, written_ofWord, hwritten]
        simp
      · exact opens_eq_false hstart rfl (.inl rfl)

/-! ## All tokens -/

/-- How a list of tokens is read again from its layout. Nothing is said about what stands behind a
joined sign. -/
inductive Rereads : List Token → List Token → Prop
  | nil : Rereads [] []
  | same {t : Token} {ts us : List Token} (hjoin : ∀ u ∈ ts.head?, t.joins u = false)
      (h : Rereads ts us) : Rereads (t :: ts) (t :: us)
  | joined {t u : Token} {ts us : List Token} {front back : List Char} (hjoin : t.joins u = true)
      (hsign : u.written.toList = front ++ '-' :: back) (hhalves : AreHalves front back) :
      Rereads (t :: u :: ts) (ofWord (t.written.toList ++ front) :: .operator "-" :: us)

theorem rereads_lexFrom (hspelled : ∀ t ∈ ts, t.IsSpelled) (hdot : .sign .dot ∉ ts)
    {pre : List Char} (hpre : pre = [] ∨ pre = [' ']) (here : Nat) :
    Rereads ts ((lexFrom here (pre ++ (layout ts).toList)).map Lexeme.token) := by
  induction ts generalizing pre here with
  | nil =>
    have hend : lexFrom here (pre ++ (layout []).toList) = [] := by
      rw [lexFrom]
      rcases hpre with rfl | rfl <;> rfl
    rw [hend]
    exact .nil
  | cons t ts ih =>
    obtain ⟨c, cs, v, taken, rest, htext, hopens, hreading, hfirst⟩ :=
      exists_isFirstRead hspelled hdot
    obtain ⟨stop, htokens⟩ := tokens_cons here hpre hopens hreading
    obtain ⟨-, hts⟩ := List.forall_mem_cons.1 hspelled
    rw [htext, htokens]
    cases hfirst with
    | alone hjoin =>
      rw [toList_layoutAfter]
      exact .same hjoin (ih hts (List.not_mem_of_not_mem_cons hdot) (gap_cases t ts) stop)
    | joined hjoin hsign hhalves =>
      obtain ⟨behind, htail⟩ := tokens_cons stop (.inl rfl) rfl (ofText_hyphen hhalves _)
      rw [List.nil_append] at htail
      dsimp only
      rw [htail]
      exact .joined hjoin hsign hhalves

theorem Rereads.eq_iff (h : Rereads ts us) : us = ts ↔ IsSeparable ts := by
  unfold IsSeparable
  induction h with
  | nil => simp
  | same hjoin h ih => rw [List.isChain_cons, List.cons_inj_right, ih, and_iff_right hjoin]
  | @joined t u ts us front back hjoin hsign hhalves =>
    rw [List.isChain_cons_cons, hjoin]
    refine iff_of_false (fun heq ↦ ?_) (fun h ↦ nomatch h.1)
    obtain ⟨hword, -⟩ := List.cons.inj heq
    have htext : (ofWord (t.written.toList ++ front)).written.toList = t.written.toList := by
      rw [hword]
    rw [written_ofWord, List.append_right_eq_self] at htext
    rcases hhalves with ⟨rfl, -⟩ | ⟨rfl, -⟩ <;> cases htext

/-! ## Layouts and their tokens -/

theorem not_blank_layout (hspelled : ∀ t ∈ ts, t.IsSpelled) :
    ∀ c ∈ (layout ts).toList.head?, c ≠ ' ' := by
  cases ts with
  | nil => exact nofun
  | cons t ts =>
    obtain ⟨c, cs, hwritten, hblank⟩ := (hspelled t List.mem_cons_self).exists_head
    intro d hd
    rw [toList_layout_cons, hwritten] at hd
    obtain rfl := Option.some.inj hd
    exact hblank

theorem layout_eq_of_layoutAfter_eq (hts : ∀ c ∈ (layout ts).toList.head?, c ≠ ' ')
    (hus : ∀ c ∈ (layout us).toList.head?, c ≠ ' ') (h : layoutAfter t ts = layoutAfter t us) :
    layout ts = layout us := by
  have htexts := congrArg String.toList h
  rw [toList_layoutAfter, toList_layoutAfter] at htexts
  rw [← String.toList_inj]
  rcases gap_cases t ts with hgap | hgap <;> rcases gap_cases t us with hgap' | hgap' <;>
    rw [hgap, hgap'] at htexts
  · exact htexts
  · exact absurd rfl (hts ' ' (by rw [List.nil_append] at htexts; rw [htexts]; rfl))
  · exact absurd rfl (hus ' ' (by rw [List.nil_append] at htexts; rw [← htexts]; rfl))
  · exact List.append_cancel_left htexts

theorem Rereads.head?_layout (h : Rereads ts us) (hspelled : ∀ t ∈ ts, t.IsSpelled) :
    (layout us).toList.head? = (layout ts).toList.head? := by
  cases h with
  | nil => rfl
  | @same t ts us hjoin h =>
    obtain ⟨c, cs, hwritten, -⟩ := (hspelled t List.mem_cons_self).exists_head
    rw [toList_layout_cons, toList_layout_cons, hwritten]
    rfl
  | @joined t u ts us front back hjoin hsign hhalves =>
    obtain ⟨c, cs, hwritten, -⟩ := (hspelled t List.mem_cons_self).exists_head
    rw [toList_layout_cons, toList_layout_cons, written_ofWord, hwritten]
    rfl

/-- Where a joined sign is cut, its layout has a hyphen and the layout of its parts a space. -/
theorem Rereads.eq_of_layout_eq (h : Rereads ts us) (hspelled : ∀ t ∈ ts, t.IsSpelled)
    (heq : layout us = layout ts) : us = ts := by
  induction h with
  | nil => rfl
  | @same t ts us hjoin h ih =>
    obtain ⟨-, hts⟩ := List.forall_mem_cons.1 hspelled
    have hafter : layoutAfter t us = layoutAfter t ts := by
      have htexts := congrArg String.toList heq
      rw [toList_layout_cons, toList_layout_cons] at htexts
      exact String.toList_inj.1 (List.append_cancel_left htexts)
    have hblank := not_blank_layout hts
    rw [ih hts (layout_eq_of_layoutAfter_eq (h.head?_layout hts ▸ hblank) hblank hafter)]
  | @joined t u ts us front back hjoin hsign hhalves =>
    have htexts := congrArg String.toList heq
    rw [toList_layout_cons, toList_layout_cons, written_ofWord, toList_layoutAfter,
      toList_layoutAfter, gap_eq_nil_of_joins hjoin, toList_layout_cons, toList_layout_cons, hsign,
      List.append_assoc, List.nil_append, List.append_assoc] at htexts
    have hgap : gap (ofWord (t.written.toList ++ front)) (.operator "-" :: us) = [' '] := by
      simp [gap, spaced, isOperator]
    rw [hgap] at htexts
    have hbehind := List.append_cancel_left (List.append_cancel_left htexts)
    cases hbehind

theorem IsSpelled.eq_ofWord (ht : t.IsSpelled) (hname : t.isName = true) :
    t = ofWord t.written.toList := by
  obtain ⟨c, cs, rfl, -, -⟩ := ht.exists_word hname
  rw [written_ofWord]

/-- A word and the front part of a sign behind it can be told apart. -/
theorem AreHalves.cancel {front back front' back' word word' : List Char}
    (h : AreHalves front back) (h' : AreHalves front' back')
    (heq : word ++ front = word' ++ front') : word = word' ∧ front = front' ∧ back = back' := by
  rcases h with ⟨rfl, rfl⟩ | ⟨rfl, rfl⟩ <;> rcases h' with ⟨rfl, rfl⟩ | ⟨rfl, rfl⟩
  · exact ⟨List.append_cancel_right heq, rfl, rfl⟩
  · have hlast := congrArg List.getLast? heq
    simp at hlast
  · have hlast := congrArg List.getLast? heq
    simp at hlast
  · exact ⟨List.append_cancel_right heq, rfl, rfl⟩

/-- What is read first tells the first token and what is written behind it. -/
theorem IsFirstRead.determines {v v' : Token} {rest rest' : List Char}
    (h : IsFirstRead (t :: ts) v rest) (h' : IsFirstRead (u :: us) v' rest') (ht : t.IsSpelled)
    (hu : u.IsSpelled) (hv : v = v') (hrest : rest = rest') :
    t = u ∧ (layoutAfter t ts).toList = (layoutAfter u us).toList := by
  cases h with
  | alone hjoin hstop =>
    cases h' with
    | alone => exact ⟨hv, hrest⟩
    | joined =>
      subst hv
      rw [hrest] at hstop
      exact absurd hstop (not_stopsBefore_hyphen _ _)
  | @joined t w ts front back hjoin hsign hhalves =>
    cases h' with
    | alone hjoin' hstop =>
      subst hv
      rw [← hrest] at hstop
      exact absurd hstop (not_stopsBefore_hyphen _ _)
    | @joined u x us front' back' hjoin' hsign' hhalves' =>
      have htexts := congrArg (fun a : Token ↦ a.written.toList) hv
      rw [written_ofWord, written_ofWord] at htexts
      obtain ⟨hwords, rfl, rfl⟩ := hhalves.cancel hhalves' htexts
      obtain ⟨ht', -⟩ := (Bool.and_eq_true _ _).mp hjoin
      obtain ⟨hu', -⟩ := (Bool.and_eq_true _ _).mp hjoin'
      have htu : t = u := by rw [ht.eq_ofWord ht', hwords, ← hu.eq_ofWord hu']
      have hbehind := List.append_cancel_left (List.cons.inj hrest).2
      refine ⟨htu, ?_⟩
      rw [toList_layoutAfter, toList_layoutAfter, gap_eq_nil_of_joins hjoin,
        gap_eq_nil_of_joins hjoin', toList_layout_cons, toList_layout_cons, hsign, hsign', hbehind]

theorem layout_injective (hts : ∀ t ∈ ts, t.IsSpelled) (hus : ∀ u ∈ us, u.IsSpelled)
    (htsDot : .sign .dot ∉ ts) (husDot : .sign .dot ∉ us) (heq : layout ts = layout us) :
    ts = us := by
  induction ts generalizing us with
  | nil =>
    cases us with
    | nil => rfl
    | cons u us =>
      obtain ⟨c, cs, hwritten, -⟩ := (hus u List.mem_cons_self).exists_head
      have htexts := congrArg String.toList heq
      rw [toList_layout_cons, hwritten] at htexts
      cases htexts
  | cons t ts ih =>
    obtain ⟨c, cs, v, taken, rest, htext, -, hreading, hfirst⟩ := exists_isFirstRead hts htsDot
    cases us with
    | nil =>
      rw [heq] at htext
      cases htext
    | cons u us =>
      obtain ⟨c', cs', v', taken', rest', htext', -, hreading', hfirst'⟩ :=
        exists_isFirstRead hus husDot
      obtain ⟨rfl, rfl⟩ := List.cons.inj (htext.symm.trans (heq ▸ htext'))
      obtain ⟨rfl, -, rfl⟩ := Reading.mk.inj (hreading.symm.trans hreading')
      obtain ⟨ht, htail⟩ := List.forall_mem_cons.1 hts
      obtain ⟨hu, hutail⟩ := List.forall_mem_cons.1 hus
      obtain ⟨rfl, hafter⟩ := hfirst.determines hfirst' ht hu rfl rfl
      have hlayout := layout_eq_of_layoutAfter_eq (not_blank_layout htail)
        (not_blank_layout hutail) (String.toList_inj.1 hafter)
      rw [ih htail hutail (List.not_mem_of_not_mem_cons htsDot)
        (List.not_mem_of_not_mem_cons husDot) hlayout]

/-- The layout of a term is read again as the tokens of the term if and only if no sign is joined to
the word in front of it, and otherwise the tokens read have another layout. In any case no other
term has the same layout. The layout is the text that the rule of terms keeps. -/
theorem rereading_layout (hterm : Strict.IsTerm ts) (hscanned : ∀ t ∈ ts, t.IsScanned) :
    ((lex (layout ts)).map Lexeme.token = ts ↔ IsSeparable ts) ∧
      (layout ((lex (layout ts)).map Lexeme.token) = layout ts ↔ IsSeparable ts) ∧
      ∀ us, Strict.IsTerm us → (∀ u ∈ us, u.IsScanned) → layout us = layout ts → us = ts := by
  have hspelled : ∀ t ∈ ts, t.IsSpelled := fun t ht ↦ (hscanned t ht).isSpelled
  have hrereads : Rereads ts ((lex (layout ts)).map Lexeme.token) :=
    rereads_lexFrom hspelled hterm.noDot (.inl rfl) 0
  refine ⟨hrereads.eq_iff, ?_, fun us hus husScanned heq ↦ ?_⟩
  · rw [← hrereads.eq_iff]
    exact ⟨hrereads.eq_of_layout_eq hspelled, fun heq ↦ by rw [heq]⟩
  · exact layout_injective (fun u hu ↦ (husScanned u hu).isSpelled) hspelled hus.noDot hterm.noDot
      heq

/-- Behind the word `x`, the sign `a-goal` is read as the end of another word, a hyphen and the
word `goal`. -/
theorem rereading_layout_joined :
    Strict.IsTerm [.identifier "x", .sign .aGoal] ∧
      (∀ t ∈ [.identifier "x", .sign .aGoal], IsScanned t) ∧
      (lex (layout [.identifier "x", .sign .aGoal])).map Lexeme.token =
        [.identifier "xa", .operator "-", .keyword .goal] ∧
      (lex (layout [.identifier "x", .sign .aGoal])).map Lexeme.token ≠
        [.identifier "x", .sign .aGoal] := by
  have hbody : Strict.IsTermBody ([.identifier "x"] ++ [.sign .aGoal]) :=
    (Strict.IsTermBody.single rfl).append (Strict.IsTermBody.single rfl)
  have hterm : Strict.IsTerm [.identifier "x", .sign .aGoal] := ⟨hbody, List.cons_ne_nil _ _⟩
  have hscanned : ∀ t ∈ [.identifier "x", .sign .aGoal], IsScanned t := by
    intro t ht
    have htokens : ∀ t ∈ [Token.identifier "x", .sign .aGoal],
        t ∈ (Repaired.ofSource "x a-goal").tokens.map Lexeme.token := by
      decide +kernel
    exact ⟨"x a-goal", List.mem_map.1 (htokens t ht)⟩
  refine ⟨hterm, hscanned, by decide +kernel, fun hsame ↦ ?_⟩
  have hseparable := (rereading_layout hterm hscanned).1.1 hsame
  exact absurd hseparable (by decide)

end Token

end MasCheck
