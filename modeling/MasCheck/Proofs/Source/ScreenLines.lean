import MasCheck.Proofs.Source.Columns
import MasCheck.Source.Lines

/-!
# Places on a screen

Reading a character leads to the next column on a screen too, or to the first one of the next line.
But more characters end a line there, and the end of the text stands on the last line even if that
is ended. So a place on a screen is the one in the source as long as lines end at the same
characters; once a line has ended on the screen only, the place is further down than in the source.
-/

namespace MasCheck

/-- On a screen the character ends a line that is not the last. -/
def EndsLine (c : Char) (rest : List Char) : Prop :=
  isLineEnd c ∧ rest ≠ [] ∧ ¬(c = '\r' ∧ rest.head? = some '\n')

instance (c : Char) (rest : List Char) : Decidable (EndsLine c rest) :=
  inferInstanceAs (Decidable (_ ∧ _ ∧ ¬(_ ∧ _)))

/-- The line and the column on a screen behind a character. -/
def screenAdvance (place : Nat × Nat) (c : Char) (rest : List Char) : Nat × Nat :=
  if EndsLine c rest then (place.1 + 1, 1) else (place.1, place.2 + 1)

/-- The line and the column on a screen behind the first `count` characters. -/
def screenPlace : List Char → (count : Nat) → (place : Nat × Nat) → Nat × Nat
  | _, 0, place => place
  | [], _ + 1, place => place
  | c :: cs, count + 1, place => screenPlace cs count (screenAdvance place c cs)

theorem screenPlace_zero (text : List Char) (place : Nat × Nat) :
    screenPlace text 0 place = place := by
  cases text <;> rfl

theorem screenPlace_cons (c : Char) (cs : List Char) (count : Nat) (place : Nat × Nat) :
    screenPlace (c :: cs) (count + 1) place = screenPlace cs count (screenAdvance place c cs) :=
  rfl

/-! ## Lines of a screen -/

theorem splitLines_eq_nil_iff {text : List Char} : splitLines text = [] ↔ text = [] := by
  constructor
  · intro h
    rw [← flatten_splitLines text, h, List.flatten_nil]
  · rintro rfl
    rfl

namespace ScreenLine

/-- The place of a character among lines, the first of which begins at the given place. -/
def placeIn : (place : Nat × Nat) → List (List Char) → (count : Nat) → Nat × Nat
  | place, [], count => (place.1, place.2 + count)
  | place, l :: ls, count =>
    if count < l.length ∨ ls = [] then (place.1, place.2 + count)
    else placeIn (place.1 + 1, 1) ls (count - l.length)

theorem start_le_of_mem {number start : Nat} {lines : List (List Char)} {l : ScreenLine}
    (h : l ∈ enumerate number start lines) : start ≤ l.start := by
  induction lines generalizing number start with
  | nil => cases h
  | cons line lines ih =>
    rcases List.mem_cons.1 h with rfl | h
    · exact Nat.le_refl _
    · exact (Nat.le_add_right _ _).trans (ih h)

theorem exists_find {lines : List (List Char)} (hne : lines ≠ []) (number start count : Nat) :
    ∃ l, (enumerate number start lines).reverse.find? (·.start ≤ start + count) = some l ∧
      (l.number + 1, start + count - l.start + 1) = placeIn (number + 1, 1) lines count := by
  induction lines generalizing number start count with
  | nil => exact absurd rfl hne
  | cons line lines ih =>
    rw [enumerate, List.reverse_cons, List.find?_append, placeIn]
    by_cases hhere : count < line.length ∨ lines = []
    · have hlater : (enumerate (number + 1) (start + line.length) lines).reverse.find?
          (·.start ≤ start + count) = none := by
        refine List.find?_eq_none.2 fun l hl ↦ ?_
        rcases hhere with hlt | rfl
        · have hstart := start_le_of_mem (List.mem_reverse.1 hl)
          simp only [decide_eq_true_eq]
          omega
        · cases hl
      refine ⟨⟨number, start, line⟩, ?_, ?_⟩
      · rw [hlater, Option.none_or]
        exact List.find?_cons_of_pos (decide_eq_true (Nat.le_add_right _ _))
      · rw [if_pos hhere, Prod.mk.injEq]
        exact ⟨rfl, by dsimp only; omega⟩
    · obtain ⟨hle, hne⟩ := not_or.1 hhere
      have hcount : start + line.length + (count - line.length) = start + count := by omega
      obtain ⟨l, hl, hplace⟩ := ih hne (number + 1) (start + line.length) (count - line.length)
      rw [hcount] at hl hplace
      rw [hl, if_neg hhere]
      exact ⟨l, rfl, hplace⟩

end ScreenLine

section

variable {c : Char} {cs : List Char} {count : Nat} (place : Nat × Nat)

theorem placeIn_behind (l : List Char) (h : count ≤ cs.length) :
    ScreenLine.placeIn place (l :: splitLines cs) (count + l.length) =
      if cs = [] then (place.1, place.2 + l.length)
      else ScreenLine.placeIn (place.1 + 1, 1) (splitLines cs) count := by
  rw [ScreenLine.placeIn]
  by_cases hcs : cs = []
  · subst hcs
    rw [if_pos (.inr rfl), if_pos rfl, Nat.le_zero.1 h, Nat.zero_add]
  · have hmore : ¬(count + l.length < l.length ∨ splitLines cs = []) := by
      rw [splitLines_eq_nil_iff]
      exact not_or.2 ⟨by omega, hcs⟩
    rw [if_neg hmore, if_neg hcs, Nat.add_sub_cancel]

theorem screenPlace_behind (hc : isLineEnd c) (hpair : c = '\r' → cs.head? ≠ some '\n')
    (h : count ≤ cs.length) : screenPlace (c :: cs) (count + 1) place =
      if cs = [] then (place.1, place.2 + 1) else screenPlace cs count (place.1 + 1, 1) := by
  rw [screenPlace_cons, screenAdvance]
  by_cases hcs : cs = []
  · subst hcs
    rw [if_neg fun hends ↦ hends.2.1 rfl, if_pos rfl, Nat.le_zero.1 h]
    rfl
  · rw [if_pos ⟨hc, hcs, fun ⟨hr, hn⟩ ↦ hpair hr hn⟩, if_neg hcs]

theorem screenPlace_within (hc : ¬EndsLine c cs) : screenPlace (c :: cs) (count + 1) place =
    screenPlace cs count (place.1, place.2 + 1) := by
  rw [screenPlace_cons, screenAdvance, if_neg hc]

theorem placeIn_splitLines (text : List Char) (h : count ≤ text.length) :
    ScreenLine.placeIn place (splitLines text) count = screenPlace text count place := by
  fun_induction splitLines text generalizing place count with
  | case1 =>
    obtain rfl := Nat.le_zero.1 h
    rfl
  | case2 cs ih =>
    -- A return and its newline: the place between them is still on the line that they end.
    rcases count with _ | _ | count
    · rfl
    · simp [ScreenLine.placeIn, screenPlace, screenAdvance, EndsLine]
    · have hcount : count ≤ cs.length := Nat.le_of_succ_le_succ (Nat.le_of_succ_le_succ h)
      have hreturn : ¬EndsLine '\r' ('\n' :: cs) := fun hends ↦ hends.2.2 ⟨rfl, rfl⟩
      have hnewline : '\n' = '\r' → cs.head? ≠ some '\n' := fun h ↦ absurd h (by decide)
      rw [screenPlace_within place hreturn, screenPlace_behind _ (by decide) hnewline hcount,
        ← ih _ hcount]
      exact placeIn_behind place ['\r', '\n'] hcount
  | case3 c cs hne hc ih =>
    rcases count with _ | count
    · simp [ScreenLine.placeIn, screenPlace]
    · have hcount : count ≤ cs.length := Nat.le_of_succ_le_succ h
      have hpair : c = '\r' → cs.head? ≠ some '\n' := by
        intro hr hn
        obtain ⟨rest, rfl⟩ := List.head?_eq_some_iff.1 hn
        exact hne rest hr rfl
      rw [screenPlace_behind place hc hpair hcount, ← ih _ hcount]
      exact placeIn_behind place [c] hcount
  | case4 c cs hne hc hls ih =>
    obtain rfl := splitLines_eq_nil_iff.1 hls
    rcases count with _ | _ | count
    · rfl
    · simp [ScreenLine.placeIn, screenPlace, screenAdvance, EndsLine]
    · exact absurd (Nat.le_of_succ_le_succ h) (Nat.not_succ_le_zero count)
  | case5 c cs hne hc l ls hls ih =>
    rcases count with _ | count
    · simp [ScreenLine.placeIn, screenPlace]
    · rw [screenPlace_within place fun hends ↦ hc hends.1, ← ih _ (Nat.le_of_succ_le_succ h), hls]
      simp [ScreenLine.placeIn, Nat.add_comm, Nat.add_left_comm]

end

/-- The lines of a screen put every offset, up to that of the end, at its place. -/
theorem exists_screenLineAt? {text : List Char} (hne : text ≠ []) {offset : Nat}
    (h : offset ≤ text.length) : ∃ l, screenLineAt? text offset = some l ∧
      (l.number + 1, offset - l.start + 1) = screenPlace text offset (1, 1) := by
  have hlines : splitLines text ≠ [] := fun hnil ↦ hne (splitLines_eq_nil_iff.1 hnil)
  obtain ⟨l, hl, hplace⟩ := ScreenLine.exists_find hlines 0 0 offset
  rw [Nat.zero_add] at hl hplace
  rw [placeIn_splitLines _ _ h] at hplace
  exact ⟨l, (if_pos h).trans hl, hplace⟩

/-! ## The order of places -/

section

variable {c : Char} {cs front back : List Char} {place : Nat × Nat} {a b count : Nat}

theorem lt_screenAdvance (place : Nat × Nat) (c : Char) (rest : List Char) :
    toLex place < toLex (screenAdvance place c rest) := by
  rw [Prod.Lex.toLex_lt_toLex]
  unfold screenAdvance
  split
  · exact .inl (Nat.lt_succ_self _)
  · exact .inr ⟨rfl, Nat.lt_succ_self _⟩

theorem le_screenPlace (place : Nat × Nat) (count : Nat) (cs : List Char) :
    toLex place ≤ toLex (screenPlace cs count place) := by
  induction cs generalizing place count with
  | nil => cases count <;> exact le_refl _
  | cons c cs ih =>
    cases count with
    | zero => exact le_refl _
    | succ count => exact (lt_screenAdvance place c cs).le.trans (ih _ count)

theorem screenPlace_lt (place : Nat × Nat) (hab : a < b) (hb : b ≤ cs.length) :
    toLex (screenPlace cs a place) < toLex (screenPlace cs b place) := by
  induction cs generalizing place a b with
  | nil => exact absurd hab (by simp [Nat.le_zero.1 hb])
  | cons c cs ih =>
    match a, b, hab with
    | 0, b + 1, _ => exact (lt_screenAdvance place c cs).trans_le (le_screenPlace _ b cs)
    | a + 1, b + 1, hab =>
      exact ih _ (Nat.lt_of_succ_lt_succ hab) (Nat.le_of_succ_le_succ hb)

/-! ## Screen and source -/

/-- In front of the offset, lines end on the screen where they end in the source. -/
def BreaksAlike (text : List Char) (offset : Nat) : Prop :=
  ∀ front c back, text = front ++ c :: back → front.length < offset →
    (EndsLine c back ↔ c = '\n')

theorem breaksAlike_cons : BreaksAlike (c :: cs) (count + 1) ↔
    (EndsLine c cs ↔ c = '\n') ∧ BreaksAlike cs count := by
  constructor
  · refine fun h ↦ ⟨h [] c cs rfl (Nat.succ_pos _), fun front d back hcs hlt ↦ ?_⟩
    exact h (c :: front) d back (congrArg (c :: ·) hcs) (Nat.succ_lt_succ hlt)
  · rintro ⟨hfirst, hothers⟩ front d back hcs hlt
    cases front with
    | nil =>
      obtain ⟨rfl, rfl⟩ := List.cons.inj hcs
      exact hfirst
    | cons e front =>
      exact hothers front d back (List.cons.inj hcs).2 (Nat.lt_of_succ_lt_succ hlt)

theorem endsLine_newline (rest : List Char) : EndsLine '\n' rest ↔ rest ≠ [] :=
  ⟨fun h ↦ h.2.1, fun h ↦ ⟨by decide, h, fun hr ↦ absurd hr.1 (by decide)⟩⟩

theorem screenPlace_of_breaksAlike (place : Nat × Nat)
    (h : BreaksAlike (front ++ back) front.length) :
    screenPlace (front ++ back) front.length place = front.foldl SourceMap.advance place := by
  induction front generalizing place with
  | nil => exact screenPlace_zero _ place
  | cons c front ih =>
    obtain ⟨hfirst, hothers⟩ := breaksAlike_cons.1 h
    have hadvance : screenAdvance place c (front ++ back) = SourceMap.advance place c :=
      if_congr hfirst rfl rfl
    rw [List.foldl_cons, ← hadvance]
    exact ih _ hothers

/-- A newline that is not the last character ends a line on the screen. -/
theorem endsLine_of_newline (hend : back = [] → (c :: front).getLast? ≠ some '\n')
    (hc : c = '\n') : EndsLine c (front ++ back) := by
  subst hc
  refine (endsLine_newline _).2 fun hnil ↦ ?_
  obtain ⟨rfl, rfl⟩ := List.append_eq_nil_iff.1 hnil
  exact hend rfl rfl

theorem getLast?_ne_of_cons (hend : back = [] → (c :: front).getLast? ≠ some '\n') :
    back = [] → front.getLast? ≠ some '\n' := by
  intro hback hlast
  refine hend hback ?_
  rw [List.getLast?_cons, hlast]
  rfl

/-- A place that is further down on the screen stays so. -/
theorem screenPlace_fst_lt {other : Nat × Nat} (hlt : place.1 < other.1)
    (hend : back = [] → front.getLast? ≠ some '\n') :
    (front.foldl SourceMap.advance place).1 <
      (screenPlace (front ++ back) front.length other).1 := by
  induction front generalizing place other with
  | nil =>
    rw [List.length_nil, screenPlace_zero]
    exact hlt
  | cons c front ih =>
    have hstep : (SourceMap.advance place c).1 < (screenAdvance other c (front ++ back)).1 := by
      unfold SourceMap.advance screenAdvance
      by_cases hc : c = '\n'
      · rw [if_pos hc, if_pos (endsLine_of_newline hend hc)]
        exact Nat.succ_lt_succ hlt
      · rw [if_neg hc]
        split
        · exact Nat.lt_succ_of_lt hlt
        · exact hlt
    exact ih hstep (getLast?_ne_of_cons hend)

/-- Where a line ends on the screen only, the screen gets further down. -/
theorem screenPlace_fst_lt_of_not (place : Nat × Nat)
    (h : ¬BreaksAlike (front ++ back) front.length)
    (hend : back = [] → front.getLast? ≠ some '\n') :
    (front.foldl SourceMap.advance place).1 <
      (screenPlace (front ++ back) front.length place).1 := by
  induction front generalizing place with
  | nil => exact absurd (fun _ _ _ _ hlt ↦ absurd hlt (Nat.not_lt_zero _)) h
  | cons c front ih =>
    have hend' := getLast?_ne_of_cons hend
    by_cases hfirst : EndsLine c (front ++ back) ↔ c = '\n'
    · have hadvance : screenAdvance place c (front ++ back) = SourceMap.advance place c :=
        if_congr hfirst rfl rfl
      rw [List.foldl_cons, ← hadvance]
      exact ih _ (fun hothers ↦ h (breaksAlike_cons.2 ⟨hfirst, hothers⟩)) hend'
    · have hnewline : c ≠ '\n' := fun hc ↦
        hfirst ⟨fun _ ↦ hc, fun _ ↦ endsLine_of_newline hend hc⟩
      have hends : EndsLine c (front ++ back) := by
        by_contra hends
        exact hfirst ⟨fun h ↦ absurd h hends, fun hc ↦ absurd hc hnewline⟩
      have hstep : (SourceMap.advance place c).1 < (screenAdvance place c (front ++ back)).1 := by
        unfold SourceMap.advance screenAdvance
        rw [if_neg hnewline, if_pos hends]
        exact Nat.lt_succ_self _
      have hbehind : (front.foldl SourceMap.advance (SourceMap.advance place c)).1 <
          (screenPlace (front ++ back) front.length (screenAdvance place c (front ++ back))).1 :=
        screenPlace_fst_lt hstep hend'
      exact hbehind

theorem one_lt_screenPlace_snd (hplace : 0 < place.2) (front : List Char) (c : Char) :
    1 < (screenPlace (front ++ [c]) (front ++ [c]).length place).2 := by
  induction front generalizing place with
  | nil =>
    rw [List.nil_append, List.length_singleton, screenPlace_within place fun hends ↦ hends.2.1 rfl]
    exact Nat.succ_lt_succ hplace
  | cons d front ih =>
    refine ih ?_
    unfold screenAdvance
    split <;> exact Nat.succ_pos _

/-- The end behind a last newline is on the line of the newline, on a screen only. -/
theorem screenPlace_ne_of_newline (hplace : 0 < place.2) :
    screenPlace (front ++ ['\n']) (front ++ ['\n']).length place ≠
      (front ++ ['\n']).foldl SourceMap.advance place := by
  intro heq
  have hlt := one_lt_screenPlace_snd hplace front '\n'
  rw [heq, List.foldl_append] at hlt
  exact absurd hlt (Nat.lt_irrefl 1)

theorem screenPlace_eq_iff (hplace : 0 < place.2) :
    screenPlace (front ++ back) front.length place = front.foldl SourceMap.advance place ↔
      BreaksAlike (front ++ back) front.length := by
  refine ⟨fun heq ↦ ?_, screenPlace_of_breaksAlike place⟩
  by_contra hbreaks
  by_cases hend : back = [] → front.getLast? ≠ some '\n'
  · exact absurd (congrArg Prod.fst heq) (screenPlace_fst_lt_of_not place hbreaks hend).ne'
  · obtain ⟨rfl, hlast⟩ := Classical.not_imp.1 hend
    obtain ⟨front, rfl⟩ := List.getLast?_eq_some_iff.1 (not_not.1 hlast)
    rw [List.append_nil] at heq
    exact screenPlace_ne_of_newline hplace heq

/-- In front of more text, the place on the screen is not before the one in the source. -/
theorem advance_le_screenPlace (place : Nat × Nat) (hback : back ≠ []) :
    toLex (front.foldl SourceMap.advance place) ≤
      toLex (screenPlace (front ++ back) front.length place) := by
  by_cases hbreaks : BreaksAlike (front ++ back) front.length
  · rw [screenPlace_of_breaksAlike place hbreaks]
  · refine le_of_lt (Prod.Lex.toLex_lt_toLex.2 (.inl ?_))
    exact screenPlace_fst_lt_of_not place hbreaks fun hnil ↦ absurd hnil hback

end

end MasCheck
