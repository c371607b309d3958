import MasCheck.Diagnostic.Catalog
import MasCheck.Proofs.Text.Slices

/-!
# Placeholders of templates

A placeholder is found from its opening brace on, and for each opening brace on its own. What makes
it one is a count between its braces, and a count holds no brace, so that no placeholder begins
inside another one. They are listed as they stand in the template.
-/

namespace MasCheck

namespace Text

theorem offsetsOf_append (c : Char) (here : Nat) (us vs : List Char) :
    offsetsOf c here (us ++ vs) = offsetsOf c here us ++ offsetsOf c (here + byteLength us) vs := by
  induction us generalizing here with
  | nil => rfl
  | cons d us ih =>
    have hmore := ih (here + d.utf8Size)
    rw [Nat.add_assoc, ← byteLength_cons] at hmore
    rw [List.cons_append, offsetsOf, offsetsOf, hmore]
    split <;> rfl

theorem offsetsOf_of_notMem {c : Char} {cs : List Char} (h : c ∉ cs) (here : Nat) :
    offsetsOf c here cs = [] := by
  induction cs generalizing here with
  | nil => rfl
  | cons d cs ih =>
    rw [offsetsOf, if_neg (List.ne_of_not_mem_cons h).symm]
    exact ih (List.not_mem_of_not_mem_cons h) _

/-- The first place of a character is behind what stands in front of it. -/
theorem head?_offsetsOf {c : Char} {us : List Char} (h : c ∉ us) (vs : List Char) :
    (offsetsOf c 0 (us ++ c :: vs)).head? = some (byteLength us) := by
  rw [offsetsOf_append, offsetsOf_of_notMem h, List.nil_append, offsetsOf, if_pos rfl, Nat.zero_add]
  rfl

theorem brace_notMem_of_count? {cs : List Char} {n : Nat} (h : count? cs = some n) :
    '{' ∉ cs := by
  have hdigits : ∀ {ds : List Char}, digitsValue? ds = some n → '{' ∉ ds := by
    intro ds hds hmem
    unfold digitsValue? at hds
    split at hds
    · cases hds
    · split at hds
      · next hall =>
        have hbrace := List.all_eq_true.1 hall _ hmem
        revert hbrace
        decide
      · cases hds
  unfold count? at h
  obtain ⟨hvalue, -⟩ := Option.filter_eq_some_iff.1 h
  split at hvalue
  · exact List.not_mem_cons_of_ne_of_not_mem (by decide) (hdigits hvalue)
  · exact hdigits hvalue

end Text

namespace Template

/-- The template begins with a placeholder for the argument `n`, and `rest` is behind it. -/
def Opens (template : List Char) (n : Nat) (rest : List Char) : Prop :=
  ∃ digits, '}' ∉ digits ∧ Text.count? digits = some n ∧ template = '{' :: (digits ++ '}' :: rest)

/-- A placeholder whose brace was just read: the place of its argument, and the number of
characters up to and with its closing brace. -/
def slot? (cs : List Char) : Option (Nat × Nat) :=
  let inner := cs.takeWhile (· ≠ '}')
  if inner.length < cs.length then (Text.count? inner).map fun n ↦ (n, inner.length + 1) else none

/-- The places named by the placeholders of a template. -/
def slots : List Char → List Nat
  | [] => []
  | c :: cs =>
    match if c = '{' then slot? cs else none with
    | some (n, _) => n :: slots cs
    | none => slots cs

/-- The placeholders of a template that starts at byte `here`. -/
def placeholdersFrom (here : Nat) : List Char → List Placeholder
  | [] => []
  | c :: cs =>
    let more := placeholdersFrom (here + c.utf8Size) cs
    match if c = '{' then slot? cs else none with
    | some (n, _) => ⟨⟨here, here + Text.byteLength (cs.takeWhile (· ≠ '}')) + 2⟩, n⟩ :: more
    | none => more

/-- The placeholder stands in the template: a count between an opening brace and the next closing
brace. -/
def Placeholder.StandsIn (template : List Char) (p : Placeholder) : Prop :=
  ∃ front digits back, template = front ++ '{' :: (digits ++ '}' :: back) ∧ '}' ∉ digits ∧
    Text.count? digits = some p.index ∧
      p.span = ⟨Text.byteLength front, Text.byteLength (front ++ '{' :: (digits ++ ['}']))⟩

/-- The placeholders of the template, from its front to its end and without overlaps. -/
structure AreListed (template : List Char) (ps : List Placeholder) : Prop where
  mem_iff : ∀ p, p ∈ ps ↔ p.StandsIn template
  ordered : ps.Pairwise fun p q ↦ p.span.stop ≤ q.span.start

variable {c : Char} {template cs front digits rest : List Char} {here n width : Nat}

/-! ## One placeholder -/

theorem byteLength_braced (front digits : List Char) :
    Text.byteLength (front ++ '{' :: (digits ++ ['}'])) =
      Text.byteLength front + Text.byteLength digits + 2 := by
  rw [Text.byteLength_append, Text.byteLength_cons, Text.byteLength_append]
  change _ + (1 + (_ + 1)) = _
  omega

theorem takeWhile_ne_brace (h : '}' ∉ digits) (rest : List Char) :
    (digits ++ '}' :: rest).takeWhile (· ≠ '}') = digits := by
  have hall : ∀ d ∈ digits, decide (d ≠ '}') = true :=
    fun d hd ↦ decide_eq_true (ne_of_mem_of_not_mem hd h)
  rw [List.takeWhile_append_of_pos hall]
  simp

theorem slot?_of_closed (h : '}' ∉ digits) (rest : List Char) :
    slot? (digits ++ '}' :: rest) =
      (Text.count? digits).map fun n ↦ (n, digits.length + 1) := by
  have hlt : digits.length < (digits ++ '}' :: rest).length := by simp
  unfold slot?
  dsimp only
  rw [takeWhile_ne_brace h, if_pos hlt]

theorem slot?_of_notMem (h : '}' ∉ cs) : slot? cs = none := by
  have hall : ∀ d ∈ cs, decide (d ≠ '}') = true :=
    fun d hd ↦ decide_eq_true (ne_of_mem_of_not_mem hd h)
  have hwhole : cs.takeWhile (· ≠ '}') = cs := by
    rw [← List.append_nil cs, List.takeWhile_append_of_pos hall, List.takeWhile_nil]
  unfold slot?
  dsimp only
  rw [hwhole, if_neg (Nat.lt_irrefl _)]

theorem closed_or_notMem (cs : List Char) :
    (∃ digits rest, '}' ∉ digits ∧ cs = digits ++ '}' :: rest) ∨ '}' ∉ cs := by
  by_cases hmem : '}' ∈ cs
  · obtain ⟨digits, rest, rfl, hdigits⟩ := List.eq_append_cons_of_mem hmem
    exact .inl ⟨digits, rest, hdigits, rfl⟩
  · exact .inr hmem

theorem slot?_eq_some_iff : slot? cs = some (n, width) ↔ ∃ digits rest,
    cs = digits ++ '}' :: rest ∧ '}' ∉ digits ∧ Text.count? digits = some n ∧
      width = digits.length + 1 := by
  constructor
  · intro h
    rcases closed_or_notMem cs with ⟨digits, rest, hdigits, rfl⟩ | hmem
    · rw [slot?_of_closed hdigits] at h
      obtain ⟨m, hm, hpair⟩ := Option.map_eq_some_iff.1 h
      obtain ⟨rfl, rfl⟩ := Prod.mk.inj hpair
      exact ⟨digits, rest, rfl, hdigits, hm, rfl⟩
    · cases (slot?_of_notMem hmem).symm.trans h
  · rintro ⟨digits, rest, rfl, hdigits, hcount, rfl⟩
    rw [slot?_of_closed hdigits, hcount]
    rfl

/-- The placeholder that the first character of a template opens. -/
theorem opens_iff : Opens (c :: cs) n rest ↔
    ∃ width, (if c = '{' then slot? cs else none) = some (n, width) ∧ rest = cs.drop width := by
  constructor
  · rintro ⟨digits, hdigits, hcount, htemplate⟩
    obtain ⟨rfl, rfl⟩ := List.cons.inj htemplate
    refine ⟨digits.length + 1, ?_, by simp⟩
    rw [if_pos rfl]
    exact slot?_eq_some_iff.2 ⟨digits, rest, rfl, hdigits, hcount, rfl⟩
  · rintro ⟨width, hslot, rfl⟩
    split at hslot
    · next hc =>
      obtain ⟨digits, rest, rfl, hdigits, hcount, rfl⟩ := slot?_eq_some_iff.1 hslot
      exact ⟨digits, hdigits, hcount, by simp [hc]⟩
    · cases hslot

theorem slot?_eq_none (h : ∀ n rest, ¬Opens (c :: cs) n rest) :
    (if c = '{' then slot? cs else none) = none := by
  refine Option.eq_none_iff_forall_not_mem.2 fun place hplace ↦ ?_
  exact h place.1 (cs.drop place.2) (opens_iff.2 ⟨place.2, hplace, rfl⟩)

/-- What a brace opens does not depend on what stands in front of it. -/
theorem placeholderAt?_eq (h : template = front ++ '{' :: cs) :
    placeholderAt? template (Text.byteLength front) = some ((slot? cs).map fun s ↦
      ⟨⟨Text.byteLength front,
        Text.byteLength front + Text.byteLength (cs.takeWhile (· ≠ '}')) + 2⟩, s.1⟩) := by
  have hrest : Text.slice? (Text.byteLength front + 1) (Text.byteLength template) template =
      some cs := by
    refine Text.slice?_eq_some_iff.2 ⟨front ++ ['{'], [], by simp [h], ?_, by simp [h]⟩
    rw [Text.byteLength_append]
    rfl
  unfold placeholderAt?
  rcases closed_or_notMem cs with ⟨digits, rest, hdigits, rfl⟩ | hmem
  · have hinner : Text.slice? 0 (Text.byteLength digits) (digits ++ '}' :: rest) = some digits :=
      Text.slice?_eq_some_iff.2 ⟨[], '}' :: rest, rfl, rfl, rfl⟩
    rw [takeWhile_ne_brace hdigits, slot?_of_closed hdigits, Option.map_map]
    simp only [hrest, Text.head?_offsetsOf hdigits, hinner, Option.bind_eq_bind, Option.bind_some,
      Option.pure_def]
    rfl
  · simp only [hrest, Text.offsetsOf_of_notMem hmem, slot?_of_notMem hmem, Option.bind_eq_bind,
      Option.bind_some, Option.pure_def, List.head?_nil, Option.map_none]

/-! ## All placeholders -/

theorem placeholdersFrom_of_not_opens (h : ∀ n rest, ¬Opens (c :: cs) n rest) (here : Nat) :
    placeholdersFrom here (c :: cs) = placeholdersFrom (here + c.utf8Size) cs := by
  rw [placeholdersFrom, slot?_eq_none h]

/-- A text without an opening brace holds no placeholder. -/
theorem placeholdersFrom_append_of_notMem (h : '{' ∉ front) (here : Nat) (cs : List Char) :
    placeholdersFrom here (front ++ cs) = placeholdersFrom (here + Text.byteLength front) cs := by
  induction front generalizing here with
  | nil => rfl
  | cons d front ih =>
    rw [List.cons_append, placeholdersFrom, if_neg (List.ne_of_not_mem_cons h).symm]
    dsimp only
    rw [ih (List.not_mem_of_not_mem_cons h), Nat.add_assoc]
    rfl

/-- Behind a placeholder the next one is looked for behind its closing brace: there is none inside
it. -/
theorem placeholdersFrom_of_opens (hdigits : '}' ∉ digits) (hcount : Text.count? digits = some n)
    (here : Nat) (rest : List Char) :
    placeholdersFrom here ('{' :: (digits ++ '}' :: rest)) =
      ⟨⟨here, here + Text.byteLength digits + 2⟩, n⟩ ::
        placeholdersFrom (here + Text.byteLength digits + 2) rest := by
  have hinside : placeholdersFrom (here + 1) (digits ++ '}' :: rest) =
      placeholdersFrom (here + Text.byteLength digits + 2) rest := by
    have hfront : '{' ∉ digits ++ ['}'] := by
      simp [Text.brace_notMem_of_count? hcount]
    have hskip := placeholdersFrom_append_of_notMem hfront (here + 1) rest
    rw [List.append_assoc, Text.byteLength_append] at hskip
    refine hskip.trans (congrArg (placeholdersFrom · rest) ?_)
    change here + 1 + (Text.byteLength digits + 1) = _
    omega
  rw [placeholdersFrom, if_pos rfl, slot?_of_closed hdigits, hcount, takeWhile_ne_brace hdigits]
  exact congrArg (_ :: ·) hinside

theorem map_index_placeholdersFrom (here : Nat) (cs : List Char) :
    (placeholdersFrom here cs).map Placeholder.index = slots cs := by
  induction cs generalizing here with
  | nil => rfl
  | cons c cs ih =>
    rw [placeholdersFrom, slots]
    split
    · exact congrArg _ (ih _)
    · exact ih _

theorem mem_placeholdersFrom_iff {p : Placeholder} :
    p ∈ placeholdersFrom here cs ↔ ∃ front digits back,
      cs = front ++ '{' :: (digits ++ '}' :: back) ∧ '}' ∉ digits ∧
        Text.count? digits = some p.index ∧ p.span = ⟨here + Text.byteLength front,
          here + Text.byteLength front + Text.byteLength digits + 2⟩ := by
  induction cs generalizing here with
  | nil => simp [placeholdersFrom]
  | cons c cs ih =>
    have hmore : p ∈ placeholdersFrom (here + c.utf8Size) cs ↔ ∃ front digits back,
        cs = front ++ '{' :: (digits ++ '}' :: back) ∧ '}' ∉ digits ∧
          Text.count? digits = some p.index ∧ p.span = ⟨here + Text.byteLength (c :: front),
            here + Text.byteLength (c :: front) + Text.byteLength digits + 2⟩ := by
      simp only [ih, Text.byteLength_cons, Nat.add_assoc]
    constructor
    · intro hp
      rw [placeholdersFrom] at hp
      split at hp
      · next n width hslot =>
        rcases List.mem_cons.1 hp with rfl | hp
        · obtain ⟨digits, hdigits, hcount, htemplate⟩ :=
            opens_iff.2 ⟨width, hslot, rfl⟩
          refine ⟨[], digits, cs.drop width, htemplate, hdigits, hcount, ?_⟩
          rw [(List.cons.inj htemplate).2, takeWhile_ne_brace hdigits]
          rfl
        · obtain ⟨front, digits, back, rfl, h⟩ := hmore.1 hp
          exact ⟨c :: front, digits, back, rfl, h⟩
      · obtain ⟨front, digits, back, rfl, h⟩ := hmore.1 hp
        exact ⟨c :: front, digits, back, rfl, h⟩
    · rintro ⟨front, digits, back, hsplit, hdigits, hcount, hspan⟩
      cases front with
      | nil =>
        have hp : p = ⟨⟨here, here + Text.byteLength digits + 2⟩, p.index⟩ :=
          congrArg (fun span ↦ Placeholder.mk span p.index) hspan
        rw [List.nil_append] at hsplit
        rw [hsplit, placeholdersFrom_of_opens hdigits hcount, ← hp]
        exact List.mem_cons_self
      | cons d front =>
        obtain ⟨rfl, hcs⟩ := List.cons.inj hsplit
        have hp := hmore.2 ⟨front, digits, back, hcs, hdigits, hcount, hspan⟩
        rw [placeholdersFrom]
        split
        · exact List.mem_cons_of_mem _ hp
        · exact hp

theorem start_of_mem_placeholdersFrom {p : Placeholder} (h : p ∈ placeholdersFrom here cs) :
    here ≤ p.span.start := by
  obtain ⟨front, digits, back, -, -, -, hspan⟩ := mem_placeholdersFrom_iff.1 h
  rw [hspan]
  exact Nat.le_add_right _ _

theorem pairwise_placeholdersFrom (here : Nat) (cs : List Char) :
    (placeholdersFrom here cs).Pairwise fun p q ↦ p.span.stop ≤ q.span.start := by
  induction hk : cs.length using Nat.strongRecOn generalizing here cs with
  | _ k ih =>
    cases cs with
    | nil => exact .nil
    | cons c cs =>
      by_cases hopens : ∃ n rest, Opens (c :: cs) n rest
      · obtain ⟨n, rest, digits, hdigits, hcount, htemplate⟩ := hopens
        have hlength := congrArg List.length htemplate
        simp only [List.length_cons, List.length_append] at hlength hk
        rw [htemplate, placeholdersFrom_of_opens hdigits hcount]
        refine .cons (fun q hq ↦ start_of_mem_placeholdersFrom hq) (ih _ ?_ _ rest rfl)
        omega
      · rw [placeholdersFrom_of_not_opens fun n rest h ↦ hopens ⟨n, rest, h⟩]
        exact ih _ (hk ▸ Nat.lt_succ_self _) _ cs rfl

theorem areListed_placeholdersFrom (template : List Char) :
    AreListed template (placeholdersFrom 0 template) where
  mem_iff p := by
    simp only [mem_placeholdersFrom_iff, Placeholder.StandsIn, byteLength_braced, Nat.zero_add]
  ordered := pairwise_placeholdersFrom 0 template

/-! ## The program's list -/

theorem mapM_placeholderAt? (h : template = front ++ cs) :
    ∃ found, (Text.offsetsOf '{' (Text.byteLength front) cs).mapM (placeholderAt? template) =
      some found ∧ found.filterMap id = placeholdersFrom (Text.byteLength front) cs := by
  induction cs generalizing front with
  | nil => exact ⟨[], rfl, rfl⟩
  | cons c cs ih =>
    have hbehind : Text.byteLength (front ++ [c]) = Text.byteLength front + c.utf8Size := by
      rw [Text.byteLength_append]
      rfl
    obtain ⟨found, hfound, hmore⟩ := @ih (front ++ [c]) (by rw [h, List.append_assoc]; rfl)
    rw [hbehind] at hfound hmore
    rw [Text.offsetsOf, placeholdersFrom]
    by_cases hc : c = '{'
    · subst hc
      rw [if_pos rfl, if_pos rfl, List.mapM_cons, placeholderAt?_eq h, hfound]
      refine ⟨_, rfl, ?_⟩
      cases slot? cs with
      | none => exact hmore
      | some s => exact congrArg (_ :: ·) hmore
    · rw [if_neg hc, if_neg hc]
      exact ⟨found, hfound, hmore⟩

theorem placeholders?_eq (template : List Char) :
    placeholders? template = some (placeholdersFrom 0 template) := by
  obtain ⟨found, hfound, hplaces⟩ := mapM_placeholderAt? (List.nil_append template).symm
  rw [Text.byteLength_nil] at hfound hplaces
  rw [placeholders?, hfound, ← hplaces]
  rfl

end Template

end MasCheck
