import MasCheck.Grammar.Unit
import MasCheck.Proofs.Grammar.MasRealization
import MasCheck.Proofs.Grammar.Run
import MasCheck.Proofs.Grammar.ScriptRealization

/-!
# Which units are usable

A unit is usable when its tokens need no repair and derive from the strict grammar. One half of
this is about parsers: a clean run that reads all tokens has looked at the end, so that the whole
source has been repaired. The other half is about findings: the first event of the repair or
failure of the parser makes one, and all of them are errors.
-/

namespace MasCheck

/-! ## Whole parses -/

namespace Parser

variable {α : Type} {p : Parser α} {P : Production α} {c d : Cursor} {n : Notes} {x : α}
  {tokens : List Lexeme} {finish : Nat}

def toEnd (p : Parser α) : Parser α := do
  let x ← p
  endOfInput
  return x

theorem toEnd_of_yields (h : (p c n).Yields x d) (hd : d.rest = []) :
    p.toEnd c n = .done x d ((p c n).notes.look d.index) := by
  unfold toEnd
  rw [bind_of_some h.value, h.emitted, h.cursor]
  have hend : (endOfInput d (p c n).notes).value = some () := by
    rw [endOfInput_of_nil hd]
    rfl
  rw [bind_of_some hend, endOfInput_of_nil hd]
  rfl

theorem yields_of_toEnd (h : (p.toEnd c n).Yields x d) : (p c n).Yields x d ∧ d.rest = [] := by
  obtain ⟨y, e, hy, hend⟩ := bind_yields_iff.1 h
  obtain ⟨u, f, hu, hdone⟩ := bind_yields_iff.1 hend
  obtain ⟨rfl, rfl⟩ := Outcome.done_yields_iff.1 hdone
  unfold endOfInput at hu
  split at hu
  · next hrest =>
    obtain ⟨-, rfl⟩ := Outcome.done_yields_iff.1 hu
    exact ⟨hy, hrest⟩
  · exact absurd hu Outcome.not_failed_yields

theorem parse_eq (p : Parser α) (tokens : List Lexeme) (finish : Nat) :
    p.parse tokens finish =
      let a := p.toEnd (.start tokens finish) .start
      { tree := a.value
        failures := a.emitted ++
          if a.value.isNone then a.notes.pending.toList.map Pending.failure else []
        reach := a.notes.reach } := rfl

/-- A derivation makes a parse that looks behind the last token. -/
theorem Realizes.parse_of_derives (h : Realizes p P (· = [])) (hP : P tokens x) (finish : Nat) :
    ∃ reach, tokens.length < reach ∧
      p.parse tokens finish = { tree := some x, failures := [], reach } := by
  have hrest : (Cursor.start tokens finish).rest = tokens ++ [] := (List.append_nil tokens).symm
  obtain ⟨d, hd, hdrest⟩ := Cursor.Reaches.of_rest hrest
  have hx := h.complete (n := .start) hd hP hdrest
  have hindex : d.index = tokens.length := by
    rw [hd.index_eq]
    exact Nat.zero_add _
  refine ⟨_, ?_, by rw [parse_eq, toEnd_of_yields hx hdrest]; rfl⟩
  simp only [Outcome.done, Notes.look]
  omega

/-- A parse without failures is a derivation. -/
theorem Realizes.derives_of_parse (h : Realizes p P (· = []))
    (htree : (p.parse tokens finish).tree = some x)
    (hfailures : (p.parse tokens finish).failures = []) : P tokens x := by
  have hwhole : (p.toEnd (.start tokens finish) .start).Yields x _ :=
    ⟨htree, rfl, (List.append_eq_nil_iff.1 hfailures).1⟩
  obtain ⟨hx, hrest⟩ := yields_of_toEnd hwhole
  obtain ⟨ts, hts, hP⟩ := h.sound hx
  have htokens : tokens = ts ++ [] := hrest ▸ hts.rest_eq
  rwa [htokens, List.append_nil]

theorem Explains.failures_ne_nil (h : p.Explains) (htree : (p.parse tokens finish).tree = none) :
    (p.parse tokens finish).failures ≠ [] := by
  have hwhole : p.toEnd.Explains :=
    explains_bind h fun x ↦ explains_bind explains_endOfInput fun _ ↦ explains_pure x
  have hvalue : (p.toEnd (.start tokens finish) .start).value = none := htree
  obtain ⟨f, hf⟩ := Option.isSome_iff_exists.1 (hwhole _ _ hvalue)
  simp [parse_eq, hvalue, hf]

end Parser

/-! ## Repair -/

theorem prefix_firstPieces (n : Nat) (ps : List Piece) : firstPieces n ps <+: ps := by
  fun_induction firstPieces n ps with
  | case1 => exact List.nil_prefix
  | case2 => exact List.nil_prefix
  | case3 n p ps ih => exact (List.prefix_cons_inj p).2 ih

/-- A reader that asks for more tokens than there are meets everything. -/
theorem firstPieces_eq_self {n : Nat} {ps : List Piece}
    (h : (ps.filterMap Piece.lexeme?).length < n) : firstPieces n ps = ps := by
  fun_induction firstPieces n ps with
  | case1 => omega
  | case2 => rfl
  | case3 n p ps ih =>
    rw [ih]
    cases hp : p.lexeme? with
    | none => simpa [hp] using h
    | some l =>
      simp [hp] at h
      simpa using h

theorem Repaired.events_first_eq_nil {source : String} (h : (ofSource source).events = [])
    (n : Nat) : (first n source).events = [] := by
  refine List.flatMap_eq_nil_iff.2 fun piece hpiece ↦ ?_
  exact List.flatMap_eq_nil_iff.1 h piece ((prefix_firstPieces n _).subset hpiece)

theorem Repaired.first_eq_ofSource {source : String} {n : Nat}
    (h : (ofSource source).tokens.length < n) : first n source = ofSource source :=
  congrArg ofPieces (firstPieces_eq_self h)

theorem le_repairedCount (reach : Nat) : reach ≤ repairedCount reach := by
  unfold repairedCount groupSize
  omega

/-! ## Findings about form -/

namespace Collector

/-- The second collector has the findings of the first and then errors. -/
def Extends (c c' : Collector) : Prop :=
  ∃ ds, c'.diagnostics = c.diagnostics ++ ds ∧ ∀ d ∈ ds, d.isError

variable {c c' c'' : Collector}

theorem Extends.refl (c : Collector) : c.Extends c :=
  ⟨[], (List.append_nil _).symm, nofun⟩

theorem Extends.trans (h : c.Extends c') (h' : c'.Extends c'') : c.Extends c'' := by
  obtain ⟨ds, hds, herror⟩ := h
  obtain ⟨ds', hds', herror'⟩ := h'
  refine ⟨ds ++ ds', by rw [hds', hds, List.append_assoc], ?_⟩
  intro d hd
  exact (List.mem_append.1 hd).elim (herror d) (herror' d)

theorem Extends.foldl {β : Type} {f : Collector → β → Collector}
    (hf : ∀ (c : Collector) (x : β), c.Extends (f c x))
    (xs : List β) (c : Collector) : c.Extends (xs.foldl f c) := by
  induction xs generalizing c with
  | nil => exact .refl c
  | cons x xs ih => exact (hf c x).trans (ih (f c x))

theorem Extends.ne_nil (h : c.Extends c') (hc : c.diagnostics ≠ []) : c'.diagnostics ≠ [] := by
  obtain ⟨ds, hds, -⟩ := h
  rw [hds]
  exact List.append_ne_nil_of_left_ne_nil hc ds

theorem extends_push {kind : Kind} (hkind : kind.severity = .error) (args : List String)
    (span : Span) : c.Extends (c.push kind args span) := by
  refine ⟨[_], rfl, ?_⟩
  intro d hd
  obtain rfl := List.mem_singleton.1 hd
  exact decide_eq_true hkind

theorem extends_literal (quote : Quote) (text : String) (span : Span) :
    c.Extends (c.literal quote text span) := by
  unfold literal
  split
  · exact .refl c
  · have hkind : (unclosedKind quote).severity = .error := by cases quote <;> rfl
    exact extends_push hkind _ _

theorem extends_notice (c : Collector) (e : RepairEvent) : c.Extends (c.notice e) := by
  cases e with
  | unclosed quote text span => exact extends_literal quote text span
  | closed quote span => exact extends_literal quote _ span
  | stray text span => exact extends_push rfl _ _

theorem severity_finding (root : Rule) (m : Mismatch) : (m.finding root).1.severity = .error := by
  unfold Mismatch.finding
  dsimp only
  split <;> rfl

theorem extends_mismatch (c : Collector) (m : Mismatch) : c.Extends (c.mismatch m) := by
  unfold mismatch
  split
  · exact .refl c
  · exact extends_push (severity_finding c.root m) _ _

theorem diagnostics_push_ne_nil (kind : Kind) (args : List String) (span : Span) :
    (c.push kind args span).diagnostics ≠ [] :=
  List.append_ne_nil_of_right_ne_nil _ (List.cons_ne_nil _ [])

variable (map : SourceMap) (root : Rule)

theorem notice_start_ne_nil (e : RepairEvent) : ((start map root).notice e).diagnostics ≠ [] := by
  have hliteral : ∀ quote text span,
      ((start map root).literal quote text span).diagnostics ≠ [] := by
    intro quote text span
    have hfresh : span.start ∉ (start map root).literalStarts := List.not_mem_nil
    rw [literal_of_new hfresh]
    exact diagnostics_push_ne_nil _ _ _
  cases e with
  | unclosed quote text span => exact hliteral quote text span
  | closed quote span => exact hliteral quote _ span
  | stray text span => exact diagnostics_push_ne_nil _ _ _

theorem mismatch_start_ne_nil (m : Mismatch) :
    ((start map root).mismatch m).diagnostics ≠ [] := by
  have hfresh : m.span.start ∉ (start map root).mismatchStarts := List.not_mem_nil
  rw [mismatch_of_new hfresh]
  exact diagnostics_push_ne_nil _ _ _

def collect (events : List RepairEvent) (mismatches : List Mismatch) : Collector :=
  mismatches.foldl mismatch (events.foldl notice (start map root))

theorem isError_collect {events : List RepairEvent} {mismatches : List Mismatch} {d : Diagnostic}
    (hd : d ∈ (collect map root events mismatches).diagnostics) : d.isError := by
  have h : (start map root).Extends (collect map root events mismatches) :=
    (Extends.foldl extends_notice events _).trans (Extends.foldl extends_mismatch mismatches _)
  obtain ⟨ds, hds, herror⟩ := h
  rw [hds] at hd
  exact herror d hd

/-- Nothing is found only where nothing is told. -/
theorem collect_eq_nil_iff (events : List RepairEvent) (mismatches : List Mismatch) :
    (collect map root events mismatches).diagnostics = [] ↔ events = [] ∧ mismatches = [] := by
  constructor
  · intro h
    cases events with
    | cons e events =>
      have hfirst := notice_start_ne_nil map root e
      have hevents := (Extends.foldl extends_notice events _).ne_nil hfirst
      exact absurd h ((Extends.foldl extends_mismatch mismatches _).ne_nil hevents)
    | nil =>
      cases mismatches with
      | nil => exact ⟨rfl, rfl⟩
      | cons m mismatches =>
        have hfirst := mismatch_start_ne_nil map root m
        exact absurd h ((Extends.foldl extends_mismatch mismatches _).ne_nil hfirst)
  · rintro ⟨rfl, rfl⟩
    rfl

end Collector

/-! ## Units -/

namespace UnitTree

variable {α : Type} {p : Parser α} {P : Production α} {root : Rule} {file source : String} {x : α}

theorem isError_of_mem_read {d : Diagnostic} (hd : d ∈ (read p root file source).diagnostics) :
    d.isError :=
  Collector.isError_collect _ _ hd

theorem usableTree?_eq_some_iff (u : UnitTree α) (herror : ∀ d ∈ u.diagnostics, d.isError) :
    u.usableTree? = some x ↔ u.tree = some x ∧ u.diagnostics = [] := by
  have hany : u.diagnostics.any Diagnostic.isError = false ↔ u.diagnostics = [] := by
    constructor
    · intro h
      refine List.eq_nil_iff_forall_not_mem.2 fun d hd ↦ ?_
      exact List.any_eq_false.1 h d hd (herror d hd)
    · intro h
      rw [h]
      rfl
  unfold usableTree? usable
  constructor
  · intro h
    split at h
    · next husable =>
      simp only [Bool.and_eq_true, Bool.not_eq_true'] at husable
      exact ⟨h, hany.1 husable.2⟩
    · cases h
  · rintro ⟨htree, hdiagnostics⟩
    simp [htree, hdiagnostics]

def parsed (p : Parser α) (source : String) : Parser.Parsed α :=
  p.parse (Repaired.ofSource source).tokens (Text.byteLength source.toList)

theorem tree_read : (read p root file source).tree = (parsed p source).tree := rfl

theorem diagnostics_read_eq_nil_iff : (read p root file source).diagnostics = [] ↔
    (Repaired.first (repairedCount (parsed p source).reach) source).events = [] ∧
      (parsed p source).failures = [] := by
  rw [← List.map_eq_nil_iff (f := Failure.mismatch)]
  exact Collector.collect_eq_nil_iff (.ofText file source) root _ _

/-- The usable units are those whose tokens are sound and derive from the grammar. -/
theorem usableTree?_read_iff (h : p.Realizes P (· = [])) :
    (read p root file source).usableTree? = some x ↔
      (Repaired.ofSource source).events = [] ∧ P (Repaired.ofSource source).tokens x := by
  rw [usableTree?_eq_some_iff _ fun _ hd ↦ isError_of_mem_read hd, diagnostics_read_eq_nil_iff,
    tree_read]
  constructor
  · rintro ⟨htree, hevents, hfailures⟩
    have hP := h.derives_of_parse htree hfailures
    refine ⟨?_, hP⟩
    -- The parse has looked behind the last token, so the repair has gone over everything.
    obtain ⟨reach, hreach, hparse⟩ := h.parse_of_derives hP (Text.byteLength source.toList)
    have hall := Nat.lt_of_lt_of_le hreach (le_repairedCount reach)
    rwa [parsed, hparse, Repaired.first_eq_ofSource hall] at hevents
  · rintro ⟨hevents, hP⟩
    obtain ⟨reach, -, hparse⟩ := h.parse_of_derives hP (Text.byteLength source.toList)
    rw [parsed, hparse]
    exact ⟨rfl, Repaired.events_first_eq_nil hevents _, rfl⟩

/-- A unit that is not usable has an error. -/
theorem exists_error_of_not_usable (h : p.Explains)
    (hnone : (read p root file source).usableTree? = none) :
    ∃ d ∈ (read p root file source).diagnostics, d.isError := by
  have hne : (read p root file source).diagnostics ≠ [] := by
    intro hnil
    cases htree : (parsed p source).tree with
    | none =>
      exact h.failures_ne_nil htree (diagnostics_read_eq_nil_iff.1 hnil).2
    | some x =>
      have husable := (usableTree?_eq_some_iff _ fun _ hd ↦ isError_of_mem_read hd).2 ⟨htree, hnil⟩
      cases hnone.symm.trans husable
  obtain ⟨d, hd⟩ := List.exists_mem_of_ne_nil _ hne
  exact ⟨d, hd, isError_of_mem_read hd⟩

/-- A MAS file is accepted when its tokens are sound and derive sections, in one way only; the
tree is then made of these sections. -/
theorem usableTree?_ofMas_iff (file source : String) (m : MasFile) :
    (ofMas file source).usableTree? = some m ↔
      (Repaired.ofSource source).events = [] ∧
        ∃ sections, Strict.sections (Repaired.ofSource source).tokens sections ∧
          (∀ others, Strict.sections (Repaired.ofSource source).tokens others →
            others = sections) ∧
          m = Strict.fileOf sections := by
  refine (usableTree?_read_iff Grammar.realizes_masFile).trans (and_congr_right fun _ ↦ ?_)
  constructor
  · rintro ⟨sections, hsections, rfl⟩
    exact ⟨sections, hsections, fun _ hothers ↦ Grammar.sections_unique hothers hsections, rfl⟩
  · rintro ⟨sections, hsections, -, rfl⟩
    exact ⟨sections, hsections, rfl⟩

/-- A test script is accepted when its tokens are sound and derive it. -/
theorem usableTree?_ofScript_iff (file source : String) (t : TestScript) :
    (ofScript file source).usableTree? = some t ↔
      (Repaired.ofSource source).events = [] ∧
        Strict.testScript (Repaired.ofSource source).tokens t :=
  usableTree?_read_iff Grammar.realizes_testScript

end UnitTree

end MasCheck
