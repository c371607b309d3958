import MasCheck.Proofs.Token.Runs

/-!
# What a scanner hands out and reports

A scanner goes through the pieces of its source in order. Pulling `n` tokens takes it behind the
piece of the `n`-th token, and it reports the pieces on the way. In terms of the tokens as they
were read: it hands out the first `n` that are not stray, and each run up to there has told what
there is to tell about it.
-/

namespace MasCheck

namespace Scanner

/-! ## Steps -/

/-- From `s` to `t` a scanner goes through the pieces `met` and reports them. -/
structure Passes (s : Scanner) (met : List Piece) (t : Scanner) : Prop where
  source : t.source = s.source
  suffix : t.raw <:+ s.raw
  pieces : pieces s.raw = met ++ pieces t.raw
  events : t.events = s.events ++ (Repaired.ofPieces met).events
  closed : t.closed = s.closed + (Repaired.ofPieces met).closedCount

variable {s t u : Scanner} {met more : List Piece}

theorem Passes.refl (s : Scanner) : Passes s [] s :=
  ⟨rfl, List.suffix_rfl, rfl, (List.append_nil _).symm, rfl⟩

theorem Passes.trans (h : Passes s met t) (g : Passes t more u) : Passes s (met ++ more) u where
  source := g.source.trans h.source
  suffix := g.suffix.trans h.suffix
  pieces := by rw [h.pieces, g.pieces, List.append_assoc]
  events := by rw [g.events, h.events]; simp [Repaired.ofPieces]
  closed := by
    rw [g.closed, h.closed]
    simp [Repaired.ofPieces, Repaired.closedCount, Nat.add_assoc]

/-- The stray characters that a scanner still has are spelled as its source has them. -/
def Readable (s : Scanner) : Prop :=
  Spelled s.source s.raw

theorem Passes.readable (h : Passes s met t) (hs : s.Readable) : t.Readable := by
  intro l hl content htoken
  rw [h.source]
  exact hs l (h.suffix.subset hl) content htoken

section

variable {l : Lexeme} {ls : List Lexeme}

theorem passes_sound (hraw : s.raw = l :: ls) (hstray : l.isStray = false)
    (hclosed : l.isUnclosed = false) : s.Passes [.sound l] { s with raw := ls } where
  source := rfl
  suffix := hraw ▸ List.suffix_cons l ls
  pieces := by rw [hraw, pieces_of_sound hstray hclosed]; rfl
  events := (List.append_nil _).symm
  closed := rfl

theorem passes_close {quote : Quote} {content : String} (hraw : s.raw = l :: ls)
    (htoken : l.token = .unclosed quote content) :
    s.Passes [.closed quote content l.span] ({ s with raw := ls }.close quote content l.span) where
  source := rfl
  suffix := hraw ▸ List.suffix_cons l ls
  pieces := by rw [hraw, pieces_of_unclosed htoken]; rfl
  events := rfl
  closed := rfl

theorem passes_reject {content : String} (hraw : s.raw = l :: ls)
    (htoken : l.token = .stray content) (hs : s.Readable) :
    ∃ text, s.Passes [.stray text ⟨l.span.start, (passRun l.span.stop ls).1⟩]
      ({ s with raw := (passRun l.span.stop ls).2 }.reject
        ⟨l.span.start, (passRun l.span.stop ls).1⟩) := by
  have hspelled : Spelled s.source (l :: ls) := hraw ▸ hs
  obtain ⟨taken, htaken, hpieces⟩ := pieces_passRun hspelled htoken
  refine ⟨String.ofList taken, rfl, ?_, by rw [hraw, hpieces]; rfl, ?_, rfl⟩
  · exact hraw ▸ (passRun_suffix l.span.stop ls).trans (List.suffix_cons l ls)
  · simp [reject, htaken, Repaired.ofPieces, Piece.events]

end

/-- On the way to a token, or to the end when there is none, a scanner meets stray pieces only. -/
inductive Advances (s : Scanner) : Option Lexeme → Scanner → Prop
  | finish {strays : List Piece} {t : Scanner} (hpass : s.Passes strays t)
      (hstrays : ∀ p ∈ strays, p.lexeme? = none) (hraw : t.raw = []) : Advances s none t
  | token {strays : List Piece} {p : Piece} {l : Lexeme} {t : Scanner}
      (hpass : s.Passes (strays ++ [p]) t) (hstrays : ∀ p ∈ strays, p.lexeme? = none)
      (hp : p.lexeme? = some l) : Advances s (some l) t

theorem Advances.now {p : Piece} {l : Lexeme} (hpass : s.Passes [p] t) (hp : p.lexeme? = some l) :
    s.Advances (some l) t :=
  @token s [] p l t hpass nofun hp

theorem Advances.behind {p : Piece} {pulled : Option Lexeme} (hpass : s.Passes [p] t)
    (hp : p.lexeme? = none) (h : t.Advances pulled u) : s.Advances pulled u := by
  cases h with
  | finish hrest hstrays hraw =>
    exact .finish (hpass.trans hrest) (List.forall_mem_cons.2 ⟨hp, hstrays⟩) hraw
  | @token strays q _ _ hrest hstrays hlast =>
    have hwhole : s.Passes (p :: strays ++ [q]) u := hpass.trans hrest
    exact .token hwhole (List.forall_mem_cons.2 ⟨hp, hstrays⟩) hlast

theorem advances_next (hs : s.Readable) : s.Advances s.next.1 s.next.2 := by
  fun_induction next s with
  | case1 s hraw => exact .finish (.refl s) nofun hraw
  | case2 s l ls hraw quote content htoken => exact .now (passes_close hraw htoken) rfl
  | case3 s l ls hraw content htoken run ih =>
    obtain ⟨text, hpass⟩ := passes_reject hraw htoken hs
    exact .behind hpass rfl (ih (hpass.readable hs))
  | case4 s l ls hraw hnotUnclosed hnotStray =>
    have hstray : l.isStray = false := by
      rw [Bool.eq_false_iff, Ne, Lexeme.isStray_iff]
      exact fun ⟨content, htoken⟩ ↦ hnotStray content htoken
    have hclosed : l.isUnclosed = false := by
      rw [Bool.eq_false_iff, Ne, Lexeme.isUnclosed_iff]
      exact fun ⟨quote, content, htoken⟩ ↦ hnotUnclosed quote content htoken
    exact .now (passes_sound hraw hstray hclosed) rfl

/-! ## Pulling tokens -/

theorem firstPieces_strays {strays : List Piece} (h : ∀ p ∈ strays, p.lexeme? = none) (n : Nat)
    (ps : List Piece) : firstPieces (n + 1) (strays ++ ps) = strays ++ firstPieces (n + 1) ps := by
  induction strays with
  | nil => rfl
  | cons p strays ih =>
    obtain ⟨hp, hstrays⟩ := List.forall_mem_cons.1 h
    rw [List.cons_append, firstPieces, hp, if_neg nofun, ih hstrays, List.cons_append]

theorem passes_pull (n : Nat) (hs : s.Readable) :
    s.Passes (firstPieces n (pieces s.raw)) (s.pull n).2 ∧
      (s.pull n).1 = (firstPieces n (pieces s.raw)).filterMap Piece.lexeme? := by
  fun_induction pull n s with
  | case1 s =>
    rw [firstPieces]
    exact ⟨.refl s, rfl⟩
  | case2 n s t hnext =>
    have hnone := advances_next hs
    rw [hnext] at hnone
    cases hnone with
    | @finish strays _ hpass hstrays hraw =>
      have hmet : firstPieces (n + 1) (pieces s.raw) = strays := by
        rw [hpass.pieces, hraw, firstPieces_strays hstrays]
        exact List.append_nil strays
      rw [hmet]
      exact ⟨hpass, (List.filterMap_eq_nil_iff.2 hstrays).symm⟩
  | case3 n s k t hnext ih =>
    have hsome := advances_next hs
    rw [hnext] at hsome
    cases hsome with
    | @token strays p _ _ hpass hstrays hp =>
      obtain ⟨hrest, htokens⟩ := ih (hpass.readable hs)
      have hmet : firstPieces (n + 1) (pieces s.raw) =
          strays ++ [p] ++ firstPieces n (pieces t.raw) := by
        rw [hpass.pieces, List.append_assoc, List.append_assoc, firstPieces_strays hstrays,
          List.singleton_append, firstPieces, hp]
        rfl
      rw [hmet]
      refine ⟨hpass.trans hrest, ?_⟩
      simp [htokens, List.filterMap_append, List.filterMap_eq_nil_iff.2 hstrays, hp]

/-- Pulling tokens one at a time repairs the source as far as these tokens reach. -/
theorem pull_start (source : String) (n : Nat) :
    ((start source).pull n).1 = (Repaired.first n source).tokens ∧
      ((start source).pull n).2.events = (Repaired.first n source).events ∧
      ((start source).pull n).2.closed = (Repaired.first n source).closedCount := by
  have hstart : (start source).Readable := spelled_lex source
  obtain ⟨hpass, htokens⟩ := passes_pull n hstart
  exact ⟨htokens, hpass.events, hpass.closed.trans (Nat.zero_add _)⟩

/-! ## In terms of runs -/

/-- The runs met while `n` tokens are pulled: up to the last of them, or all the runs when there
are fewer tokens. -/
def Reaches (n : Nat) (met unmet : List (List Lexeme)) : Prop :=
  ((kept met.flatten).length = n ∧ ∀ run ∈ met.getLast?, ∀ l ∈ run, l.isStray = false) ∨
    ((kept met.flatten).length < n ∧ unmet = [])

theorem Reaches.cons_stray {n : Nat} {run : List Lexeme} {met unmet : List (List Lexeme)}
    (hrun : kept run = []) (h : Reaches (n + 1) met unmet) :
    Reaches (n + 1) (run :: met) unmet := by
  unfold Reaches
  rw [List.flatten_cons, kept_append, hrun, List.nil_append]
  refine h.imp_left fun ⟨hn, hlast⟩ ↦ ⟨hn, ?_⟩
  cases met with
  | nil => cases hn
  | cons next met => rwa [List.getLast?_cons_cons]

theorem Reaches.cons_token {n : Nat} {l : Lexeme} {met unmet : List (List Lexeme)}
    (hl : l.isStray = false) (h : Reaches n met unmet) : Reaches (n + 1) ([l] :: met) unmet := by
  unfold Reaches
  rw [List.flatten_cons, List.singleton_append, kept_cons hl, List.length_cons]
  refine h.imp (fun ⟨hn, hlast⟩ ↦ ⟨congrArg (· + 1) hn, ?_⟩) fun ⟨hn, hunmet⟩ ↦ ⟨by omega, hunmet⟩
  cases met with
  | nil => simpa using hl
  | cons next met => rwa [List.getLast?_cons_cons]

section

variable {text : List Char} {run : List Lexeme} {p : Piece} {l : Lexeme}

theorem eq_singleton_of_shows (h : Shows text run p) (hp : p.lexeme? = some l) :
    ∃ k, run = [k] ∧ k.isStray = false := by
  obtain ⟨hlexeme, htells⟩ := h
  generalize p.events = events at htells
  cases htells with
  | sound hstray hclosed => exact ⟨_, rfl, hstray⟩
  | unclosed quote content span => exact ⟨_, rfl, rfl⟩
  | stray hrun hstray htaken =>
    rw [hp, kept_eq_nil hstray] at hlexeme
    cases hlexeme

theorem kept_of_shows (h : Shows text run p) (hp : p.lexeme? = none) : kept run = [] := by
  have hlexeme := h.lexeme
  rw [hp] at hlexeme
  exact List.map_eq_nil_iff.1 hlexeme.symm

theorem reaches_firstPieces {rs : List (List Lexeme)} {ps : List Piece}
    (h : List.Forall₂ (Shows text) rs ps) (n : Nat) :
    ∃ met unmet, rs = met ++ unmet ∧ Reaches n met unmet ∧
      List.Forall₂ (Shows text) met (firstPieces n ps) := by
  fun_induction firstPieces n ps generalizing rs with
  | case1 => exact ⟨[], rs, rfl, .inl ⟨rfl, nofun⟩, .nil⟩
  | case2 n =>
    cases h
    exact ⟨[], [], rfl, .inr ⟨n.succ_pos, rfl⟩, .nil⟩
  | case3 n p ps ih =>
    cases h with
    | @cons run _ rs _ hrun hrest =>
      obtain ⟨met, unmet, rfl, hreaches, hmet⟩ := ih hrest
      refine ⟨run :: met, unmet, rfl, ?_, .cons hrun hmet⟩
      cases hp : p.lexeme? with
      | none =>
        rw [hp] at hreaches
        exact .cons_stray (kept_of_shows hrun hp) hreaches
      | some l =>
        rw [hp] at hreaches
        obtain ⟨k, rfl, hk⟩ := eq_singleton_of_shows hrun hp
        exact .cons_token hk hreaches

/-- What pieces pass on is what is kept of the runs, with the open texts closed. -/
theorem filterMap_of_shows {rs : List (List Lexeme)} {ps : List Piece}
    (h : List.Forall₂ (Shows text) rs ps) :
    ps.filterMap Piece.lexeme? = (kept rs.flatten).map Lexeme.closed := by
  induction h with
  | nil => rfl
  | @cons run p rs ps hrun hrest ih =>
    have hhead : (p :: ps).filterMap Piece.lexeme? =
        p.lexeme?.toList ++ ps.filterMap Piece.lexeme? := by
      cases hp : p.lexeme? <;> simp [hp]
    rw [hhead, ih, hrun.lexeme, List.flatten_cons, kept_append, List.map_append]

theorem tells_of_shows {rs : List (List Lexeme)} {ps : List Piece}
    (h : List.Forall₂ (Shows text) rs ps) :
    List.Forall₂ (Tells text) rs (ps.map Piece.events) :=
  List.forall₂_map_right_iff.2 (h.imp fun _ _ hshows ↦ hshows.tells)

/-- Each open text is marked as closed once. -/
theorem closedCount_of_shows (h : Shows text run p) :
    (Repaired.ofPieces [p]).closedCount = (kept run).countP Lexeme.isUnclosed := by
  have htells := h.tells
  simp only [Repaired.closedCount, Repaired.ofPieces, List.flatMap_singleton]
  generalize p.events = events at htells
  cases htells with
  | sound hstray hclosed => simp [kept, hstray, hclosed]
  | unclosed quote content span => rfl
  | stray hrun hstray htaken => simp [kept_eq_nil hstray]

theorem closedCount_of_forall₂ {rs : List (List Lexeme)} {ps : List Piece}
    (h : List.Forall₂ (Shows text) rs ps) :
    (Repaired.ofPieces ps).closedCount = (kept rs.flatten).countP Lexeme.isUnclosed := by
  induction h with
  | nil => rfl
  | @cons run p rs ps hrun hrest ih =>
    have hhead : (Repaired.ofPieces (p :: ps)).closedCount =
        (Repaired.ofPieces [p]).closedCount + (Repaired.ofPieces ps).closedCount := by
      simp [Repaired.closedCount, Repaired.ofPieces]
    rw [hhead, ih, closedCount_of_shows hrun, List.flatten_cons, kept_append, List.countP_append]

end

/-- `n` tokens were pulled from a source: the tokens handed out are the first `n` of its tokens that
are not stray, with the open texts closed, and the events are what the runs up to there tell. -/
structure Faithful (source : String) (n : Nat) (pulled : List Lexeme) (s : Scanner) : Prop where
  pulled_eq : pulled = ((kept (lex source)).take n).map Lexeme.closed
  sound : ∀ l ∈ pulled, l.isStray = false ∧ l.isUnclosed = false
  events : ∃ met unmet told, runs (lex source) = met ++ unmet ∧ Reaches n met unmet ∧
    List.Forall₂ (Tells source.toList) met told ∧ s.events = told.flatten
  closed_eq : s.closed = ((kept (lex source)).take n).countP Lexeme.isUnclosed

theorem faithful_pull (source : String) (n : Nat) :
    Faithful source n ((start source).pull n).1 ((start source).pull n).2 := by
  obtain ⟨htokens, hevents, hclosed⟩ := pull_start source n
  have hshows := shows_pieces (lex source) (spelled_lex source)
  obtain ⟨met, unmet, hruns, hreaches, hmet⟩ := reaches_firstPieces hshows n
  have hpulled : ((start source).pull n).1 = (kept met.flatten).map Lexeme.closed :=
    htokens.trans (filterMap_of_shows hmet)
  have hkept : (kept (lex source)).take n = kept met.flatten := by
    rw [← flatten_runs (lex source), hruns, List.flatten_append, kept_append]
    rcases hreaches with ⟨hn, -⟩ | ⟨hn, rfl⟩
    · exact List.take_left' hn
    · exact (List.take_of_length_le (by simpa [kept] using hn.le)).trans (List.append_nil _)
  refine ⟨hkept ▸ hpulled, ?_, ⟨met, unmet, _, hruns, hreaches, tells_of_shows hmet, ?_⟩, ?_⟩
  · rw [hpulled]
    intro l hl
    obtain ⟨k, hk, rfl⟩ := List.mem_map.1 hl
    exact ⟨k.isStray_closed.trans (isStray_of_mem_kept hk), k.isUnclosed_closed⟩
  · exact hevents.trans (List.flatMap_def ..)
  · rw [hkept, hclosed]
    exact closedCount_of_forall₂ hmet

end Scanner

end MasCheck
