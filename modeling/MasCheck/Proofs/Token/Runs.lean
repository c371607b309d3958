import MasCheck.Proofs.Token.Lossless
import MasCheck.Token.Scanner
import Mathlib.Data.List.SplitBy

/-!
# Runs of tokens

The tokens of a source fall into runs: stray characters that touch each other belong to one run,
and every other token is a run of its own. The pieces of a source stand for its runs, one by one.
-/

namespace MasCheck

namespace Lexeme

def isUnclosed (l : Lexeme) : Bool :=
  l.token.isUnclosed

/-- The token as a scanner hands it out: an open text is closed, at the same place. -/
def closed (l : Lexeme) : Lexeme :=
  match l.token with
  | .unclosed quote text => ⟨.quoted quote text, l.span⟩
  | _ => l

/-- Stray characters of which the first ends where the second begins. -/
def touches (k l : Lexeme) : Bool :=
  k.isStray && l.isStray && k.span.stop = l.span.start

theorem isStray_iff {l : Lexeme} : l.isStray ↔ ∃ content, l.token = .stray content := by
  obtain ⟨t, span⟩ := l
  constructor
  · intro h
    cases t with
    | stray content => exact ⟨content, rfl⟩
    | _ => cases h
  · rintro ⟨content, rfl⟩
    rfl

theorem isUnclosed_iff {l : Lexeme} :
    l.isUnclosed ↔ ∃ quote content, l.token = .unclosed quote content := by
  obtain ⟨t, span⟩ := l
  constructor
  · intro h
    cases t with
    | unclosed quote content => exact ⟨quote, content, rfl⟩
    | _ => cases h
  · rintro ⟨quote, content, rfl⟩
    rfl

theorem isStray_closed (l : Lexeme) : l.closed.isStray = l.isStray := by
  obtain ⟨t, span⟩ := l
  cases t <;> rfl

theorem isUnclosed_closed (l : Lexeme) : l.closed.isUnclosed = false := by
  obtain ⟨t, span⟩ := l
  cases t <;> rfl

theorem closed_of_isUnclosed {l : Lexeme} (h : l.isUnclosed = false) : l.closed = l := by
  obtain ⟨t, span⟩ := l
  cases t with
  | unclosed => cases h
  | _ => rfl

theorem touches_eq_false {k : Lexeme} (hk : k.isStray = false) (l : Lexeme) :
    k.touches l = false := by
  simp [touches, hk]

end Lexeme

/-- The maximal runs of touching stray characters, and the other tokens one by one. -/
def runs (ls : List Lexeme) : List (List Lexeme) :=
  ls.splitBy Lexeme.touches

theorem flatten_runs (ls : List Lexeme) : (runs ls).flatten = ls :=
  List.flatten_splitBy _ ls

theorem runs_cons {l : Lexeme} (hl : l.isStray = false) (ls : List Lexeme) :
    runs (l :: ls) = [l] :: runs ls :=
  List.splitBy_append (l := [l]) fun k hk j _ ↦ by
    obtain rfl := Option.some.inj hk
    exact Lexeme.touches_eq_false hl j

/-- The tokens that are not stray. -/
def kept (ls : List Lexeme) : List Lexeme :=
  ls.filter fun l ↦ !l.isStray

@[simp] theorem kept_append (ks ls : List Lexeme) : kept (ks ++ ls) = kept ks ++ kept ls :=
  List.filter_append ..

theorem kept_eq_nil {ls : List Lexeme} (h : ∀ l ∈ ls, l.isStray) : kept ls = [] :=
  List.filter_eq_nil_iff.2 fun l hl ↦ by simp [h l hl]

theorem kept_cons {l : Lexeme} (h : l.isStray = false) (ls : List Lexeme) :
    kept (l :: ls) = l :: kept ls :=
  List.filter_cons_of_pos (by simp [h])

theorem isStray_of_mem_kept {l : Lexeme} {ls : List Lexeme} (h : l ∈ kept ls) :
    l.isStray = false := by
  simpa using List.of_mem_filter h

/-- What a scanner reports when it comes across a run. -/
inductive Tells (text : List Char) : List Lexeme → List RepairEvent → Prop
  | sound {l : Lexeme} (hstray : l.isStray = false) (hclosed : l.isUnclosed = false) :
      Tells text [l] []
  | unclosed (quote : Quote) (content : String) (span : Span) :
      Tells text [⟨.unclosed quote content, span⟩]
        [.unclosed quote content span, .closed quote span]
  | stray {run : List Lexeme} {taken : List Char} (hrun : run ≠ []) (hstray : ∀ l ∈ run, l.isStray)
      (htaken : Text.slice? (Lexeme.spanOf run).start (Lexeme.spanOf run).stop text = some taken) :
      Tells text run [.stray (String.ofList taken) (Lexeme.spanOf run)]

/-! ## Stray runs -/

section

open Scanner

theorem touches_iff {k l : Lexeme} (hk : k.isStray) :
    k.touches l = (l.isStray && l.span.start = k.span.stop) := by
  simp [Lexeme.touches, hk, eq_comm]

/-- A run is passed up to its last character, and what then stands there does not touch it. -/
theorem chain_passRun (ls : List Lexeme) {l : Lexeme} (hl : l.isStray) :
    ∃ more, ls = more ++ (passRun l.span.stop ls).2 ∧ (∀ k ∈ l :: more, k.isStray) ∧
      (l :: more).IsChain (fun j k ↦ j.touches k) ∧
      ∃ last, (l :: more).getLast? = some last ∧ last.span.stop = (passRun l.span.stop ls).1 ∧
        ∀ k ∈ (passRun l.span.stop ls).2.head?, last.touches k = false := by
  induction ls generalizing l with
  | nil => exact ⟨[], rfl, by simpa using hl, .singleton l, l, rfl, rfl, nofun⟩
  | cons k ls ih =>
    cases hk : l.touches k with
    | true =>
      have htouch := (touches_iff hl).symm.trans hk
      obtain ⟨more, hls, hstray, hchain, last, hlast, hstop, hbehind⟩ :=
        ih (Bool.and_eq_true_iff.1 htouch).1
      rw [passRun, if_pos htouch]
      exact ⟨k :: more, congrArg (k :: ·) hls, List.forall_mem_cons.2 ⟨hl, hstray⟩,
        .cons_cons hk hchain, last, by rw [List.getLast?_cons_cons, hlast], hstop, hbehind⟩
    | false =>
      have hapart := (touches_iff hl).symm.trans hk
      rw [passRun, if_neg (ne_true_of_eq_false hapart)]
      refine ⟨[], rfl, by simpa using hl, .singleton l, l, rfl, rfl, fun j hj ↦ ?_⟩
      rwa [← Option.some.inj hj]

/-- A run of stray characters is passed as a whole. -/
theorem runs_passRun {l : Lexeme} (hl : l.isStray) (ls : List Lexeme) :
    ∃ more, runs (l :: ls) = (l :: more) :: runs (passRun l.span.stop ls).2 ∧
      (∀ k ∈ l :: more, k.isStray) ∧
      Lexeme.spanOf (l :: more) = ⟨l.span.start, (passRun l.span.stop ls).1⟩ := by
  obtain ⟨more, hls, hstray, hchain, last, hlast, hstop, hbehind⟩ := chain_passRun ls hl
  refine ⟨more, ?_, hstray, ?_⟩
  · have hapart : ∀ j ∈ (l :: more).getLast?, ∀ k ∈ (passRun l.span.stop ls).2.head?,
        j.touches k = false := fun j hj ↦ Option.some.inj (hlast.symm.trans hj) ▸ hbehind
    have hsplit := List.splitBy_append hapart
    rw [List.splitBy_of_isChain (List.cons_ne_nil l more) hchain, List.cons_append, ← hls] at hsplit
    exact hsplit
  · have hgetLast := List.getLast_eq_iff_getLast?_eq_some (List.cons_ne_nil l more) |>.2 hlast
    rw [Lexeme.spanOf, hgetLast, hstop]

/-! ## Pieces -/

/-- A stray character is its part of the source. -/
def Spelled (text : List Char) (ls : List Lexeme) : Prop :=
  ∀ l ∈ ls, ∀ content, l.token = .stray content →
    Text.slice? l.span.start l.span.stop text = some content.toList

theorem spelled_lex (source : String) : Spelled source.toList (lex source) := by
  intro l hl content htoken
  obtain ⟨taken, htaken, -, hwritten⟩ := (isReadIn_lex hl).written
  rw [htoken] at hwritten
  exact htaken.trans (congrArg some hwritten.symm)

theorem pieces_of_stray {l : Lexeme} {content : String} (htoken : l.token = .stray content)
    (ls : List Lexeme) : pieces (l :: ls) = Piece.consStray content l.span (pieces ls) := by
  rw [pieces, htoken]

theorem pieces_of_unclosed {l : Lexeme} {quote : Quote} {content : String}
    (htoken : l.token = .unclosed quote content) (ls : List Lexeme) :
    pieces (l :: ls) = .closed quote content l.span :: pieces ls := by
  rw [pieces, htoken]

theorem pieces_of_sound {l : Lexeme} (hstray : l.isStray = false) (hclosed : l.isUnclosed = false)
    (ls : List Lexeme) : pieces (l :: ls) = .sound l :: pieces ls := by
  obtain ⟨t, span⟩ := l
  cases t with
  | unclosed => cases hclosed
  | stray => cases hstray
  | _ => rfl

theorem consStray_eq_cons (content : String) (span : Span) (ps : List Piece) :
    ∃ more run others, Piece.consStray content span ps = .stray more run :: others ∧
      run.start = span.start := by
  unfold Piece.consStray
  split
  · split
    · exact ⟨_, _, _, rfl, rfl⟩
    · exact ⟨_, _, _, rfl, rfl⟩
  · exact ⟨_, _, _, rfl, rfl⟩

/-- A stray character that does not touch what follows is a piece of its own. -/
theorem consStray_apart {content : String} {span : Span} {l : Lexeme} {ls : List Lexeme}
    (h : l.isStray → l.span.start ≠ span.stop) :
    Piece.consStray content span (pieces (l :: ls)) = .stray content span :: pieces (l :: ls) := by
  cases hstray : l.isStray with
  | true =>
    obtain ⟨other, htoken⟩ := Lexeme.isStray_iff.1 hstray
    obtain ⟨more, run, others, hcons, hrun⟩ := consStray_eq_cons other l.span (pieces ls)
    rw [pieces_of_stray htoken, hcons]
    exact if_neg (hrun ▸ h hstray)
  | false =>
    cases hclosed : l.isUnclosed with
    | true =>
      obtain ⟨quote, other, htoken⟩ := Lexeme.isUnclosed_iff.1 hclosed
      rw [pieces_of_unclosed htoken]
      rfl
    | false =>
      rw [pieces_of_sound hstray hclosed]
      rfl

/-- The stray characters of a run make up one piece, with the part of the source they stand for. -/
theorem pieces_passRun {text : List Char} {ls : List Lexeme} {l : Lexeme} {content : String}
    (hls : Spelled text (l :: ls)) (htoken : l.token = .stray content) :
    ∃ taken, Text.slice? l.span.start (passRun l.span.stop ls).1 text = some taken ∧
      pieces (l :: ls) = .stray (String.ofList taken) ⟨l.span.start, (passRun l.span.stop ls).1⟩ ::
        pieces (passRun l.span.stop ls).2 := by
  have hslice := hls l List.mem_cons_self content htoken
  rw [pieces_of_stray htoken]
  induction ls generalizing l content with
  | nil => exact ⟨_, hslice, by rw [String.ofList_toList]; rfl⟩
  | cons k ls ih =>
    have hrest : Spelled text (k :: ls) := fun j hj ↦ hls j (List.mem_cons_of_mem l hj)
    unfold passRun
    split
    · next htouch =>
      obtain ⟨hstray, hstart⟩ := by simpa using htouch
      obtain ⟨other, hother⟩ := Lexeme.isStray_iff.1 hstray
      have hnext := hrest k List.mem_cons_self other hother
      obtain ⟨taken, htaken, hpieces⟩ := ih hrest hother hnext
      refine ⟨content.toList ++ taken, Text.slice?_join hslice (hstart ▸ htaken), ?_⟩
      rw [pieces_of_stray hother, hpieces, String.ofList_append, String.ofList_toList]
      exact if_pos hstart
    · next hapart =>
      refine ⟨_, hslice, ?_⟩
      rw [String.ofList_toList]
      exact consStray_apart (by simpa using hapart)

/-- A piece passes on and reports what a scanner makes of the run. -/
structure Shows (text : List Char) (run : List Lexeme) (p : Piece) : Prop where
  lexeme : p.lexeme?.toList = (kept run).map Lexeme.closed
  tells : Tells text run p.events

theorem shows_pieces {text : List Char} (ls : List Lexeme) (hls : Spelled text ls) :
    List.Forall₂ (Shows text) (runs ls) (pieces ls) := by
  induction hn : ls.length using Nat.strongRecOn generalizing ls with
  | ind n ih =>
  cases ls with
  | nil => exact .nil
  | cons l ls =>
    have hrest : Spelled text ls := fun j hj ↦ hls j (List.mem_cons_of_mem l hj)
    have hshort : ls.length < n := by simp [← hn]
    cases hstray : l.isStray with
    | true =>
      obtain ⟨content, htoken⟩ := Lexeme.isStray_iff.1 hstray
      obtain ⟨taken, htaken, hpieces⟩ := pieces_passRun hls htoken
      obtain ⟨more, hruns, hmore, hspan⟩ := runs_passRun hstray ls
      rw [hruns, hpieces, ← hspan]
      refine .cons ⟨?_, ?_⟩ (ih _ ?_ _ ?_ rfl)
      · rw [kept_eq_nil hmore]; rfl
      · exact .stray (List.cons_ne_nil l more) hmore (hspan ▸ htaken)
      · exact (passRun_suffix l.span.stop ls).length_le.trans_lt hshort
      · exact fun j hj ↦ hrest j ((passRun_suffix l.span.stop ls).subset hj)
    | false =>
      rw [runs_cons hstray]
      cases hclosed : l.isUnclosed with
      | true =>
        obtain ⟨t, span⟩ := l
        obtain ⟨quote, content, rfl⟩ := Lexeme.isUnclosed_iff.1 hclosed
        rw [pieces_of_unclosed rfl]
        exact .cons ⟨rfl, .unclosed quote content span⟩ (ih _ hshort _ hrest rfl)
      | false =>
        rw [pieces_of_sound hstray hclosed]
        refine .cons ⟨?_, .sound hstray hclosed⟩ (ih _ hshort _ hrest rfl)
        rw [kept_cons hstray, List.map_cons, Lexeme.closed_of_isUnclosed hclosed]
        rfl

end

end MasCheck
