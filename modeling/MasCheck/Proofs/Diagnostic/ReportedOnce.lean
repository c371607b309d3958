import MasCheck.Proofs.Diagnostic.Collected
import MasCheck.Proofs.Diagnostic.Relayed
import MasCheck.Proofs.Lists.Chosen

/-!
# Problems are reported once

A collector may be told of open texts, of stray characters and of mismatches in any order and any
number of times. The first call about the open text at an offset makes a diagnostic, and so does
the first call about the mismatch at an offset, and every call about stray characters. Calls of
different sorts do not hinder each other.
-/

namespace MasCheck

inductive CollectorCall
  | notice (e : RepairEvent)
  | mismatch (m : Mismatch)
  deriving DecidableEq, Repr

/-- A problem that is reported once, however often a collector is told of it. -/
inductive Topic
  | literal (start : Nat)
  | mismatch (start : Nat)
  deriving DecidableEq, Repr

namespace CollectorCall

/-- The problem that a call is about. Stray characters are a new problem each time. -/
def topic? : CollectorCall → Option Topic
  | notice (.unclosed _ _ span) => some (.literal span.start)
  | notice (.closed _ span) => some (.literal span.start)
  | notice (.stray _ _) => none
  | mismatch m => some (.mismatch m.span.start)

/-- What a call has to say: the diagnostic that it makes if its problem is new. -/
def diagnostic (map : SourceMap) (root : Rule) : CollectorCall → Diagnostic
  | notice (.unclosed quote text span) =>
    map.diagnostic (Collector.unclosedKind quote) [text] span
  | notice (.closed quote span) =>
    map.diagnostic (Collector.unclosedKind quote)
      [(Collector.start map root).sourceText span] span
  | notice (.stray text span) => map.diagnostic .unrecognizedInput [text] span
  | mismatch m => Collector.mismatchDiagnostic map root m

def isMismatch : CollectorCall → Bool
  | notice _ => false
  | mismatch _ => true

end CollectorCall

/-! ## One call -/

namespace Collector

open CollectorCall (topic?)

variable {c : Collector} {x : CollectorCall} {map : SourceMap} {root : Rule}
  {calls : List CollectorCall}

def call (c : Collector) : CollectorCall → Collector
  | .notice e => c.notice e
  | .mismatch m => c.mismatch m

/-- The problem is reported already. -/
def Knows (c : Collector) : Topic → Prop
  | .literal start => start ∈ c.literalStarts
  | .mismatch start => start ∈ c.mismatchStarts

/-- The second collector has what the first has, and what the call says about its new problem. -/
structure Adds (c : Collector) (x : CollectorCall) (c' : Collector) : Prop where
  isNew : ∀ t ∈ x.topic?, ¬ c.Knows t
  map_eq : c'.map = c.map
  root_eq : c'.root = c.root
  diagnostics_eq : c'.diagnostics = c.diagnostics ++ [x.diagnostic c.map c.root]
  knows_iff : ∀ t, c'.Knows t ↔ c.Knows t ∨ x.topic? = some t

/-- Open texts are told by findings and by marks, which differ in where the text is from. -/
theorem literal_cases {quote : Quote} {text : String} {span : Span}
    (htopic : x.topic? = some (.literal span.start))
    (htells : x.diagnostic c.map c.root = c.map.diagnostic (unclosedKind quote) [text] span) :
    (∃ t, x.topic? = some t ∧ c.Knows t ∧ c.literal quote text span = c) ∨
      c.Adds x (c.literal quote text span) := by
  by_cases hknown : span.start ∈ c.literalStarts
  · exact .inl ⟨_, htopic, hknown, literal_of_known hknown⟩
  · rw [literal_of_new hknown]
    refine .inr ⟨?_, rfl, rfl, by rw [htells]; rfl, ?_⟩
    · intro t ht
      obtain rfl := Option.some.inj (htopic.symm.trans ht)
      exact hknown
    · rintro (start | start)
      · simp [htopic, Knows, or_comm, eq_comm]
      · simp [htopic, Knows, push]

theorem call_cases (c : Collector) (x : CollectorCall) :
    (∃ t, x.topic? = some t ∧ c.Knows t ∧ c.call x = c) ∨ c.Adds x (c.call x) := by
  cases x with
  | notice e =>
    cases e with
    | unclosed quote text span => exact literal_cases rfl rfl
    | closed quote span => exact literal_cases rfl rfl
    | stray text span =>
      refine .inr ⟨nofun, rfl, rfl, rfl, fun t ↦ ?_⟩
      cases t <;> simp [topic?, call, notice, push, Knows]
  | mismatch m =>
    have hcall : c.call (.mismatch m) = c.mismatch m := rfl
    rw [hcall]
    by_cases hknown : m.span.start ∈ c.mismatchStarts
    · exact .inl ⟨_, rfl, hknown, mismatch_of_known hknown⟩
    · rw [mismatch_of_new hknown]
      refine .inr ⟨?_, rfl, rfl, rfl, ?_⟩
      · intro t ht
        obtain rfl := Option.some.inj ht
        exact hknown
      · rintro (start | start)
        · simp [topic?, Knows, push]
        · simp [topic?, Knows, or_comm, eq_comm]

/-! ## Calls in any order -/

variable (map root calls) in
/-- What a collector is like after calls. -/
structure HasReported (c : Collector) : Prop where
  map_eq : c.map = map
  root_eq : c.root = root
  diagnostics_eq : c.diagnostics = (leading topic? calls).map (CollectorCall.diagnostic map root)
  knows_iff : ∀ t, c.Knows t ↔ t ∈ calls.filterMap topic?

theorem HasReported.call (h : c.HasReported map root calls) (x : CollectorCall) :
    (c.call x).HasReported map root (calls ++ [x]) := by
  obtain ⟨hmap, hroot, hdiagnostics, hknows⟩ := h
  rcases c.call_cases x with ⟨t, htopic, hknown, hsame⟩ | ⟨hnew, hmap', hroot', hadded, hknows'⟩
  · have hold : ¬ ∀ t ∈ x.topic?, t ∉ calls.filterMap topic? :=
      fun hnew ↦ hnew t htopic ((hknows t).1 hknown)
    rw [hsame]
    refine ⟨hmap, hroot, ?_, fun u ↦ ?_⟩
    · rw [leading_concat, if_neg hold, List.append_nil, hdiagnostics]
    · rw [hknows, List.filterMap_append, List.mem_append]
      refine ⟨.inl, fun hu ↦ hu.elim id fun hu ↦ ?_⟩
      have hut : u = t := by simpa [htopic, eq_comm] using hu
      rw [hut]
      exact (hknows t).1 hknown
  · have hfree : ∀ t ∈ x.topic?, t ∉ calls.filterMap topic? :=
      fun t ht hlisted ↦ hnew t ht ((hknows t).2 hlisted)
    refine ⟨hmap'.trans hmap, hroot'.trans hroot, ?_, fun u ↦ ?_⟩
    · rw [leading_concat, if_pos hfree, List.map_append, hadded, hdiagnostics, hmap, hroot]
      rfl
    · rw [hknows', hknows, List.filterMap_append, List.mem_append]
      simp [List.mem_filterMap]

theorem hasReported_calls (map : SourceMap) (root : Rule) (calls : List CollectorCall) :
    (calls.foldl call (start map root)).HasReported map root calls := by
  induction calls using List.reverseRecOn with
  | nil =>
    refine ⟨rfl, rfl, rfl, fun t ↦ ?_⟩
    cases t <;> simp [Knows, start]
  | append_singleton calls x ih =>
    rw [List.foldl_append]
    exact ih.call x

/-- What is reported after calls from the start. -/
def reports (map : SourceMap) (root : Rule) (calls : List CollectorCall) : List Diagnostic :=
  (calls.foldl call (start map root)).diagnostics

theorem reports_eq (map : SourceMap) (root : Rule) (calls : List CollectorCall) :
    reports map root calls = (leading topic? calls).map (CollectorCall.diagnostic map root) :=
  (hasReported_calls map root calls).diagnostics_eq

end Collector

namespace Relay

variable {σ : Type}

def call (receive : σ → Diagnostic → σ) (r : Relay σ) : CollectorCall → Relay σ
  | .notice e => r.notice receive e
  | .mismatch m => r.mismatch receive m

end Relay

namespace Collector

variable {σ : Type} (receive : σ → Diagnostic → σ) (receiver : σ)

theorem relayed_call (c : Collector) (x : CollectorCall) :
    (c.call x).relayed receive receiver = (c.relayed receive receiver).call receive x := by
  cases x with
  | notice e => exact relayed_notice receive receiver c e
  | mismatch m => exact relayed_mismatch receive receiver c m

theorem relayed_calls (calls : List CollectorCall) (c : Collector) :
    (calls.foldl call c).relayed receive receiver =
      calls.foldl (Relay.call receive) (c.relayed receive receiver) := by
  induction calls generalizing c with
  | nil => rfl
  | cons x calls ih => rw [List.foldl_cons, List.foldl_cons, ih, relayed_call]

end Collector

/-! ## What a diagnostic is about -/

namespace Kind

def isUnclosed : Kind → Bool
  | unclosedDouble | unclosedSingle => true
  | _ => false

theorem isUnclosed_of_isMismatch {k : Kind} (h : k.isMismatch) : k.isUnclosed = false := by
  cases k <;> first | rfl | cases h

end Kind

namespace Diagnostic

def startsAt (start : Nat) (d : Diagnostic) : Bool :=
  d.position.span.any fun span ↦ span.start = start

/-- The diagnostic reports the problem. -/
def isAbout : Topic → Diagnostic → Bool
  | .literal start, d => d.kind.isUnclosed && d.startsAt start
  | .mismatch start, d => d.kind.isMismatch && d.startsAt start

end Diagnostic

namespace CollectorCall

variable (map : SourceMap) (root : Rule) (x : CollectorCall)

theorem isAbout_diagnostic (t : Topic) :
    (x.diagnostic map root).isAbout t = true ↔ x.topic? = some t := by
  have hunclosed : ∀ (quote : Quote) (text : String) (span : Span),
      (map.diagnostic (Collector.unclosedKind quote) [text] span).isAbout t = true ↔
        some (Topic.literal span.start) = some t := by
    intro quote text span
    cases quote <;> cases t <;>
      simp [Diagnostic.isAbout, Diagnostic.startsAt, SourceMap.diagnostic, Diagnostic.of,
        Diagnostic.ofCatalog, SourceMap.position, Collector.unclosedKind, Kind.isUnclosed,
        Kind.isMismatch]
  cases x with
  | notice e =>
    cases e with
    | unclosed quote text span => exact hunclosed quote text span
    | closed quote span => exact hunclosed quote _ span
    | stray text span => cases t <;> exact iff_of_false nofun nofun
  | mismatch m =>
    have hkind : (Collector.mismatchDiagnostic map root m).kind.isMismatch :=
      Collector.isMismatch_finding root m
    have hstart : ∀ start, (Collector.mismatchDiagnostic map root m).startsAt start =
        decide (m.span.start = start) := fun _ ↦ rfl
    rw [diagnostic, topic?]
    cases t with
    | literal start => simp [Diagnostic.isAbout, Kind.isUnclosed_of_isMismatch hkind]
    | mismatch start => simp [Diagnostic.isAbout, hkind, hstart]

theorem isMismatch_diagnostic : (x.diagnostic map root).kind.isMismatch = x.isMismatch := by
  cases x with
  | notice e =>
    cases e with
    | unclosed quote text span => cases quote <;> rfl
    | closed quote span => cases quote <;> rfl
    | stray text span => rfl
  | mismatch m => exact Collector.isMismatch_finding root m

theorem isStray_diagnostic :
    (x.diagnostic map root).kind = .unrecognizedInput ↔ x.topic? = none := by
  cases x with
  | notice e =>
    cases e with
    | unclosed quote text span => cases quote <;> exact iff_of_false nofun nofun
    | closed quote span => cases quote <;> exact iff_of_false nofun nofun
    | stray text span => exact iff_of_true rfl rfl
  | mismatch m =>
    refine iff_of_false (fun hkind ↦ ?_) nofun
    have hmismatch := Collector.isMismatch_finding root m
    have hstray : (m.finding root).1 = .unrecognizedInput := hkind
    rw [hstray] at hmismatch
    cases hmismatch

theorem isError_diagnostic : (x.diagnostic map root).isError := by
  cases x with
  | notice e =>
    cases e with
    | unclosed quote text span => cases quote <;> rfl
    | closed quote span => cases quote <;> rfl
    | stray text span => rfl
  | mismatch m => exact decide_eq_true (Collector.severity_finding root m)

end CollectorCall

/-! ## Reports -/

namespace Collector

open CollectorCall (topic?)

variable (map : SourceMap) (root : Rule) (calls : List CollectorCall)

/-- Whatever a collector is told, each problem makes one diagnostic. -/
structure ReportsOnce : Prop where
  /-- A receiver is handed the diagnostics one by one. They are counted, and all are errors. -/
  handed : ∀ {σ : Type} (receive : σ → Diagnostic → σ) (receiver : σ),
    let r := calls.foldl (Relay.call receive) (.start map root receiver)
    r.receiver = (reports map root calls).foldl receive receiver ∧
      r.reported = (reports map root calls).length ∧ (r.hasErrors = true ↔ 0 < r.reported)
  appended : ∀ more, reports map root calls <+: reports map root (calls ++ more)
  /-- In the order of the calls, those that are the first about their problem are heard. -/
  ordered : reports map root calls =
    (leading topic? calls).map (CollectorCall.diagnostic map root)
  /-- About a problem there is what the first call about it has to say, and nothing else. -/
  once : ∀ t, (reports map root calls).filter (Diagnostic.isAbout t) =
    ((calls.find? fun x ↦ x.topic? = some t).map (CollectorCall.diagnostic map root)).toList
  /-- Of stray characters there is what all the calls about them have to say. -/
  stray : ((reports map root calls).filter fun d ↦ d.kind = .unrecognizedInput) =
    (calls.filter fun x ↦ x.topic? = none).map (CollectorCall.diagnostic map root)
  /-- What is said about tokens does not depend on the mismatches, nor these on the tokens. -/
  tokens : ((reports map root calls).filter fun d ↦ !d.kind.isMismatch) =
    reports map root (calls.filter fun x ↦ !x.isMismatch)
  mismatches : ((reports map root calls).filter fun d ↦ d.kind.isMismatch) =
    reports map root (calls.filter fun x ↦ x.isMismatch)

variable {map root calls}

theorem filter_reports {p : Diagnostic → Bool} {q : CollectorCall → Bool}
    (h : ∀ x, p (x.diagnostic map root) = q x) :
    (reports map root calls).filter p =
      ((leading topic? calls).filter q).map (CollectorCall.diagnostic map root) := by
  rw [reports_eq, List.filter_map]
  congr 1
  exact List.filter_congr fun x _ ↦ h x

theorem handed_calls {σ : Type} (receive : σ → Diagnostic → σ) (receiver : σ) :
    calls.foldl (Relay.call receive) (.start map root receiver) =
      (calls.foldl call (start map root)).relayed receive receiver :=
  (relayed_calls receive receiver calls (start map root)).symm

theorem hasErrors_calls :
    (calls.foldl call (start map root)).hasErrors = true ↔
      0 < (reports map root calls).length := by
  unfold hasErrors
  rw [List.any_eq_true, List.length_pos_iff_exists_mem]
  refine exists_congr fun d ↦ and_iff_left_of_imp fun hd ↦ ?_
  have hmem : d ∈ reports map root calls := hd
  rw [reports_eq] at hmem
  obtain ⟨x, -, rfl⟩ := List.mem_map.1 hmem
  exact x.isError_diagnostic map root

theorem isMismatch_eq_of_topic? {x y : CollectorCall} (h : topic? x = topic? y) :
    x.isMismatch = y.isMismatch := by
  rcases x with (_ | _ | _) | _ <;> rcases y with (_ | _ | _) | _ <;> first | rfl | cases h

/-- Every problem that a collector is told of is reported once. -/
theorem reportsOnce (map : SourceMap) (root : Rule) (calls : List CollectorCall) :
    ReportsOnce map root calls where
  handed receive receiver := by
    dsimp only
    rw [handed_calls, hasErrors_relayed, hasErrors_calls]
    exact ⟨rfl, rfl, Iff.rfl⟩
  appended more := by
    rw [reports_eq, reports_eq]
    exact (prefix_leading topic? calls more).map _
  ordered := reports_eq map root calls
  once t := by
    rw [filter_reports (q := fun x ↦ x.topic? = some t), filter_leading, Option.toList_map]
    intro x
    rw [Bool.eq_iff_iff, x.isAbout_diagnostic, decide_eq_true_iff]
  stray := by
    rw [filter_reports (q := fun x ↦ x.topic? = none), filter_leading_of_keyless]
    · exact fun x hx ↦ of_decide_eq_true hx
    · exact fun x ↦ decide_eq_decide.2 (x.isStray_diagnostic map root)
  tokens := by
    rw [filter_reports (q := fun x ↦ !x.isMismatch), filter_leading_eq, reports_eq]
    · exact fun x y h ↦ congrArg Bool.not (isMismatch_eq_of_topic? h)
    · exact fun x ↦ congrArg Bool.not (x.isMismatch_diagnostic map root)
  mismatches := by
    rw [filter_reports (q := CollectorCall.isMismatch), filter_leading_eq, reports_eq]
    · exact fun x y h ↦ isMismatch_eq_of_topic? h
    · exact fun x ↦ x.isMismatch_diagnostic map root

end Collector

end MasCheck
