import MasCheck.Grammar.Delivery
import MasCheck.Proofs.Grammar.Acceptance

/-!
# What a receiver is handed

A relay does what a collector does, so that a receiver is handed the diagnostics of the collected
unit, one by one and in their order.
-/

namespace MasCheck

namespace Collector

variable {σ : Type} (receive : σ → Diagnostic → σ) (receiver : σ)

/-- The relay that has handed on what the collector holds. -/
def relayed (c : Collector) : Relay σ :=
  { map := c.map
    root := c.root
    receiver := c.diagnostics.foldl receive receiver
    reported := c.diagnostics.length
    errors := c.diagnostics.countP Diagnostic.isError
    literalStarts := c.literalStarts
    mismatchStarts := c.mismatchStarts }

theorem hasErrors_relayed (c : Collector) :
    (c.relayed receive receiver).hasErrors = c.hasErrors := by
  unfold Relay.hasErrors hasErrors
  rw [Bool.eq_iff_iff, decide_eq_true_iff, List.any_eq_true]
  exact List.countP_pos_iff

theorem relayed_push (c : Collector) (kind : Kind) (args : List String) (span : Span) :
    (c.push kind args span).relayed receive receiver =
      (c.relayed receive receiver).push receive kind args span := by
  simp only [relayed, push, Relay.push, List.foldl_append, List.foldl_cons, List.foldl_nil,
    List.length_append, List.length_cons, List.length_nil, List.countP_append, List.countP_cons,
    List.countP_nil]
  split <;> simp [*]

theorem relayed_literal (c : Collector) (quote : Quote) (text : String) (span : Span) :
    (c.literal quote text span).relayed receive receiver =
      (c.relayed receive receiver).literal receive quote text span := by
  have hstarts : (c.relayed receive receiver).literalStarts = c.literalStarts := rfl
  unfold literal Relay.literal
  rw [hstarts]
  by_cases h : span.start ∈ c.literalStarts
  · rw [if_pos h, if_pos h]
  · rw [if_neg h, if_neg h, ← relayed_push]
    rfl

theorem relayed_notice (c : Collector) (e : RepairEvent) :
    (c.notice e).relayed receive receiver = (c.relayed receive receiver).notice receive e := by
  cases e with
  | unclosed quote text span => exact relayed_literal receive receiver c quote text span
  | closed quote span => exact relayed_literal receive receiver c quote _ span
  | stray text span => exact relayed_push receive receiver c .unrecognizedInput [text] span

theorem relayed_mismatch (c : Collector) (m : Mismatch) :
    (c.mismatch m).relayed receive receiver = (c.relayed receive receiver).mismatch receive m := by
  have hstarts : (c.relayed receive receiver).mismatchStarts = c.mismatchStarts := rfl
  unfold mismatch Relay.mismatch
  rw [hstarts]
  by_cases h : m.span.start ∈ c.mismatchStarts
  · rw [if_pos h, if_pos h]
  · rw [if_neg h, if_neg h]
    dsimp only
    rw [← relayed_push]
    rfl

theorem relayed_notices (events : List RepairEvent) (c : Collector) :
    (events.foldl notice c).relayed receive receiver =
      events.foldl (Relay.notice receive) (c.relayed receive receiver) := by
  induction events generalizing c with
  | nil => rfl
  | cons e events ih => rw [List.foldl_cons, List.foldl_cons, ih, relayed_notice]

theorem relayed_mismatches (ms : List Mismatch) (c : Collector) :
    (ms.foldl mismatch c).relayed receive receiver =
      ms.foldl (Relay.mismatch receive) (c.relayed receive receiver) := by
  induction ms generalizing c with
  | nil => rfl
  | cons m ms ih => rw [List.foldl_cons, List.foldl_cons, ih, relayed_mismatch]

end Collector

namespace UnitTree

variable {σ α : Type} (receive : σ → Diagnostic → σ) (receiver : σ)

/-- A receiver is handed the findings of the unit in their order, and the answer counts them. -/
theorem deliver_eq (p : Parser α) (root : Rule) (file source : String) :
    deliver receive receiver p root file source =
      { tree := (read p root file source).tree
        diagnosticCount := (read p root file source).diagnostics.length
        usable := (read p root file source).usable
        receiver := (read p root file source).diagnostics.foldl receive receiver } := by
  have hrelay : ∀ map events ms,
      ms.foldl (Relay.mismatch receive)
          (events.foldl (Relay.notice receive) (.start map root receiver)) =
        (Collector.collect map root events ms).relayed receive receiver := by
    intro map events ms
    rw [Collector.collect, Collector.relayed_mismatches, Collector.relayed_notices]
    rfl
  unfold deliver
  dsimp only
  rw [hrelay, Collector.hasErrors_relayed]
  rfl

end UnitTree

end MasCheck
