import MasCheck.Analysis.Mas
import MasCheck.Proofs.Grammar.StrictMas

/-!
# Targets are tokens

Each launch instruction of a file has its target from one of the tokens of the file.
-/

namespace MasCheck.Strict

open Production

variable {ts us : List Lexeme}

def HasTarget (ts : List Lexeme) (t : Located Target) : Prop :=
  ∃ l ∈ ts, target [l] t

theorem HasTarget.mono {t : Located Target} (h : HasTarget us t) (hus : us ⊆ ts) :
    HasTarget ts t := by
  obtain ⟨l, hl, ht⟩ := h
  exact ⟨l, hus hl, ht⟩

theorem hasTarget_of_launchComponent {c : Located LaunchComponent} (h : launchComponent ts c) :
    HasTarget ts c.node.target := by
  obtain ⟨⟨us, vs, name, rfl, -, ws, zs, number, rfl, -, hcolon⟩, -⟩ := h
  obtain ⟨span, ts, rfl, ps, qs, t, rfl, htarget, rfl, hc⟩ := sign_bind_iff.1 hcolon
  obtain ⟨l, rfl, hl⟩ := htarget.1
  rw [hc]
  exact ⟨l, by simp, htarget⟩

theorem hasTarget_of_launch {cs : List (Located LaunchComponent)} {c : Located LaunchComponent}
    (h : launch ts cs) (hc : c ∈ cs) : HasTarget ts c.node.target := by
  obtain ⟨us, vs, u, rfl, -, ws, zs, components, rfl, hcomponents, hdot⟩ := h
  obtain ⟨span, ps, rfl, rfl, rfl⟩ := sign_bind_iff.1 hdot
  obtain ⟨ts, hts, hcomponent⟩ := hcomponents.exists_of_mem hc
  refine (hasTarget_of_launchComponent hcomponent).mono fun l hl ↦ ?_
  simp [hts hl]

theorem hasTarget_of_launchRule {rule : Located LaunchRule} {c : Located LaunchComponent}
    (h : launchRule ts rule) (hc : c ∈ rule.node.components) : HasTarget ts c.node.target := by
  rcases h.1 with hconditional | ⟨components, hlaunch, hrule⟩
  · obtain ⟨us, vs, u, rfl, -, ws, zs, condition, rfl, -, hdo⟩ := hconditional
    obtain ⟨ps, qs, u', rfl, -, ms, ns, components, rfl, hlaunch, rfl, hrule⟩ := hdo
    rw [hrule] at hc
    refine (hasTarget_of_launch hlaunch hc).mono fun l hl ↦ ?_
    simp [hl]
  · rw [← hrule] at hc
    exact hasTarget_of_launch hlaunch hc

theorem hasTarget_of_launchPolicy {policy : Located LaunchPolicy} {rule : Located LaunchRule}
    {c : Located LaunchComponent} (h : launchPolicy ts policy) (hrule : rule ∈ policy.node.rules)
    (hc : c ∈ rule.node.components) : HasTarget ts c.node.target := by
  obtain ⟨⟨us, vs, u, rfl, -, ws, zs, rules, rfl, hrules, rfl, hpolicy⟩, -⟩ := h
  obtain ⟨a, ms, b, rfl, hmany⟩ := between_iff.1 hrules
  rw [hpolicy] at hrule
  obtain ⟨ns, hns, hlaunchRule⟩ := hmany.exists_of_mem hrule
  refine (hasTarget_of_launchRule hlaunchRule hc).mono fun l hl ↦ ?_
  simp [hns hl]

theorem hasTarget_of_masFile {mas : MasFile} {c : LaunchComponent} (h : masFile ts mas)
    (hc : c ∈ mas.components) : HasTarget ts c.target := by
  obtain ⟨found, hfound, rfl⟩ := h
  obtain ⟨rule, hrule, hmap⟩ := List.mem_flatMap.1 hc
  obtain ⟨c, hcomponent, rfl⟩ := List.mem_map.1 hmap
  have hpolicy : ∃ policy ∈ policiesOf found, rule ∈ policy.node.rules := by
    unfold fileOf at hrule
    cases hpolicies : policiesOf found with
    | nil => simp [hpolicies] at hrule
    | cons first others => simpa [hpolicies] using hrule
  obtain ⟨policy, hpolicy, hrule⟩ := hpolicy
  obtain ⟨s, hs, hsome⟩ := List.mem_filterMap.1 hpolicy
  obtain ⟨us, hus, hsection⟩ := hfound.exists_of_mem hs
  rcases hsection with ⟨env, -, rfl⟩ | ⟨files, -, rfl⟩ | ⟨policy', hpolicy', rfl⟩
  · cases hsome
  · cases hsome
  · obtain rfl := Option.some.inj hsome
    exact (hasTarget_of_launchPolicy hpolicy' hrule hcomponent).mono hus

end MasCheck.Strict
