import MasCheck.Analysis.Options
import MasCheck.Proofs.Json.Written
import MasCheck.Proofs.Tree.RoundTrip

/-!
# Trees and options are read as they were written

Trees are written as values and options as a text. In both ways nothing is lost.
-/

namespace MasCheck

open Json (ReadsFields)

namespace Options

/-- Each field is new when it is read, so that it is read by the reader for its type. -/
theorem readsFields_toJson (o : Options) :
    ReadsFields Given.field Given.none
      [("check_resources", .bool o.checkResources), ("report_unused", .bool o.reportUnused),
        ("agent_extension", .text o.agentExtension),
        ("environment_extension", .text o.environmentExtension)]
      ⟨some o.checkResources, some o.reportUnused, some o.agentExtension,
        some o.environmentExtension⟩ := by
  obtain ⟨checks, unused, agent, environment⟩ := o
  have henvironment : ReadsFields Given.field ⟨some checks, some unused, some agent, none⟩
      [("environment_extension", .text environment)]
      ⟨some checks, some unused, some agent, some environment⟩ := by
    refine .cons (by simp [Given.field, Given.once]; rfl) (fun rest ↦ ?_) (.nil _)
    rw [Json.expectText_compact]
    rfl
  have hagent : ReadsFields Given.field ⟨some checks, some unused, none, none⟩
      [("agent_extension", .text agent), ("environment_extension", .text environment)]
      ⟨some checks, some unused, some agent, some environment⟩ := by
    refine .cons (by simp [Given.field, Given.once]; rfl) (fun rest ↦ ?_) henvironment
    rw [Json.expectText_compact]
    rfl
  have hunused : ReadsFields Given.field ⟨some checks, none, none, none⟩
      [("report_unused", .bool unused), ("agent_extension", .text agent),
        ("environment_extension", .text environment)]
      ⟨some checks, some unused, some agent, some environment⟩ := by
    refine .cons (by simp [Given.field, Given.once]; rfl) (fun rest ↦ ?_) hagent
    rw [Json.expectBool_compact]
    rfl
  refine .cons (by simp [Given.field, Given.once]; rfl) (fun rest ↦ ?_) hunused
  rw [Json.expectBool_compact]
  rfl

theorem ofJson?_compact (o : Options) : ofJson? o.toJson.compact = .ok o := by
  have hobject := Json.expectObject_compact o.readsFields_toJson []
  rw [List.append_nil] at hobject
  obtain ⟨cs, htext⟩ : ∃ cs, o.toJson.compact.toList = '{' :: cs := ⟨_, Json.toList_object _ _⟩
  have hread : read o.toJson.compact.toList =
      (Json.expectObject Given.field Given.none o.toJson.compact.toList).map
        (Prod.map Given.complete id) := by
    rw [htext, read, Json.skipBlanks_cons (by decide)]
    rfl
  have hobject : Json.expectObject Given.field Given.none o.toJson.compact.toList = .ok _ := hobject
  rw [ofJson?, Json.readAll, hread, hobject]
  rfl

end Options

/-- What was written is read as the same. -/
theorem written_is_read :
    (∀ f : MasFile, MasFile.ofJson? f.toJson = some f) ∧
      (∀ s : TestScript, TestScript.ofJson? s.toJson = some s) ∧
      ∀ o : Options, Options.ofJson? o.toJson.compact = .ok o :=
  ⟨MasFile.ofJson?_toJson, TestScript.ofJson?_toJson, Options.ofJson?_compact⟩

end MasCheck
