import MasCheck.Proofs.Diagnostic.Templates

/-!
# Rendering

What a catalog makes of a kind and arguments. A template is filled in as a whole or not at all, and
whichever it is, all that it is cut at lies between its characters.
-/

namespace MasCheck

namespace Template

theorem Filled.more_args {args : List String} {template out : List Char}
    (h : Filled args template out) (more : List String) :
    Filled (args ++ more) template out := by
  induction h with
  | nil => exact .nil
  | keep hc _ ih => exact .keep hc ih
  | slot hslot harg _ ih =>
    refine .slot hslot ?_ ih
    rw [List.getElem?_append_left (List.getElem?_eq_some_iff.1 harg).1, harg]

end Template

namespace Catalog

/-- What the catalog makes of the kind and the arguments. A template stays if it lacks an argument.
Otherwise all of its placeholders are filled in: none is passed over and none is left, all cuts lie
between characters, and what an argument brings in is not read again. -/
structure Renders (catalog : Catalog) (kind : Kind) (args : List String) : Prop where
  succeeds : catalog.render? kind args = some (catalog.render kind args)
  bare : catalog.template? kind = none → catalog.render kind args = args.head?.getD kind.id
  templated : ∀ template, catalog.template? kind = some template →
    ∃ ps, Template.placeholders? template.toList = some ps ∧
      Template.AreListed template.toList ps ∧
      ((∃ p ∈ ps, args.length ≤ p.index) → catalog.render kind args = template) ∧
      ((∀ p ∈ ps, p.index < args.length) →
        Template.Spliced args template.toList 0 ps (catalog.render kind args).toList ∧
        (∀ out, Template.Filled args template.toList out ↔
          out = (catalog.render kind args).toList) ∧
        ∀ more, catalog.render kind (args ++ more) = catalog.render kind args)

variable {catalog : Catalog} {kind : Kind} {args : List String} {template text : String}

theorem render_eq (h : catalog.render? kind args = some text) :
    catalog.render kind args = text := by
  rw [render, h, Option.getD_some]

theorem render?_of_no_template (h : catalog.template? kind = none) :
    catalog.render? kind args = some (args.head?.getD kind.id) := by
  unfold render?
  rw [h]

theorem render?_of_lack (htemplate : catalog.template? kind = some template)
    (h : ∃ n ∈ Template.slots template.toList, args.length ≤ n) :
    catalog.render? kind args = some template := by
  obtain ⟨n, hn, hle⟩ := h
  rw [render?_of_template htemplate, if_pos]
  exact List.any_eq_true.2 ⟨n, hn, decide_eq_true hle⟩

/-- A template without an argument for each placeholder stays, and any other one is filled in. -/
theorem exists_render?_eq (catalog : Catalog) (kind : Kind) (args : List String) :
    ∃ text, catalog.render? kind args = some text := by
  cases htemplate : catalog.template? kind with
  | none => exact ⟨_, render?_of_no_template htemplate⟩
  | some template =>
    by_cases h : ∃ n ∈ Template.slots template.toList, args.length ≤ n
    · exact ⟨_, render?_of_lack htemplate h⟩
    · have hargs : ∀ n ∈ Template.slots template.toList, n < args.length :=
        fun n hn ↦ Nat.lt_of_not_le fun hle ↦ h ⟨n, hn, hle⟩
      obtain ⟨out, hrender, -⟩ := exists_render? htemplate hargs
      exact ⟨_, hrender⟩

/-- Arguments behind those that a template asks for change nothing. -/
theorem render_append (htemplate : catalog.template? kind = some template)
    (h : ∀ n ∈ Template.slots template.toList, n < args.length) (more : List String) :
    catalog.render kind (args ++ more) = catalog.render kind args := by
  obtain ⟨out, hrender, hfilled, -⟩ := exists_render? htemplate h
  have hmore : ∀ n ∈ Template.slots template.toList, n < (args ++ more).length :=
    fun n hn ↦ Nat.lt_of_lt_of_le (h n hn) (List.length_append ▸ Nat.le_add_right _ _)
  obtain ⟨out', hrender', hfilled', -⟩ := exists_render? htemplate hmore
  rw [render_eq hrender, render_eq hrender', (hfilled.more_args more).unique hfilled']

theorem renders_all_or_nothing (catalog : Catalog) (kind : Kind) (args : List String) :
    catalog.Renders kind args where
  succeeds := by
    obtain ⟨text, htext⟩ := exists_render?_eq catalog kind args
    rw [render_eq htext, htext]
  bare htemplate := render_eq (render?_of_no_template htemplate)
  templated template htemplate := by
    have hslots : ∀ n, n ∈ Template.slots template.toList ↔
        ∃ p ∈ Template.placeholdersFrom 0 template.toList, p.index = n := fun n ↦ by
      rw [← Template.map_index_placeholdersFrom 0, List.mem_map]
    refine ⟨_, Template.placeholders?_eq _, Template.areListed_placeholdersFrom _, ?_, fun h ↦ ?_⟩
    · rintro ⟨p, hp, hle⟩
      exact render_eq (render?_of_lack htemplate ⟨p.index, (hslots _).2 ⟨p, hp, rfl⟩, hle⟩)
    · have hargs : ∀ n ∈ Template.slots template.toList, n < args.length := by
        intro n hn
        obtain ⟨p, hp, rfl⟩ := (hslots n).1 hn
        exact h p hp
      obtain ⟨out, hrender, hfilled, hspliced⟩ := exists_render? htemplate hargs
      have htext : (catalog.render kind args).toList = out := by
        rw [render_eq hrender, String.toList_ofList]
      rw [htext]
      exact ⟨hspliced, fun text ↦ ⟨fun hout ↦ hout.unique hfilled, fun hout ↦ hout ▸ hfilled⟩,
        render_append htemplate hargs⟩

end Catalog

end MasCheck
