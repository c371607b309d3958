import MasCheck.Diagnostic.Basic
import MasCheck.Proofs.Diagnostic.Placeholders

/-!
# Filling in templates

A template is read once, from its front: its placeholders become arguments, and all else stays. What
an argument brings in is not read again, so that a message is determined by its template and the
arguments.
-/

namespace MasCheck

namespace Template

/-- The second text is the template with arguments in the place of its placeholders. -/
inductive Filled (args : List String) : List Char → List Char → Prop
  | nil : Filled args [] []
  | keep {c : Char} {cs out : List Char} (hc : ∀ n rest, ¬Opens (c :: cs) n rest)
      (hcs : Filled args cs out) : Filled args (c :: cs) (c :: out)
  | slot {template rest out : List Char} {n : Nat} {arg : String} (hslot : Opens template n rest)
      (harg : args[n]? = some arg) (hrest : Filled args rest out) :
      Filled args template (arg.toList ++ out)

/-- Behind the offset, the template is cut at the placeholders one after the other, each of them has
an argument, and the text is what stands between them with their arguments. -/
inductive Spliced (args : List String) (template : List Char) :
    Nat → List Placeholder → List Char → Prop
  | done {last : Nat} {back : List Char}
      (hback : Text.slice? last (Text.byteLength template) template = some back) :
      Spliced args template last [] back
  | next {last : Nat} {p : Placeholder} {ps : List Placeholder} {front out : List Char}
      {arg : String} (hfront : Text.slice? last p.span.start template = some front)
      (harg : args[p.index]? = some arg) (hout : Spliced args template p.span.stop ps out) :
      Spliced args template last (p :: ps) (front ++ arg.toList ++ out)

variable {args : List String} {c : Char} {cs rest : List Char} {n : Nat}

/-! ## Placeholders in front -/

theorem slots_subset (front rest : List Char) : slots rest ⊆ slots (front ++ rest) := by
  induction front with
  | nil => exact fun _ h ↦ h
  | cons c front ih =>
    rw [List.cons_append, slots]
    split
    · exact fun n hn ↦ List.mem_cons_of_mem _ (ih hn)
    · exact ih

theorem Opens.slots {template : List Char} (h : Opens template n rest) :
    n ∈ slots template ∧ slots rest ⊆ slots template := by
  obtain ⟨digits, hdigits, hcount, rfl⟩ := h
  constructor
  · obtain ⟨width, hslot, -⟩ := opens_iff.1 ⟨digits, hdigits, hcount, rfl⟩
    rw [Template.slots, hslot]
    exact List.mem_cons_self
  · have hbehind := slots_subset ('{' :: (digits ++ ['}'])) rest
    rwa [List.cons_append, List.append_assoc] at hbehind

theorem Opens.length_lt {template : List Char} (h : Opens template n rest) :
    rest.length < template.length := by
  obtain ⟨digits, -, -, rfl⟩ := h
  simp only [List.length_cons, List.length_append]
  omega

/-- A template begins with one placeholder at most. -/
theorem Opens.unique {template rest' : List Char} {n' : Nat} (h : Opens template n rest)
    (h' : Opens template n' rest') : n = n' ∧ rest = rest' := by
  cases template with
  | nil => exact absurd h.length_lt (Nat.not_lt_zero _)
  | cons c cs =>
    obtain ⟨width, hslot, rfl⟩ := opens_iff.1 h
    obtain ⟨width', hslot', rfl⟩ := opens_iff.1 h'
    obtain ⟨rfl, rfl⟩ := Prod.mk.inj (Option.some.inj (hslot.symm.trans hslot'))
    exact ⟨rfl, rfl⟩

/-! ## Filling -/

theorem Filled.unique {template out out' : List Char} (h : Filled args template out)
    (h' : Filled args template out') : out = out' := by
  induction h generalizing out' with
  | nil =>
    cases h' with
    | nil => rfl
    | slot hslot => exact absurd hslot.length_lt (Nat.not_lt_zero _)
  | keep hc _ ih =>
    cases h' with
    | keep _ hcs => rw [ih hcs]
    | slot hslot => exact absurd hslot (hc _ _)
  | slot hslot harg _ ih =>
    cases h' with
    | nil => exact absurd hslot.length_lt (Nat.not_lt_zero _)
    | keep hc => exact absurd hslot (hc _ _)
    | slot hslot' harg' hrest' =>
      obtain ⟨rfl, rfl⟩ := hslot.unique hslot'
      obtain rfl := Option.some.inj (harg.symm.trans harg')
      rw [ih hrest']

/-- Where the template is spliced, no placeholder is passed over and none is left as it is. -/
theorem Spliced.substituteFrom?_eq {template out : List Char} {last : Nat} {ps : List Placeholder}
    (h : Spliced args template last ps out) :
    substituteFrom? template args last ps = some out := by
  induction h with
  | done hback => exact hback
  | @next last p ps front out arg hfront harg _ ih =>
    have hordered : ¬p.span.start < last := by
      obtain ⟨us, vs, -, hlast, hstart⟩ := Text.slice?_eq_some_iff.1 hfront
      rw [Text.byteLength_append] at hstart
      omega
    rw [substituteFrom?, if_neg hordered, hfront, harg, ih]
    rfl

theorem Spliced.of_append {template front middle : List Char} (h : template = front ++ middle) :
    Spliced args template (Text.byteLength front) [] middle :=
  .done (Text.slice?_eq_some_iff.2 ⟨front, [], by rw [h, List.append_nil], rfl, by rw [h]⟩)

/-- The text up to a placeholder is kept, and the cut goes on behind the closing brace. -/
theorem Spliced.braced {template front middle digits out : List Char} {arg : String}
    {ps : List Placeholder} (h : template = front ++ (middle ++ '{' :: (digits ++ '}' :: rest)))
    (harg : args[n]? = some arg)
    (hout : Spliced args template
      (Text.byteLength (front ++ middle ++ '{' :: (digits ++ ['}']))) ps out) :
    Spliced args template (Text.byteLength front)
      (⟨⟨Text.byteLength front + Text.byteLength middle,
        Text.byteLength front + Text.byteLength middle + Text.byteLength digits + 2⟩, n⟩ :: ps)
      (middle ++ (arg.toList ++ out)) := by
  rw [byteLength_braced, Text.byteLength_append] at hout
  have hmiddle : Text.slice? (Text.byteLength front)
      (Text.byteLength front + Text.byteLength middle) template = some middle := by
    refine Text.slice?_eq_some_iff.2 ⟨front, '{' :: (digits ++ '}' :: rest), ?_, rfl,
      (Text.byteLength_append _ _).symm⟩
    rw [h, List.append_assoc]
  have hall := Spliced.next (p := ⟨⟨_, _⟩, n⟩) hmiddle harg hout
  rwa [List.append_assoc] at hall

/-- With an argument for each placeholder of the rest of a template, there is something to be made
of it: `front` has been taken, and `middle` is kept. -/
theorem exists_filled {template front middle : List Char} (h : ∀ n ∈ slots cs, n < args.length)
    (htemplate : template = front ++ (middle ++ cs)) : ∃ out, Filled args cs out ∧
      Spliced args template (Text.byteLength front)
        (placeholdersFrom (Text.byteLength front + Text.byteLength middle) cs) (middle ++ out) := by
  induction hk : cs.length using Nat.strongRecOn generalizing cs front middle with
  | _ k ih =>
    by_cases hopens : ∃ n rest, Opens cs n rest
    · obtain ⟨n, rest, hopens⟩ := hopens
      obtain ⟨hn, hrest⟩ := hopens.slots
      have hshorter := hk ▸ hopens.length_lt
      have harg := List.getElem?_eq_getElem (h n hn)
      obtain ⟨digits, hdigits, hcount, rfl⟩ := id hopens
      have htaken : template = (front ++ middle ++ '{' :: (digits ++ ['}'])) ++ ([] ++ rest) := by
        simp [htemplate]
      obtain ⟨out, hfilled, hspliced⟩ := ih _ hshorter (fun m hm ↦ h m (hrest hm)) htaken rfl
      rw [Text.byteLength_nil, Nat.add_zero, byteLength_braced, Text.byteLength_append] at hspliced
      rw [placeholdersFrom_of_opens hdigits hcount]
      refine ⟨_, .slot hopens harg hfilled, .braced htemplate harg ?_⟩
      rwa [byteLength_braced, Text.byteLength_append]
    · cases cs with
      | nil => exact ⟨[], .nil, .of_append htemplate⟩
      | cons c cs =>
        have hc : ∀ n rest, ¬Opens (c :: cs) n rest := fun n rest hc ↦ hopens ⟨n, rest, hc⟩
        have hkept : template = front ++ ((middle ++ [c]) ++ cs) := by
          rw [htemplate, List.append_assoc]
          rfl
        obtain ⟨out, hfilled, hspliced⟩ :=
          ih _ (hk ▸ Nat.lt_succ_self _) (fun m hm ↦ h m (slots_subset [c] cs hm)) hkept rfl
        refine ⟨c :: out, .keep hc hfilled, ?_⟩
        rw [placeholdersFrom_of_not_opens hc, Nat.add_assoc]
        rwa [Text.byteLength_append, List.append_assoc] at hspliced

theorem exists_substitute? {template : String} (h : ∀ n ∈ slots template.toList, n < args.length) :
    ∃ out, substitute? template args = some (String.ofList out) ∧ Filled args template.toList out ∧
      Spliced args template.toList 0 (placeholdersFrom 0 template.toList) out := by
  have hwhole : template.toList = [] ++ ([] ++ template.toList) := rfl
  obtain ⟨out, hfilled, hspliced⟩ := exists_filled h hwhole
  refine ⟨out, ?_, hfilled, hspliced⟩
  have htext := hspliced.substituteFrom?_eq
  change substituteFrom? template.toList args 0 (placeholdersFrom 0 template.toList) = _ at htext
  simp only [substitute?, placeholders?_eq, htext, Option.bind_eq_bind, Option.bind_some,
    Option.pure_def]
  rfl

/-- An argument is not searched for placeholders. -/
example : substitute? "{0} of {1}" ["{1}", "x"] = some "{1} of x" := by decide

end Template

/-! ## Messages -/

namespace Catalog

variable {catalog : Catalog} {kind : Kind} {args : List String} {template : String}

theorem render?_of_template (htemplate : catalog.template? kind = some template) :
    catalog.render? kind args =
      if (Template.slots template.toList).any (args.length ≤ ·) then some template
      else Template.substitute? template args := by
  unfold render?
  rw [htemplate]
  dsimp only
  rw [Template.placeholders?_eq, ← Template.map_index_placeholdersFrom 0, List.any_map]
  rfl

/-- With an argument for each placeholder, the message is the template with its arguments. -/
theorem exists_render? (htemplate : catalog.template? kind = some template)
    (h : ∀ n ∈ Template.slots template.toList, n < args.length) :
    ∃ out, catalog.render? kind args = some (String.ofList out) ∧
      Template.Filled args template.toList out ∧ Template.Spliced args template.toList 0
        (Template.placeholdersFrom 0 template.toList) out := by
  have henough : ¬(Template.slots template.toList).any (args.length ≤ ·) = true := by
    rw [List.any_eq_true]
    rintro ⟨n, hn, hle⟩
    exact absurd (h n hn) (Nat.not_lt.2 (of_decide_eq_true hle))
  rw [render?_of_template htemplate, if_neg henough]
  exact Template.exists_substitute? h

end Catalog

/-! ## Standard messages -/

/-- How many arguments a finding of the kind has. -/
def Kind.argumentCount : Kind → Nat
  | conditionWithoutEnvironment | launchPolicyEmpty => 0
  | unrecognizedInput | unclosedDouble | unclosedSingle | environmentMissing | agentFileMissing
  | launchNumberInvalid | constraintNumberInvalid | environmentRepeated | agentFileUnused
  | wildcardUnconditional | constraintRepeated | masMissing | timeoutInvalid => 1
  | unexpectedInput | noViableAlternative | environmentNotArchive | agentFileExtension
  | agentFileParameterUnknown | agentFileUndeclared | resourceUnreadable | agentFileNameRepeated
  | agentFileParameterRepeated | initKeyRepeated | agentUnknown | agentRepeated => 2
  | inputMismatch => 3

namespace Template

theorem slots_toList {s : String} {cs : List Char} {ns : List Nat} (hs : s = String.ofList cs)
    (hcs : slots cs = ns) : slots s.toList = ns := by
  rw [hs, String.toList_ofList, hcs]

/-- The placeholders of a standard template name its arguments one after the other. -/
theorem slots_standardTemplate (k : Kind) :
    slots (Catalog.standardTemplate k).toList = List.range k.argumentCount := by
  -- Only the characters of a template are looked at: to evaluate `toList` on it takes far longer.
  cases k
  case wildcardUnconditional =>
    refine @slots_toList _ ?_ _ ?_ ?_
    rotate_left
    · delta Catalog.standardTemplate
      dsimp only
      exact (String.ofList_append ..).symm
    · decide
  all_goals
    refine @slots_toList _ ?_ _ ?_ ?_
    rotate_left
    · delta Catalog.standardTemplate
      dsimp only
      exact rfl
    · decide

end Template

/-- There is an argument for each placeholder of the template and no other argument, and the message
is the template filled with them. -/
structure Diagnostic.IsFilled (d : Diagnostic) : Prop where
  count : d.args.length = (Template.slots (Catalog.standardTemplate d.kind).toList).length
  message : ∀ out, Template.Filled d.args (Catalog.standardTemplate d.kind).toList out ↔
    out = d.message.toList

theorem Diagnostic.isFilled_of {kind : Kind} {args : List String} (position : Position)
    (h : args.length = kind.argumentCount) : (Diagnostic.of kind args position).IsFilled := by
  have hslots : ∀ n ∈ Template.slots (Catalog.standardTemplate kind).toList, n < args.length := by
    rw [Template.slots_standardTemplate, h]
    exact fun n hn ↦ List.mem_range.1 hn
  constructor
  · rw [Template.slots_standardTemplate, List.length_range]
    exact h
  · have htemplate : Catalog.standard.template? kind = some (Catalog.standardTemplate kind) := rfl
    obtain ⟨text, hrender, hfilled, -⟩ := Catalog.exists_render? htemplate hslots
    have hmessage : (Diagnostic.of kind args position).message.toList = text := by
      change ((Catalog.standard.render? kind args).getD kind.id).toList = text
      rw [hrender, Option.getD_some, String.toList_ofList]
    rw [hmessage]
    exact fun out ↦ ⟨fun hout ↦ hout.unique hfilled, fun hout ↦ hout ▸ hfilled⟩

end MasCheck
