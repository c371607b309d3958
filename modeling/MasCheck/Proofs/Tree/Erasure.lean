import MasCheck.Grammar.Mas
import MasCheck.Grammar.Script

/-!
# Trees without places

With its places erased a tree says what was read and not where. Making a tree from parts and
erasing its places is the same as making it from parts whose places are erased.
-/

namespace MasCheck

class HasErasure (α : Type) where
  /-- The same value with all its places erased. -/
  erased : α → α

open HasErasure (erased)

namespace HasErasure

variable {α β : Type} [HasErasure α] [HasErasure β]

instance : HasErasure Span := ⟨fun _ ↦ ⟨0, 0⟩⟩

instance : HasErasure Unit := ⟨id⟩

instance : HasErasure String := ⟨id⟩

instance : HasErasure Token := ⟨id⟩

instance : HasErasure InitValue := ⟨id⟩

instance : HasErasure ConstraintWord := ⟨id⟩

instance : HasErasure LaunchName := ⟨id⟩

instance : HasErasure Target := ⟨id⟩

instance : HasErasure TemporalOperator := ⟨id⟩

instance : HasErasure MentalOperator := ⟨id⟩

instance : HasErasure (Located α) := ⟨fun x ↦ ⟨erased x.node, erased x.span⟩⟩

instance : HasErasure (Option α) := ⟨Option.map erased⟩

instance : HasErasure (List α) := ⟨List.map erased⟩

instance : HasErasure (α × β) := ⟨fun x ↦ (erased x.1, erased x.2)⟩

instance : HasErasure InitEntry := ⟨fun e ↦ ⟨erased e.key, erased e.value⟩⟩

instance : HasErasure Environment := ⟨fun e ↦ ⟨erased e.archive, erased e.init⟩⟩

instance : HasErasure Parameter := ⟨fun p ↦ ⟨erased p.key, erased p.value⟩⟩

instance : HasErasure AgentFile := ⟨fun f ↦ ⟨erased f.path, erased f.parameters⟩⟩

instance : HasErasure Constraint := ⟨fun c ↦ ⟨c.word, erased c.value⟩⟩

instance : HasErasure Entity where
  erased
    | .constraints items => .constraints (erased items)
    | .named name => .named name
    | .any => .any

instance : HasErasure LaunchComponent :=
  ⟨fun c ↦ ⟨erased c.name, erased c.number, erased c.target⟩⟩

instance : HasErasure LaunchRule := ⟨fun r ↦ ⟨erased r.condition, erased r.components⟩⟩

instance : HasErasure LaunchPolicy := ⟨fun p ↦ ⟨erased p.rules⟩⟩

/-- Of the environments after the first their number is left. -/
instance : HasErasure MasFile where
  erased file := ⟨erased file.environment, erased file.extraEnvironments, erased file.agentFiles,
    erased file.launchPolicy⟩

instance : HasErasure Grammar.Section where
  erased
    | .environment env => .environment (erased env)
    | .agentFiles files => .agentFiles (erased files)
    | .launchPolicy policy => .launchPolicy (erased policy)
    | .broken => .broken

instance : HasErasure MentalLiteral := ⟨fun l ↦ ⟨l.negated, l.operator, erased l.term⟩⟩

instance : HasErasure TestCondition := ⟨fun c ↦ ⟨c.operator, erased c.literals⟩⟩

instance : HasErasure AgentTest :=
  ⟨fun t ↦ ⟨erased t.agent, erased t.module, erased t.conditions⟩⟩

instance : HasErasure TestScript := ⟨fun s ↦ ⟨erased s.mas, erased s.timeout, erased s.tests⟩⟩

/-! ## Trees from their parts -/

theorem erased_list_eq_self (h : ∀ x : α, erased x = x) (xs : List α) : erased xs = xs :=
  (List.map_congr_left fun x _ ↦ h x).trans (List.map_id xs)

theorem erased_getD (xs : Option (List α)) : erased (xs.getD []) = (erased xs).getD [] := by
  cases xs <;> rfl

theorem erased_join (x : Option (Option α)) : erased x.join = (erased x).join := by
  cases x <;> rfl

theorem erased_filterMap (xs : List (Option α)) :
    erased (xs.filterMap id) = (erased xs).filterMap id := by
  induction xs with
  | nil => rfl
  | cons x xs ih =>
    cases x with
    | none => exact ih
    | some x => exact congrArg (erased x :: ·) ih

theorem erased_append (xs ys : List α) : erased (xs ++ ys) = erased xs ++ erased ys :=
  List.map_append

theorem erased_addSection (file : MasFile) (s : Grammar.Section) :
    erased (Grammar.addSection file s) = Grammar.addSection (erased file) (erased s) := by
  obtain ⟨environment, extra, files, policy⟩ := file
  cases s with
  | environment env =>
    cases environment with
    | none => rfl
    | some first =>
      have hextra := erased_append extra [env.span]
      exact congrArg (fun spans ↦ MasFile.mk _ spans _ _) hextra
  | agentFiles more =>
    exact congrArg (fun files ↦ MasFile.mk _ _ files _) (erased_append files more)
  | launchPolicy more =>
    cases policy with
    | none => rfl
    | some first =>
      have hrules := erased_append first.node.rules more.node.rules
      exact congrArg (fun rules ↦ MasFile.mk _ _ _ (some ⟨⟨rules⟩, ⟨0, 0⟩⟩)) hrules
  | broken => rfl

theorem erased_foldl_addSection (sections : List Grammar.Section) (file : MasFile) :
    erased (sections.foldl Grammar.addSection file) =
      (erased sections).foldl Grammar.addSection (erased file) := by
  induction sections generalizing file with
  | nil => rfl
  | cons s sections ih =>
    rw [List.foldl_cons, ih, erased_addSection]
    rfl

end HasErasure

end MasCheck
