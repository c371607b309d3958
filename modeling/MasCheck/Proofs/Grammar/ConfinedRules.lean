import MasCheck.Grammar.Mas
import MasCheck.Grammar.Script
import MasCheck.Proofs.Grammar.Confined

/-!
# Which rules are confined

Agent files, launch rules and test conditions are confined to a statement, and so are the other
rules that end with a dot. All rules below them are confined to a part of one.
-/

namespace MasCheck.Grammar

open MasCheck.Parser

/-! ## Names, texts and values -/

theorem confined_identifier : Confined .part identifier :=
  (Confined.select rfl).labelled _

theorem confined_located_quotedText : Confined .part (located quotedText) :=
  ((Confined.select rfl).labelled _).located

theorem confined_number : Confined .part number := by
  apply Confined.labelled
  apply Confined.located
  exact (Confined.exactly (by decide)).optional.andThen fun _ ↦ (Confined.select rfl).andReturn _

theorem confined_key : Confined .part key :=
  (Confined.select rfl).located.labelled _

theorem confined_value : Confined .part value :=
  confined_key.or (confined_located_quotedText.or confined_number)

/-! ## The environment -/

theorem confined_envRef : Confined .whole envRef :=
  ((Confined.keyword _).andThen fun _ ↦ (Confined.sign (by decide)).andThen fun _ ↦
    confined_located_quotedText.andThen fun _ ↦ Confined.dot.andReturn _).rule _

theorem confined_initValueWithin (depth : Nat) : Confined .part (initValueWithin depth) := by
  induction depth with
  | zero => exact Confined.select rfl
  | succ depth ih =>
    have hfunction : Confined .part (between .leftParen .rightParen
        (separated₁ (initValueWithin depth))) :=
      ih.separated₁.between (by decide) (by decide)
    have hlist : Confined .part (between .leftBracket .rightBracket
        (separated (initValueWithin depth))) :=
      ih.separated.between (by decide) (by decide)
    apply Confined.rule
    refine Confined.or ?_ ((hlist.andReturn _).or (Confined.select rfl))
    exact (Confined.select rfl).andThen fun _ ↦ hfunction.andReturn _

theorem confined_initValue : Confined .part initValue where
  keepsReach := fun c n ↦ (confined_initValueWithin (c.rest.length + 1)).keepsReach c n
  quiet := fun c n ↦ (confined_initValueWithin (c.rest.length + 1)).quiet c n
  takes := fun {c _ _} hx ↦ (confined_initValueWithin (c.rest.length + 1)).takes hx
  marks := fun {c _ _} hn hS ↦ (confined_initValueWithin (c.rest.length + 1)).marks hn hS
  blames := fun {c _} hnone ↦ (confined_initValueWithin (c.rest.length + 1)).blames hnone

theorem confined_initEntry : Confined .part initEntry :=
  (confined_key.andThen fun _ ↦ (Confined.sign (by decide)).andThen fun _ ↦
    confined_initValue.located.andReturn _).located.rule _

theorem confined_initialization : Confined .whole initialization :=
  ((Confined.keyword _).andThen fun _ ↦ (Confined.sign (by decide)).andThen fun _ ↦
    (confined_initEntry.separated₁.between (by decide) (by decide)).andThen fun _ ↦
      Confined.dot.andReturn _).rule _

/-! ## Agent files -/

theorem confined_parameter : Confined .part parameter :=
  (confined_key.andThen fun _ ↦ (Confined.sign (by decide)).andThen fun _ ↦
    confined_value.andReturn _).located.rule _

theorem confined_agentFile : Confined .whole agentFile :=
  (confined_located_quotedText.andThen fun _ ↦
    (confined_parameter.separated₁.between (by decide) (by decide)).optional.andThen fun _ ↦
      Confined.dot.andReturn _).located.rule _

/-! ## The launch policy -/

theorem confined_target : Confined .part target :=
  (Confined.select rfl).located.named _

theorem confined_launchName : Confined .part launchName :=
  (Confined.select rfl).located.labelled _

theorem confined_launchNumber : Confined .part launchNumber :=
  ((Confined.keyword _).andThen fun _ ↦ (Confined.sign (by decide)).andThen fun _ ↦
    confined_value).between (by decide) (by decide)

theorem confined_launchComponent : Confined .part launchComponent :=
  (confined_launchName.andThen fun _ ↦ confined_launchNumber.optional.andThen fun _ ↦
    (Confined.sign (by decide)).andThen fun _ ↦ confined_target.andReturn _).located.rule _

theorem confined_launch : Confined .whole launch :=
  ((Confined.keyword _).andThen fun _ ↦ confined_launchComponent.separated₁.andThen fun _ ↦
    Confined.dot.andReturn _).rule _

theorem confined_constraint : Confined .part constraint :=
  (((Confined.select rfl).labelled _).andThen fun _ ↦ (Confined.sign (by decide)).andThen fun _ ↦
    confined_value.andReturn _).located.rule _

theorem confined_entity : Confined .part entity := by
  have hconstraints : Confined .part (between .leftBracket .rightBracket
      (separated₁ constraint)) :=
    confined_constraint.separated₁.between (by decide) (by decide)
  apply Confined.rule
  apply Confined.located
  refine Confined.andThen ?_ fun _ ↦ (Confined.sign (by decide)).andReturn _
  exact (hconstraints.andReturn _).or ((Confined.select rfl).labelled _)

theorem confined_launchRule : Confined .whole launchRule := by
  apply Confined.rule
  apply Confined.located
  refine Confined.or ?_ (confined_launch.andReturn _)
  exact (Confined.keyword _).andThen fun _ ↦ confined_entity.andThen fun _ ↦
    (Confined.keyword _).andThen fun _ ↦ confined_launch.andReturn _

/-! ## Test scripts -/

theorem confined_masRef : Confined .whole masRef :=
  ((Confined.keyword _).andThen fun _ ↦ (Confined.sign (by decide)).andThen fun _ ↦
    confined_located_quotedText.andThen fun _ ↦ Confined.dot.andReturn _).rule _

theorem confined_timeout : Confined .whole timeout :=
  ((Confined.keyword _).andThen fun _ ↦ (Confined.sign (by decide)).andThen fun _ ↦
    confined_number.andThen fun _ ↦ Confined.dot.andReturn _).rule _

theorem confined_termItemWithin (depth : Nat) : Confined .part (termItemWithin depth) := by
  induction depth with
  | zero => exact Confined.select rfl
  | succ depth ih =>
    refine Confined.or ?_ ((Confined.token (by decide)).andReturn _)
    exact (Confined.sign (by decide)).andThen fun _ ↦ ih.many.andThen fun _ ↦
      (Confined.sign (by decide)).andReturn _

theorem confined_termItem : Confined .part termItem where
  keepsReach := fun c n ↦ (confined_termItemWithin (c.rest.length + 1)).keepsReach c n
  quiet := fun c n ↦ (confined_termItemWithin (c.rest.length + 1)).quiet c n
  takes := fun {c _ _} hx ↦ (confined_termItemWithin (c.rest.length + 1)).takes hx
  marks := fun {c _ _} hn hS ↦ (confined_termItemWithin (c.rest.length + 1)).marks hn hS
  blames := fun {c _} hnone ↦ (confined_termItemWithin (c.rest.length + 1)).blames hnone

theorem confined_term : Confined .part term :=
  (confined_termItem.many₁.andReturn _).located.named _

theorem confined_mentalAtom : Confined .part mentalAtom :=
  ((Confined.select rfl).andThen fun _ ↦
    (confined_term.between (by decide) (by decide)).andReturn _).rule _

theorem confined_mentalLiteral : Confined .part mentalLiteral := by
  apply Confined.rule
  apply Confined.located
  refine Confined.or ?_ (confined_mentalAtom.andReturn _)
  exact (Confined.keyword _).andThen fun _ ↦
    (confined_mentalAtom.between (by decide) (by decide)).andReturn _

theorem confined_testCondition : Confined .whole testCondition := by
  apply Confined.rule
  apply Confined.located
  exact (Confined.select rfl).andThen fun _ ↦
    (confined_mentalLiteral.separated₁.rule _).andThen fun _ ↦ Confined.dot.andReturn _

theorem confined_moduleRef : Confined .whole moduleRef :=
  ((Confined.keyword _).andThen fun _ ↦ confined_identifier.located.andThen fun _ ↦
    Confined.dot.andReturn _).rule _

end MasCheck.Grammar
