import MasCheck.Tree.Encoding

/-!
# Trees are read as they were written

The fields of a record have different names, so that each is found again under its name. From the
parts of a tree up to the whole, what was written is read as the same.
-/

namespace MasCheck

/-! ## Fields and items -/

namespace Json

theorem field?_cons_of_ne {name other : String} (h : name ≠ other) (v : Json)
    (fields : List (String × Json)) :
    field? name (.object ((other, v) :: fields)) = field? name (.object fields) := by
  simp [field?, List.find?_append, Ne.symm h]

theorem field?_cons_self {name : String} {v : Json} {fields : List (String × Json)}
    (h : name ∉ fields.map Prod.fst) : field? name (.object ((name, v) :: fields)) = some v := by
  have hnone : fields.reverse.find? (fun f ↦ f.1 = name) = none := by
    rw [List.find?_eq_none]
    intro f hf hname
    rw [List.mem_reverse] at hf
    exact h (List.mem_map.2 ⟨f, hf, of_decide_eq_true hname⟩)
  simp [field?, List.find?_append, hnone]

/-- Every field of a record is found under its name. -/
theorem record?_zip (names : List String) (values : List Json) (hnames : names.Nodup)
    (hlength : names.length = values.length) :
    record? names (.object (names.zip values)) = some (values.map some) := by
  refine congrArg some ?_
  induction names generalizing values with
  | nil =>
    obtain rfl := List.length_eq_zero_iff.1 hlength.symm
    rfl
  | cons name names ih =>
    obtain ⟨v, values, rfl⟩ := List.exists_cons_of_length_eq_add_one hlength.symm
    obtain ⟨hname, hnames⟩ := List.nodup_cons.1 hnames
    have hlength : names.length = values.length := Nat.succ.inj hlength
    have hrest : (names.map fun other ↦ field? other (.object ((name, v) :: names.zip values))) =
        names.map fun other ↦ field? other (.object (names.zip values)) := by
      refine List.map_congr_left fun other hother ↦ field?_cons_of_ne ?_ v _
      rintro rfl
      exact hname hother
    have hself : name ∉ (names.zip values).map Prod.fst := by
      rwa [List.map_fst_zip (Nat.le_of_eq hlength)]
    rw [List.zip_cons_cons, List.map_cons, List.map_cons, field?_cons_self hself, hrest,
      ih values hnames hlength]

theorem items?_map {α : Type} {encode : α → Json} {decode : Json → Option α}
    (h : ∀ x, decode (encode x) = some x) (xs : List α) :
    items? decode (.list (xs.map encode)) = some xs := by
  induction xs with
  | nil => rfl
  | cons x xs ih =>
    have ih : (xs.map encode).mapM decode = some xs := ih
    change ((x :: xs).map encode).mapM decode = _
    simp [h, ih]

/-- An absent value is written as null, and no other value is. -/
theorem allowed_ofOption {α : Type} {encode : α → Json} {decode : Json → Option α}
    (h : ∀ x, decode (encode x) = some x) (hnull : ∀ x, encode x ≠ null) (o : Option α) :
    allowed decode (some (ofOption encode o)) = some o := by
  cases o with
  | none => rfl
  | some x =>
    have hsome : allowed decode (some (encode x)) = (decode (encode x)).map some := by
      unfold allowed
      split
      · next heq => cases heq
      · next heq => exact absurd (Option.some.inj heq) (hnull x)
      · next heq =>
        obtain rfl := Option.some.inj heq
        rfl
    rw [ofOption, hsome, h]
    rfl

theorem text?_text (value : String) : text? (text value) = some value := rfl

end Json

namespace Span

theorem ofJson?_toJson (s : Span) : ofJson? s.toJson = some s := by
  simp [ofJson?, toJson, Json.field?, Json.natural?]

end Span

namespace Located

variable {α : Type} {encode : α → Json} {decode : Json → Option α}

theorem ofJson?_toJson (h : ∀ x, decode (encode x) = some x) (x : Located α) :
    ofJson? decode (x.toJson encode) = some x := by
  have hrecord : Json.record? ["node", "span"] (x.toJson encode) =
      some [some (encode x.node), some x.span.toJson] :=
    Json.record?_zip ["node", "span"] [_, _] (by decide) rfl
  simp [ofJson?, hrecord, Json.needed, h, Span.ofJson?_toJson]

theorem listOfJson?_listToJson (h : ∀ x, decode (encode x) = some x) (xs : List (Located α)) :
    listOfJson? decode (listToJson encode xs) = some xs :=
  Json.items?_map (ofJson?_toJson h) xs

theorem ofJson?_text (x : Located String) : ofJson? Json.text? (x.toJson .text) = some x :=
  ofJson?_toJson Json.text?_text x

theorem allowed_ofOption (h : ∀ x, decode (encode x) = some x) (o : Option (Located α)) :
    Json.allowed (ofJson? decode) (some (.ofOption (toJson encode) o)) = some o :=
  Json.allowed_ofOption (ofJson?_toJson h) (fun _ ↦ nofun) o

theorem allowed_text (o : Option (Located String)) :
    Json.allowed (ofJson? Json.text?) (some (.ofOption (toJson .text) o)) = some o :=
  allowed_ofOption Json.text?_text o

end Located

/-! ## Choices -/

theorem Json.choice?_tagged (tag : String) (content : Json) :
    (tagged tag content).choice? = some (tag, some content) := by
  simp [choice?, tagged, field?, tag?]

theorem Json.choice?_untagged (tag : String) :
    (object [("type", text tag)]).choice? = some (tag, none) := by
  simp [choice?, field?, tag?]

theorem ConstraintWord.ofJson?_toJson (w : ConstraintWord) : ofJson? w.toJson = some w := by
  cases w <;> decide

theorem TemporalOperator.ofJson?_toJson (o : TemporalOperator) : ofJson? o.toJson = some o := by
  cases o <;> decide

theorem MentalOperator.ofJson?_toJson (o : MentalOperator) : ofJson? o.toJson = some o := by
  cases o <;> decide

theorem LaunchName.ofJson?_toJson (n : LaunchName) : ofJson? n.toJson = some n := by
  cases n <;> simp [ofJson?, toJson, Json.choice?_tagged, Json.choice?_untagged, Json.isVoid]

theorem Target.ofJson?_toJson (t : Target) : ofJson? t.toJson = some t := by
  cases t <;> simp [ofJson?, toJson, Json.choice?_tagged]

/-! ## Records -/

theorem Parameter.ofJson?_toJson (p : Parameter) : ofJson? p.toJson = some p := by
  have hrecord : Json.record? ["key", "value"] p.toJson =
      some [some (p.key.toJson .text), some (p.value.toJson .text)] :=
    Json.record?_zip ["key", "value"] [_, _] (by decide) rfl
  simp [ofJson?, hrecord, Json.needed, Located.ofJson?_text]

theorem AgentFile.ofJson?_toJson (f : AgentFile) : ofJson? f.toJson = some f := by
  have hrecord : Json.record? ["path", "params"] f.toJson =
      some [some (f.path.toJson .text),
        some (Located.listToJson Parameter.toJson f.parameters)] :=
    Json.record?_zip ["path", "params"] [_, _] (by decide) rfl
  simp [ofJson?, hrecord, Json.needed, Located.ofJson?_text,
    Located.listOfJson?_listToJson Parameter.ofJson?_toJson]

theorem Constraint.ofJson?_toJson (c : Constraint) : ofJson? c.toJson = some c := by
  have hrecord : Json.record? ["kind", "value"] c.toJson =
      some [some c.word.toJson, some (c.value.toJson .text)] :=
    Json.record?_zip ["kind", "value"] [_, _] (by decide) rfl
  simp [ofJson?, hrecord, Json.needed, Located.ofJson?_text, ConstraintWord.ofJson?_toJson]

theorem Entity.ofJson?_toJson (e : Entity) : ofJson? e.toJson = some e := by
  cases e <;> simp [ofJson?, toJson, Json.choice?_tagged, Json.choice?_untagged, Json.isVoid,
    Located.listOfJson?_listToJson Constraint.ofJson?_toJson]

theorem LaunchComponent.ofJson?_toJson (c : LaunchComponent) : ofJson? c.toJson = some c := by
  have hrecord : Json.record? ["name", "number", "target"] c.toJson =
      some [some (c.name.toJson LaunchName.toJson),
        some (.ofOption (Located.toJson .text) c.number),
        some (c.target.toJson Target.toJson)] :=
    Json.record?_zip ["name", "number", "target"] [_, _, _] (by decide) rfl
  simp [ofJson?, hrecord, Json.needed, Located.ofJson?_toJson LaunchName.ofJson?_toJson,
    Located.allowed_text, Located.ofJson?_toJson Target.ofJson?_toJson]

theorem LaunchRule.ofJson?_toJson (r : LaunchRule) : ofJson? r.toJson = some r := by
  have hrecord : Json.record? ["condition", "components"] r.toJson =
      some [some (.ofOption (Located.toJson Entity.toJson) r.condition),
        some (Located.listToJson LaunchComponent.toJson r.components)] :=
    Json.record?_zip ["condition", "components"] [_, _] (by decide) rfl
  simp [ofJson?, hrecord, Json.needed, Located.allowed_ofOption Entity.ofJson?_toJson,
    Located.listOfJson?_listToJson LaunchComponent.ofJson?_toJson]

theorem LaunchPolicy.ofJson?_toJson (p : LaunchPolicy) : ofJson? p.toJson = some p := by
  have hrecord : Json.record? ["rules"] p.toJson =
      some [some (Located.listToJson LaunchRule.toJson p.rules)] :=
    Json.record?_zip ["rules"] [_] (by decide) rfl
  simp [ofJson?, hrecord, Json.needed,
    Located.listOfJson?_listToJson LaunchRule.ofJson?_toJson]

/-! ## Values of initialization parameters -/

namespace InitValue

theorem depth_tagged (tag : String) (content : Json) :
    (Json.tagged tag content).depth = max 1 content.depth + 1 := by
  simp [Json.tagged, Json.depth, Json.depthOfFields]

mutual

theorem ofJsonWithin?_toJson (v : InitValue) (levels : Nat) (h : v.toJson.depth ≤ levels) :
    ofJsonWithin? levels v.toJson = some v := by
  cases levels with
  | zero => cases v <;> simp [toJson, depth_tagged] at h
  | succ levels =>
    cases v with
    | identifier text => simp [ofJsonWithin?, toJson, Json.choice?_tagged]
    | integer text => simp [ofJsonWithin?, toJson, Json.choice?_tagged]
    | decimal text => simp [ofJsonWithin?, toJson, Json.choice?_tagged]
    | string text => simp [ofJsonWithin?, toJson, Json.choice?_tagged]
    | function name args =>
      have hargs : Json.depthOfItems (listToJson args) ≤ levels := by
        simp only [toJson, depth_tagged, Json.depth, Json.depthOfFields] at h
        omega
      simp [ofJsonWithin?, toJson, Json.choice?_tagged, Json.field?, Json.text?,
        items?_listToJson args levels hargs]
    | list items =>
      have hitems : Json.depthOfItems (listToJson items) ≤ levels := by
        simp only [toJson, depth_tagged, Json.depth] at h
        omega
      simp [ofJsonWithin?, toJson, Json.choice?_tagged, items?_listToJson items levels hitems]

theorem items?_listToJson (vs : List InitValue) (levels : Nat)
    (h : Json.depthOfItems (listToJson vs) ≤ levels) :
    Json.items? (ofJsonWithin? levels) (.list (listToJson vs)) = some vs := by
  cases vs with
  | nil => rfl
  | cons v vs =>
    rw [listToJson, Json.depthOfItems, Nat.max_le] at h
    have hrest : (listToJson vs).mapM (ofJsonWithin? levels) = some vs :=
      items?_listToJson vs levels h.2
    simp [Json.items?, listToJson, ofJsonWithin?_toJson v levels h.1, hrest]

end

theorem ofJson?_toJson (v : InitValue) : ofJson? v.toJson = some v :=
  ofJsonWithin?_toJson v _ (Nat.le_refl _)

end InitValue

/-! ## Environments -/

theorem InitEntry.ofJson?_toJson (e : InitEntry) : ofJson? e.toJson = some e := by
  have hrecord : Json.record? ["key", "value"] e.toJson =
      some [some (e.key.toJson .text), some (e.value.toJson InitValue.toJson)] :=
    Json.record?_zip ["key", "value"] [_, _] (by decide) rfl
  simp [ofJson?, hrecord, Json.needed, Located.ofJson?_text,
    Located.ofJson?_toJson InitValue.ofJson?_toJson]

theorem Environment.ofJson?_toJson (e : Environment) : ofJson? e.toJson = some e := by
  have hrecord : Json.record? ["env", "init"] e.toJson =
      some [some (e.archive.toJson .text), some (Located.listToJson InitEntry.toJson e.init)] :=
    Json.record?_zip ["env", "init"] [_, _] (by decide) rfl
  simp [ofJson?, hrecord, Json.needed, Located.ofJson?_text,
    Located.listOfJson?_listToJson InitEntry.ofJson?_toJson]

/-! ## Files -/

/-- The extra environments are written only when there are some. -/
theorem MasFile.record?_toJson (f : MasFile) :
    Json.record? ["environment", "extra_environments", "agent_files", "launch_policy"] f.toJson =
      some [some (.ofOption (Located.toJson Environment.toJson) f.environment),
        if f.extraEnvironments.isEmpty then none
        else some (.list (f.extraEnvironments.map Span.toJson)),
        some (Located.listToJson AgentFile.toJson f.agentFiles),
        some (.ofOption (Located.toJson LaunchPolicy.toJson) f.launchPolicy)] := by
  unfold toJson
  cases hextra : f.extraEnvironments.isEmpty <;> simp [Json.record?, Json.field?]

theorem MasFile.ofJson?_toJson (f : MasFile) : ofJson? f.toJson = some f := by
  obtain ⟨environment, extra, files, policy⟩ := f
  have henvironment := Located.allowed_ofOption Environment.ofJson?_toJson environment
  have hfiles := Located.listOfJson?_listToJson AgentFile.ofJson?_toJson files
  have hpolicy := Located.allowed_ofOption LaunchPolicy.ofJson?_toJson policy
  cases extra with
  | nil => simp [ofJson?, record?_toJson, Json.needed, henvironment, hfiles, hpolicy]
  | cons span extra =>
    have hextra := Json.items?_map Span.ofJson?_toJson (span :: extra)
    rw [List.map_cons] at hextra
    simp [ofJson?, record?_toJson, Json.needed, henvironment, hextra, hfiles, hpolicy]

theorem MentalLiteral.ofJson?_toJson (l : MentalLiteral) : ofJson? l.toJson = some l := by
  have hrecord : Json.record? ["negated", "operator", "term"] l.toJson =
      some [some (.bool l.negated), some l.operator.toJson, some (l.term.toJson .text)] :=
    Json.record?_zip ["negated", "operator", "term"] [_, _, _] (by decide) rfl
  simp [ofJson?, hrecord, Json.needed, Json.bool?, MentalOperator.ofJson?_toJson,
    Located.ofJson?_text]

theorem TestCondition.ofJson?_toJson (c : TestCondition) : ofJson? c.toJson = some c := by
  have hrecord : Json.record? ["operator", "literals"] c.toJson =
      some [some c.operator.toJson,
        some (Located.listToJson MentalLiteral.toJson c.literals)] :=
    Json.record?_zip ["operator", "literals"] [_, _] (by decide) rfl
  simp [ofJson?, hrecord, Json.needed, TemporalOperator.ofJson?_toJson,
    Located.listOfJson?_listToJson MentalLiteral.ofJson?_toJson]

theorem AgentTest.ofJson?_toJson (t : AgentTest) : ofJson? t.toJson = some t := by
  have hrecord : Json.record? ["agent", "module", "conditions"] t.toJson =
      some [some (t.agent.toJson .text), some (.ofOption (Located.toJson .text) t.module),
        some (Located.listToJson TestCondition.toJson t.conditions)] :=
    Json.record?_zip ["agent", "module", "conditions"] [_, _, _] (by decide) rfl
  simp [ofJson?, hrecord, Json.needed, Located.ofJson?_text, Located.allowed_text,
    Located.listOfJson?_listToJson TestCondition.ofJson?_toJson]

theorem TestScript.ofJson?_toJson (s : TestScript) : ofJson? s.toJson = some s := by
  have hrecord : Json.record? ["mas", "timeout", "tests"] s.toJson =
      some [some (s.mas.toJson .text), some (.ofOption (Located.toJson .text) s.timeout),
        some (Located.listToJson AgentTest.toJson s.tests)] :=
    Json.record?_zip ["mas", "timeout", "tests"] [_, _, _] (by decide) rfl
  simp [ofJson?, hrecord, Json.needed, Located.ofJson?_text, Located.allowed_text,
    Located.listOfJson?_listToJson AgentTest.ofJson?_toJson]

end MasCheck
