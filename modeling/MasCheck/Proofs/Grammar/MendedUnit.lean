import MasCheck.Proofs.Diagnostic.Collected
import MasCheck.Proofs.Grammar.ConfinedRules
import MasCheck.Proofs.Grammar.MendedBlock

/-!
# Units with broken statements

A sketch is a unit in which everything is well formed but the statements of its blocks, which may
be any chunks. A sketched unit has a tree, made of the statements that its chunks are worth. Each
broken chunk is told once and in its turn, by a finding at one of its tokens.
-/

namespace MasCheck

/-! ## MAS files -/

/-- A section of a sketch. -/
inductive Sketch
  | environment (ts : List Lexeme) (env : Located Environment) (h : Strict.environment ts env)
  | agentFiles (word : Span) (block : Block)
  | launchPolicy (word : Span) (block : Block)

namespace Sketch

def tokens : Sketch → List Lexeme
  | environment ts _ _ => ts
  | agentFiles word block => ⟨.keyword .agentFiles, word⟩ :: block.tokens
  | launchPolicy word block => ⟨.keyword .launchPolicy, word⟩ :: block.tokens

noncomputable def broken : Sketch → List Chunk
  | environment _ _ _ => []
  | agentFiles _ block => Strict.agentFile.broken block.chunks
  | launchPolicy _ block => Strict.launchRule.broken block.chunks

/-- The section that a sketch is worth: with the statements that its chunks are worth. -/
def Mended : Sketch → Grammar.Section → Prop
  | environment _ env _, s => s = .environment env
  | agentFiles _ block, s =>
    ∃ found, block.Mended Strict.agentFile found ∧ s = .agentFiles (found.filterMap id)
  | launchPolicy word block, s =>
    ∃ found, block.Mended Strict.launchRule found ∧
      s = .launchPolicy
        ⟨⟨found.filterMap id⟩, Lexeme.spanOf (⟨.keyword .launchPolicy, word⟩ :: block.tokens)⟩

theorem sublist_broken (sketches : List Sketch) :
    ((sketches.flatMap broken).flatMap Chunk.tokens).Sublist (sketches.flatMap tokens) := by
  rw [List.flatMap_assoc]
  refine List.Sublist.flatMap_right sketches fun s _ ↦ ?_
  cases s with
  | environment ts env h => exact List.nil_sublist ts
  | agentFiles word block => exact (block.sublist_broken _).cons _
  | launchPolicy word block => exact (block.sublist_broken _).cons _

theorem tokens_ne_nil (s : Sketch) : s.tokens ≠ [] := by
  cases s with
  | environment ts env h => exact Production.Solid.located (.bind (.exactly _) _) ts env h
  | agentFiles word block => exact List.cons_ne_nil _ _
  | launchPolicy word block => exact List.cons_ne_nil _ _

end Sketch

namespace Grammar

open MasCheck.Parser

variable {c : Cursor} {n : Notes} {rest : List Lexeme} {word : Span} {block : Block}

theorem mends_agentFilesSection
    (hrest : c.rest = (Sketch.agentFiles word block).tokens ++ rest) :
    (agentFilesSection c n).Mends c (Sketch.agentFiles word block).tokens
      (Strict.agentFile.broken block.chunks)
      fun files ↦ ∃ found, block.Mended Strict.agentFile found ∧ files = found.filterMap id := by
  -- The label of the section sets aside all failures from before it.
  have hblock := realizes_agentFile.mends_block confined_agentFile solid_agentFile
    refuses_agentFile (c := c.after ⟨.keyword .agentFiles, word⟩ (block.tokens ++ rest))
    (n := n.clear.look c.index) rfl nofun
  apply mends_labelledWith
  rw [bind_of_done (keyword_of_rest hrest)]
  exact (mends_map hblock _ fun found hfound ↦ ⟨found, hfound, rfl⟩).behind (.single hrest)

theorem mends_launchPolicySection
    (hrest : c.rest = (Sketch.launchPolicy word block).tokens ++ rest) :
    (launchPolicySection c n).Mends c (Sketch.launchPolicy word block).tokens
      (Strict.launchRule.broken block.chunks)
      fun policy ↦ ∃ found, block.Mended Strict.launchRule found ∧
        policy = ⟨⟨found.filterMap id⟩, Lexeme.spanOf (Sketch.launchPolicy word block).tokens⟩ := by
  have hblock := realizes_launchRule.mends_block confined_launchRule solid_launchRule
    refuses_launchRule (c := c.after ⟨.keyword .launchPolicy, word⟩ (block.tokens ++ rest))
    (n := n.clear.look c.index) rfl nofun
  have hbody : ((do
      keyword .launchPolicy
      let rules ← between .leftBrace .rightBrace (many (statement launchRule))
      return { rules := rules.filterMap id } : Parser LaunchPolicy) c n.clear).Mends c
        (Sketch.launchPolicy word block).tokens (Strict.launchRule.broken block.chunks)
        fun policy ↦ ∃ found, block.Mended Strict.launchRule found ∧
          policy = ⟨found.filterMap id⟩ := by
    rw [bind_of_done (keyword_of_rest hrest)]
    exact (mends_map hblock _ fun found hfound ↦ ⟨found, hfound, rfl⟩).behind (.single hrest)
  have hlocated := mends_located hbody (Sketch.launchPolicy word block).tokens_ne_nil
  apply mends_labelledWith
  refine hlocated.imp fun policy hpolicy ↦ ?_
  obtain ⟨⟨found, hfound, hnode⟩, hspan⟩ := hpolicy
  exact ⟨found, hfound, by rw [← hnode, ← hspan]⟩

theorem mends_anySection (s : Sketch) (hrest : c.rest = s.tokens ++ rest) :
    (anySection c n).Mends c s.tokens s.broken s.Mended := by
  apply mends_resumeBefore
  apply mends_recoverBy
  cases s with
  | environment ts env h =>
    obtain ⟨d, hd, -⟩ := Cursor.Reaches.of_rest hrest
    have hderives : Strict.oneSection ts (.environment env) := .inl ⟨env, h, rfl⟩
    exact .of_yields (realizes_soundSection.complete hd hderives trivial) hd rfl
  | agentFiles word block =>
    have hother : (⟨.keyword .agentFiles, word⟩ : Lexeme).token ≠ .keyword .environment := nofun
    apply mends_or_right
    · exact refuses_bind (refuses_environmentSection hother) _ c n hrest
    · apply mends_or_left
      refine mends_map (mends_agentFilesSection hrest) _ ?_
      rintro files ⟨found, hfound, rfl⟩
      exact ⟨found, hfound, rfl⟩
  | launchPolicy word block =>
    have hother : (⟨.keyword .launchPolicy, word⟩ : Lexeme).token ≠ .keyword .environment := nofun
    have hother' : (⟨.keyword .launchPolicy, word⟩ : Lexeme).token ≠ .keyword .agentFiles := nofun
    apply mends_or_right
    · exact refuses_bind (refuses_environmentSection hother) _ c n hrest
    · apply mends_or_right
      · exact refuses_bind (refuses_agentFilesSection hother') _ c _ hrest
      · refine mends_map (mends_launchPolicySection hrest) _ ?_
        rintro policy ⟨found, hfound, rfl⟩
        exact ⟨found, hfound, rfl⟩

theorem mends_masFile (sketches : List Sketch)
    (hrest : c.rest = sketches.flatMap Sketch.tokens) :
    (masFile c n).Mends c (sketches.flatMap Sketch.tokens) (sketches.flatMap Sketch.broken)
      fun mas ↦ ∃ sections, List.Forall₂ Sketch.Mended sketches sections ∧
        mas = Strict.fileOf sections := by
  have hall : c.rest = sketches.flatMap Sketch.tokens ++ [] := by rw [hrest, List.append_nil]
  have hsections := mends_many (I := fun _ _ ↦ True) (n := n.clear) sketches
    (fun s c n rest hs _ ↦ ⟨mends_anySection s hs, trivial⟩) Sketch.tokens_ne_nil
    refuses_anySection_nil hall trivial
  apply mends_labelledWith
  rw [← List.append_nil (sketches.flatMap Sketch.tokens)]
  refine mends_bind hsections fun sections n' h ↦ ?_
  have hend : (many anySection c n.clear).cursor.rest = [] :=
    List.append_cancel_left (hsections.reaches.rest_eq.symm.trans hall)
  refine ⟨_, _, ?_, .refl _, sections, h, foldl_addSection [] sections⟩
  rw [bind_of_done (endOfInput_of_nil hend _)]
  exact Outcome.yields_done _ _ _

end Grammar

/-! ## Test scripts -/

/-- What stands for the module in front of the conditions of a test. It is left out only where the
first chunk does not name a module. -/
inductive ModulePart (block : Block) : List Lexeme → Option (Located String) → Prop
  | named {ts : List Lexeme} {name : Located String} (h : Strict.moduleRef ts name) :
      ModulePart block ts (some name)
  | omitted (h : ∀ k ∈ block.chunks.head?, Strict.moduleRef.Breaks k.tokens) :
      ModulePart block [] none

/-- A test of a sketch. -/
structure TestSketch where
  agent : Located String
  block : Block
  moduleTokens : List Lexeme
  module : Option (Located String)
  isModule : ModulePart block moduleTokens module

namespace TestSketch

def tokens (s : TestSketch) : List Lexeme :=
  ⟨.identifier s.agent.node, s.agent.span⟩ :: ⟨.sign .leftBrace, s.block.opening⟩ ::
    (s.moduleTokens ++ (s.block.body ++ [⟨.sign .rightBrace, s.block.closing⟩]))

noncomputable def broken (s : TestSketch) : List Chunk :=
  Strict.testCondition.broken s.block.chunks

/-- The test that a sketch is worth: with the conditions that its chunks are worth. -/
def Mended (s : TestSketch) (t : Located AgentTest) : Prop :=
  ∃ found, s.block.Mended Strict.testCondition found ∧
    t = ⟨{ agent := s.agent, module := s.module, conditions := found.filterMap id },
      Lexeme.spanOf s.tokens⟩

theorem sublist_broken (s : TestSketch) : (s.broken.flatMap Chunk.tokens).Sublist s.tokens := by
  have hbody : (s.broken.flatMap Chunk.tokens).Sublist s.block.body :=
    List.filter_sublist.flatMap _
  have hclosed := hbody.trans (List.sublist_append_left _ [⟨.sign .rightBrace, s.block.closing⟩])
  exact ((hclosed.trans (List.sublist_append_right s.moduleTokens _)).cons _).cons _

theorem tokens_ne_nil (s : TestSketch) : s.tokens ≠ [] :=
  List.cons_ne_nil _ _

end TestSketch

structure ScriptSketch where
  word : Span
  opening : Span
  masTokens : List Lexeme
  mas : Located String
  isMas : Strict.masRef masTokens mas
  timeoutTokens : List Lexeme
  timeout : Option (Located String)
  isTimeout : Strict.timeout.optional timeoutTokens timeout
  tests : List TestSketch
  closing : Span

namespace ScriptSketch

def tokens (s : ScriptSketch) : List Lexeme :=
  ⟨.keyword .masTest, s.word⟩ :: ⟨.sign .leftBrace, s.opening⟩ ::
    (s.masTokens ++ (s.timeoutTokens ++
      (s.tests.flatMap TestSketch.tokens ++ [⟨.sign .rightBrace, s.closing⟩])))

noncomputable def broken (s : ScriptSketch) : List Chunk :=
  s.tests.flatMap TestSketch.broken

theorem sublist_broken (s : ScriptSketch) :
    (s.broken.flatMap Chunk.tokens).Sublist s.tokens := by
  have htests : (s.broken.flatMap Chunk.tokens).Sublist (s.tests.flatMap TestSketch.tokens) := by
    unfold broken
    rw [List.flatMap_assoc]
    exact List.Sublist.flatMap_right s.tests fun t _ ↦ t.sublist_broken
  have hclosed := htests.trans (List.sublist_append_left _ [⟨.sign .rightBrace, s.closing⟩])
  have htimeout := hclosed.trans (List.sublist_append_right s.timeoutTokens _)
  exact ((htimeout.trans (List.sublist_append_right s.masTokens _)).cons _).cons _

def Mended (s : ScriptSketch) (t : TestScript) : Prop :=
  t.mas = s.mas ∧ t.timeout = s.timeout ∧ List.Forall₂ TestSketch.Mended s.tests t.tests

end ScriptSketch

namespace Grammar

open MasCheck.Parser

variable {c : Cursor} {n : Notes} {rest : List Lexeme}

/-- The module of a test is read or found missing. -/
theorem yields_optional_moduleRef (s : TestSketch)
    (hrest : c.rest =
      s.moduleTokens ++ (s.block.body ++ ⟨.sign .rightBrace, s.block.closing⟩ :: rest))
    (hn : n.Marked c.Near) :
    ∃ d, (optional moduleRef c n).Yields s.module d ∧ c.Reaches s.moduleTokens d ∧
      (optional moduleRef c n).notes.Marked d.Near := by
  obtain ⟨agent, block, ts, module, hmodule⟩ := s
  cases hmodule with
  | @named _ name h =>
    obtain ⟨d, hd, -⟩ := Cursor.Reaches.of_rest hrest
    have hname := realizes_moduleRef.complete (n := n) hd h trivial
    have hnear := confined_moduleRef.near_behind hn hname.value
    rw [hname.cursor] at hnear
    rw [optional_of_some hname.value]
    exact ⟨d, Outcome.map_yields_iff.2 ⟨name, hname, rfl⟩, hd, hnear⟩
  | omitted h =>
    have hnone : (moduleRef c n).value = none := by
      cases hchunks : block.chunks with
      | nil =>
        simp only [Block.body, hchunks, List.flatMap_nil, List.nil_append] at hrest
        exact refuses_moduleRef (by simp) c n hrest
      | cons k ks =>
        have hfirst : Strict.moduleRef.Breaks k.tokens := h k (by rw [hchunks]; rfl)
        simp only [Block.body, hchunks, List.flatMap_cons, Chunk.tokens, List.append_assoc,
          List.nil_append, List.singleton_append] at hrest
        cases hx : (moduleRef c n).value with
        | none => rfl
        | some x =>
          have hwhole : Strict.moduleRef k.tokens x :=
            (realizes_moduleRef.value_eq_some_iff confined_moduleRef k.dotless_body hrest).1 hx
          exact absurd hwhole (hfirst x)
    rw [optional_of_none hnone]
    exact ⟨c, Outcome.yields_done _ _ _, .refl c, confined_moduleRef.near hn⟩

/-- A test behind its opening brace. -/
theorem mends_testBody (s : TestSketch)
    (hrest : c.rest =
      s.moduleTokens ++ (s.block.body ++ ⟨.sign .rightBrace, s.block.closing⟩ :: rest))
    (hn : n.Marked c.Near) :
    ((do
      let module ← optional moduleRef
      let conditions ← many (statement testCondition)
      sign .rightBrace
      return { agent := s.agent, module, conditions := conditions.filterMap id } :
        Parser AgentTest) c n).Mends c
      (s.moduleTokens ++ (s.block.body ++ [⟨.sign .rightBrace, s.block.closing⟩])) s.broken
      fun t ↦ ∃ found, s.block.Mended Strict.testCondition found ∧
        t = { agent := s.agent, module := s.module, conditions := found.filterMap id } := by
  obtain ⟨d, hmodule, hd, hnear⟩ := yields_optional_moduleRef s hrest hn
  have hdrest : d.rest = s.block.body ++ ⟨.sign .rightBrace, s.block.closing⟩ :: rest :=
    List.append_cancel_left (hd.rest_eq.symm.trans hrest)
  have hbody := realizes_testCondition.mends_statements confined_testCondition solid_testCondition
    (fun _ _ hl ↦ refuses_testCondition hl) hdrest hnear
  rw [bind_of_yields hmodule]
  exact (mends_closed hbody hdrest _ fun found hfound ↦ ⟨found, hfound, rfl⟩).behind hd

theorem mends_agentTest (s : TestSketch) (hrest : c.rest = s.tokens ++ rest) :
    (agentTest c n).Mends c s.tokens s.broken s.Mended := by
  have hagent : Strict.identifier.located [⟨.identifier s.agent.node, s.agent.span⟩] s.agent :=
    ⟨⟨_, rfl, rfl⟩, rfl⟩
  have hfirst : c.rest = [⟨.identifier s.agent.node, s.agent.span⟩] ++ _ := hrest
  obtain ⟨d, hd, hdrest⟩ := Cursor.Reaches.of_rest hfirst
  have hname := realizes_located_identifier.complete (n := n.clear) hd hagent trivial
  have hnear := confined_identifier.located.near_after (Notes.marked_clear _ n) hname.value
  rw [hname.cursor] at hnear
  obtain ⟨e, n', hsign, he, herest, hnear⟩ := sign_step hdrest (by decide) hnear
  have hafter : e.rest = s.moduleTokens ++
      (s.block.body ++ ⟨.sign .rightBrace, s.block.closing⟩ :: rest) := by
    simp [herest]
  have hbody := mends_testBody s hafter hnear
  have hwhole : ((do
      let agent ← located identifier
      sign .leftBrace
      let module ← optional moduleRef
      let conditions ← many (statement testCondition)
      sign .rightBrace
      return { agent, module, conditions := conditions.filterMap id } :
        Parser AgentTest) c n.clear).Mends c s.tokens s.broken
      fun t ↦ ∃ found, s.block.Mended Strict.testCondition found ∧
        t = { agent := s.agent, module := s.module, conditions := found.filterMap id } := by
    rw [bind_of_yields hname, bind_of_done hsign]
    exact hbody.behind (hd.trans he)
  apply mends_labelledWith
  refine (mends_located hwhole s.tokens_ne_nil).imp fun t ht ↦ ?_
  obtain ⟨⟨found, hfound, hnode⟩, hspan⟩ := ht
  exact ⟨found, hfound, by rw [← hnode, ← hspan]⟩

/-- The tests of a script, up to its end. -/
theorem mends_tests (s : ScriptSketch)
    (hrest : c.rest = s.tests.flatMap TestSketch.tokens ++ [⟨.sign .rightBrace, s.closing⟩]) :
    ((do
      let tests ← many anyTest
      sign .rightBrace
      endOfInput
      return { mas := s.mas, timeout := s.timeout, tests } : Parser TestScript) c n).Mends c
      (s.tests.flatMap TestSketch.tokens ++ [⟨.sign .rightBrace, s.closing⟩]) s.broken
      s.Mended := by
  have hmany := mends_many (I := fun _ _ ↦ True) (n := n) s.tests
    (fun t c n rest ht _ ↦ ⟨mends_resumeBefore _ (mends_agentTest t ht), trivial⟩)
    TestSketch.tokens_ne_nil (refuses_anyTest rfl) hrest trivial
  have hclose : (many anyTest c n).cursor.rest = [⟨.sign .rightBrace, s.closing⟩] :=
    List.append_cancel_left (hmany.reaches.rest_eq.symm.trans hrest)
  refine mends_bind hmany fun tests n' hall ↦ ?_
  refine ⟨⟨s.mas, s.timeout, tests⟩, _, ?_, .single hclose, rfl, rfl, hall⟩
  rw [bind_of_done (sign_of_rest hclose), bind_of_done (endOfInput_of_nil rfl _)]
  exact Outcome.yields_done _ _ _

theorem refuses_timeout_of_sketch (s : ScriptSketch) :
    timeout.Refuses (s.tests.flatMap TestSketch.tokens ++ [⟨.sign .rightBrace, s.closing⟩]) := by
  cases s.tests with
  | nil => exact refuses_timeout (by simp)
  | cons t ts => exact refuses_timeout (by simp)

theorem mends_testScript (s : ScriptSketch) (hrest : c.rest = s.tokens) :
    (testScript c n).Mends c s.tokens s.broken s.Mended := by
  have hword := keyword_of_rest (n := n.clear) hrest
  obtain ⟨c₁, n₁, hopen, hc₁, hrest₁, -⟩ := sign_step (s := .leftBrace)
    (c := c.after ⟨.keyword .masTest, s.word⟩ _) (n := n.clear.look c.index) rfl (by decide) nofun
  obtain ⟨c₂, hc₂, hrest₂⟩ := Cursor.Reaches.of_rest hrest₁
  have hmas := realizes_masRef.complete (n := n₁) hc₂ s.isMas trivial
  obtain ⟨c₃, hc₃, hrest₃⟩ := Cursor.Reaches.of_rest hrest₂
  have htimeout := realizes_timeout.optional_anywhere.complete (n := (masRef c₁ n₁).notes) hc₃
    s.isTimeout (hrest₃ ▸ refuses_timeout_of_sketch s)
  have htests := mends_tests (n := (optional timeout c₂ (masRef c₁ n₁).notes).notes) s hrest₃
  apply mends_labelledWith
  rw [bind_of_done hword, bind_of_done hopen, bind_of_yields hmas, bind_of_yields htimeout]
  exact (((htests.behind hc₃).behind hc₂).behind hc₁).behind (.single hrest)

end Grammar

/-! ## Reports -/

theorem Parser.parse_of_mends {α : Type} {p : Parser α} {tokens : List Lexeme} {ks : List Chunk}
    {S : α → Prop} (h : ∀ c n, c.rest = tokens → (p c n).Mends c tokens ks S) (finish : Nat) :
    (∃ x, (p.parse tokens finish).tree = some x ∧ S x) ∧
      List.Forall₂ Failure.Blames (p.parse tokens finish).failures ks := by
  have hp := h (.start tokens finish) .start rfl
  have hrest : (p (.start tokens finish) .start).cursor.rest = [] := by
    have hall : tokens = tokens ++ (p (.start tokens finish) .start).cursor.rest :=
      hp.reaches.rest_eq
    exact List.append_right_eq_self.1 hall.symm
  have hend : (p.toEnd (.start tokens finish) .start).Mends (.start tokens finish) (tokens ++ [])
      ks S := by
    refine mends_bind hp fun x n' hx ↦ ⟨x, _, ?_, .refl _, hx⟩
    rw [bind_of_done (endOfInput_of_nil hrest n')]
    exact Outcome.yields_done _ _ _
  obtain ⟨x, hx, hS⟩ := hend.value
  rw [parse_eq]
  simp only [hx, Option.isNone_some, Bool.false_eq_true, if_false, List.append_nil]
  exact ⟨⟨x, rfl, hS⟩, hend.blames⟩

/-- The finding is at a token of the chunk. -/
def Chunk.Locates (map : SourceMap) (d : Diagnostic) (k : Chunk) : Prop :=
  ∃ l ∈ k.tokens, d.position = map.position l.span

theorem Failure.exists_blamed {fs : List Failure} {ks : List Chunk} {f : Failure}
    (h : List.Forall₂ Failure.Blames fs ks) (hf : f ∈ fs) : ∃ k ∈ ks, f.Blames k := by
  induction h with
  | nil => cases hf
  | @cons g k _ _ hg _ ih =>
    rcases List.mem_cons.1 hf with rfl | hf
    · exact ⟨k, List.mem_cons_self, hg⟩
    · obtain ⟨k', hk', hblames⟩ := ih hf
      exact ⟨k', List.mem_cons_of_mem k hk', hblames⟩

/-- Failures about different chunks begin at different places. -/
theorem Failure.pairwise_starts {fs : List Failure} {ks : List Chunk}
    (h : List.Forall₂ Failure.Blames fs ks)
    (hordered : InOrder ((ks.flatMap Chunk.tokens).map Lexeme.span)) :
    fs.Pairwise fun f g ↦ f.span.start ≠ g.span.start := by
  induction h with
  | nil => exact .nil
  | @cons f k fs ks hf hfs ih =>
    rw [List.flatMap_cons, List.map_append] at hordered
    refine .cons (fun g hg ↦ ?_) (ih (hordered.sublist (List.sublist_append_right _ _)))
    obtain ⟨l, hl, hfl⟩ := hf
    obtain ⟨k', hk', l', hl', hgl⟩ := exists_blamed hfs hg
    have hbefore := (List.pairwise_append.1 hordered.starts).2.2 l.span (List.mem_map_of_mem hl)
      l'.span (List.mem_map_of_mem (List.mem_flatMap.2 ⟨k', hk', hl'⟩))
    rw [hfl, hgl]
    exact Nat.ne_of_lt hbefore

namespace UnitTree

variable {α : Type} {p : Parser α} {ks : List Chunk} {S : α → Prop} {source : String}

theorem read_of_mends (file : String) (root : Rule)
    (h : ∀ c n, c.rest = (Repaired.ofSource source).tokens →
      (p c n).Mends c (Repaired.ofSource source).tokens ks S)
    (hks : (ks.flatMap Chunk.tokens).Sublist (Repaired.ofSource source).tokens) :
    (∃ x, S x ∧ (read p root file source).tree = some x) ∧
      List.Forall₂ (Chunk.Locates (.ofText file source))
        ((read p root file source).diagnostics.filter fun d ↦ d.kind.isMismatch) ks := by
  obtain ⟨⟨x, hx, hS⟩, hfailures⟩ := Parser.parse_of_mends h (Text.byteLength source.toList)
  refine ⟨⟨x, hS, hx⟩, ?_⟩
  have hordered := (Repaired.inOrder_tokens source).sublist (hks.map Lexeme.span)
  have hdistinct := Failure.pairwise_starts hfailures hordered
  rw [mismatches_read, Collector.firstMismatches_eq_self, List.map_map]
  · refine List.forall₂_map_left_iff.2 (hfailures.imp fun f k hf ↦ ?_)
    obtain ⟨l, hl, hspan⟩ := hf
    exact ⟨l, hl, congrArg (SourceMap.position _) hspan⟩
  · exact List.pairwise_map.2 hdistinct
  · exact fun _ _ ↦ List.not_mem_nil

theorem ofMas_of_sketches (file : String) {sketches : List Sketch}
    (htokens : (Repaired.ofSource source).tokens = sketches.flatMap Sketch.tokens) :
    (∃ mas, (∃ sections, List.Forall₂ Sketch.Mended sketches sections ∧
        mas = Strict.fileOf sections) ∧ (ofMas file source).tree = some mas) ∧
      List.Forall₂ (Chunk.Locates (.ofText file source))
        ((ofMas file source).diagnostics.filter fun d ↦ d.kind.isMismatch)
        (sketches.flatMap Sketch.broken) := by
  refine read_of_mends file .masFile ?_ (htokens ▸ Sketch.sublist_broken sketches)
  rw [htokens]
  exact fun c n hrest ↦ Grammar.mends_masFile sketches hrest

theorem ofScript_of_sketch (file : String) {sketch : ScriptSketch}
    (htokens : (Repaired.ofSource source).tokens = sketch.tokens) :
    (∃ script, sketch.Mended script ∧ (ofScript file source).tree = some script) ∧
      List.Forall₂ (Chunk.Locates (.ofText file source))
        ((ofScript file source).diagnostics.filter fun d ↦ d.kind.isMismatch)
        sketch.broken := by
  refine read_of_mends file .testScript ?_ (htokens ▸ sketch.sublist_broken)
  rw [htokens]
  exact fun c n hrest ↦ Grammar.mends_testScript sketch hrest

/-- Broken statements are isolated from each other and from what stands around them. -/
theorem mended_read (file source : String) :
    (∀ sketches : List Sketch,
      (Repaired.ofSource source).tokens = sketches.flatMap Sketch.tokens →
        (∃ sections, List.Forall₂ Sketch.Mended sketches sections ∧
          (ofMas file source).tree = some (Strict.fileOf sections)) ∧
        List.Forall₂ (Chunk.Locates (.ofText file source))
          ((ofMas file source).diagnostics.filter fun d ↦ d.kind.isMismatch)
          (sketches.flatMap Sketch.broken)) ∧
    ∀ sketch : ScriptSketch, (Repaired.ofSource source).tokens = sketch.tokens →
      (∃ script, sketch.Mended script ∧ (ofScript file source).tree = some script) ∧
      List.Forall₂ (Chunk.Locates (.ofText file source))
        ((ofScript file source).diagnostics.filter fun d ↦ d.kind.isMismatch)
        sketch.broken := by
  refine ⟨fun sketches htokens ↦ ?_, fun sketch htokens ↦ ofScript_of_sketch file htokens⟩
  obtain ⟨⟨mas, ⟨sections, hsections, rfl⟩, htree⟩, hfindings⟩ := ofMas_of_sketches file htokens
  exact ⟨⟨sections, hsections, htree⟩, hfindings⟩

/-! ## A stray word -/

/-- A word stands in front of the only entry. -/
def strayWordFile : String :=
  "agentfiles" ++ Strict.braced r#"x"a"."#

def strayWordFileSketch : Sketch :=
  .agentFiles ⟨0, 10⟩
    { opening := ⟨10, 11⟩
      chunks := [{ body := [⟨.identifier "x", ⟨11, 12⟩⟩, ⟨.quoted .double "a", ⟨12, 15⟩⟩]
                   dot := ⟨15, 16⟩
                   plain := by decide }]
      closing := ⟨16, 17⟩ }

/-- A word stands in the place of the only condition. -/
def strayWordScript : String :=
  "masTest" ++ Strict.braced (r#"mas="m".a"# ++ Strict.braced "x.")

def strayWordScriptSketch : ScriptSketch where
  word := ⟨0, 7⟩
  opening := ⟨7, 8⟩
  masTokens := _
  mas := _
  isMas := Strict.derives_masRefAt "m" 8 11 12 15 16
  timeoutTokens := []
  timeout := none
  isTimeout := rfl
  tests := [{ agent := ⟨"a", ⟨16, 17⟩⟩
              block := { opening := ⟨17, 18⟩
                         chunks := [{ body := [⟨.identifier "x", ⟨18, 19⟩⟩], dot := ⟨19, 20⟩
                                      plain := by decide }]
                         closing := ⟨20, 21⟩ }
              moduleTokens := []
              module := none
              isModule := .omitted (by
                rintro k ⟨⟩ name ⟨us, vs, u, htokens, ⟨span, rfl⟩, -⟩
                cases htokens) }]
  closing := ⟨21, 22⟩

theorem tokens_strayWordFile : (Repaired.ofSource strayWordFile).tokens =
    [strayWordFileSketch].flatMap Sketch.tokens := by
  decide +kernel

theorem tokens_strayWordScript :
    (Repaired.ofSource strayWordScript).tokens = strayWordScriptSketch.tokens := by
  decide +kernel

theorem mended_strayWord :
    ((∃ sections, List.Forall₂ Sketch.Mended [strayWordFileSketch] sections ∧
        (ofMas "m" strayWordFile).tree = some (Strict.fileOf sections)) ∧
      List.Forall₂ (Chunk.Locates (.ofText "m" strayWordFile))
        ((ofMas "m" strayWordFile).diagnostics.filter fun d ↦ d.kind.isMismatch)
        strayWordFileSketch.broken) ∧
    (∃ script, strayWordScriptSketch.Mended script ∧
        (ofScript "t" strayWordScript).tree = some script) ∧
      List.Forall₂ (Chunk.Locates (.ofText "t" strayWordScript))
        ((ofScript "t" strayWordScript).diagnostics.filter fun d ↦ d.kind.isMismatch)
        strayWordScriptSketch.broken := by
  have hbroken : [strayWordFileSketch].flatMap Sketch.broken = strayWordFileSketch.broken :=
    List.flatMap_singleton ..
  exact ⟨hbroken ▸ (mended_read "m" strayWordFile).1 _ tokens_strayWordFile,
    (mended_read "t" strayWordScript).2 _ tokens_strayWordScript⟩

end UnitTree

end MasCheck
