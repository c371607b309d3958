import MasCheck.Proofs.Analysis.Placeless
import MasCheck.Proofs.Grammar.ParallelRules
import MasCheck.Proofs.Token.Comments

/-!
# Sections in any order

A section ends with a brace, so that it is read in the same way wherever it stands. The tree of a
file takes the sections of each kind in their order and does not tell how the kinds are mixed. So
sections may change places, as long as those of one kind do not change places among themselves:
apart from places the report says the same.
-/

namespace MasCheck

open HasErasure (erased)
open Diagnostic (placeless)

/-- The keyword that a section opens with. -/
def Grammar.Section.keyword? : Grammar.Section → Option Keyword
  | environment _ => some .environment
  | agentFiles _ => some .agentFiles
  | launchPolicy _ => some .launchPolicy
  | broken => none

/-- A well-formed section as it is written: it needs no repair, it derives from the grammar, and it
ends with its last token. -/
structure SectionText where
  text : String
  content : Grammar.Section
  sound : (Repaired.ofSource text).events = []
  derived : Strict.oneSection (Repaired.ofSource text).tokens content
  ended : (Repaired.ofSource text).tokens.getLast?.map (fun l ↦ l.span.stop) =
    some (Text.byteLength text.toList)

/-- The text consists of the sections, with blanks and comments in front of each and behind the
last. -/
inductive ConsistsOf : List Char → List SectionText → Prop
  | nil {padding : List Char} (hpadding : IsPadding false padding) : ConsistsOf padding []
  | cons {padding behind : List Char} {s : SectionText} {ss : List SectionText}
      (hpadding : IsPadding false padding) (hbehind : ConsistsOf behind ss) :
      ConsistsOf (padding ++ (s.text.toList ++ behind)) (s :: ss)

/-- The same sections in another order, where those of one kind keep their order. -/
structure IsReordering (xs ys : List SectionText) : Prop where
  perm : xs.Perm ys
  kept : ∀ word, xs.filter (fun s ↦ s.content.keyword? = some word) =
    ys.filter fun s ↦ s.content.keyword? = some word

/-! ## Sections -/

theorem Strict.closes_oneSection : Strict.oneSection.Closes := by
  have henvironment : Strict.environment.Closes := by
    refine Production.Closes.located ?_
    refine Production.closes_bind _ fun _ ↦ Production.closes_bind _ fun _ ↦ ?_
    exact Production.closes_bind _ fun _ ↦ Production.closes_bind _ fun _ ↦
      Production.closes_brace _
  have hagentFiles : Strict.agentFiles.Closes :=
    Production.closes_bind _ fun _ ↦ Production.closes_between _
  have hlaunchPolicy : Strict.launchPolicy.Closes := by
    refine Production.Closes.located (Production.closes_bind _ fun _ ↦ ?_)
    rw [Production.bind_pure_eq_map]
    exact (Production.closes_between _).map _
  exact (henvironment.map _).or ((hagentFiles.map _).or (hlaunchPolicy.map _))

namespace SectionText

/-- A section whose tokens are known. -/
def ofTokens (text : String) {tokens : List Lexeme} {content : Grammar.Section}
    (htokens : Repaired.ofSource text = ⟨tokens, []⟩) (hderived : Strict.oneSection tokens content)
    (hended : tokens.getLast?.map (fun l ↦ l.span.stop) = some (Text.byteLength text.toList)) :
    SectionText where
  text := text
  content := content
  sound := congrArg Repaired.events htokens
  derived := htokens ▸ hderived
  ended := htokens ▸ hended

theorem isClosed (s : SectionText) : IsClosed s.text.toList := by
  obtain ⟨us, ⟨start, stop⟩, htokens⟩ := Strict.closes_oneSection _ _ s.derived
  have hended := s.ended
  rw [htokens, List.getLast?_concat] at hended
  obtain rfl := Option.some.inj hended
  refine isClosed_of_lexFrom 0 s.text.toList us start ?_
  rw [Nat.zero_add, ← htokens, Repaired.tokens_eq_lex s.sound]
  rfl

/-- The tokens of a section, wherever it stands. -/
def tokens (s : SectionText) : List Lexeme :=
  (Repaired.ofSource s.text).tokens

theorem isFaulty_of_mem {s : SectionText} {t : Token} (ht : t ∈ s.tokens.map Lexeme.token) :
    t.isFaulty = false := by
  rw [tokens, Repaired.tokens_eq_lex s.sound] at ht
  exact Repaired.events_eq_nil_iff.1 s.sound t ht

end SectionText

/-! ## Sources made of sections -/

namespace ConsistsOf

variable {text : List Char} {source : String} {xs ys : List SectionText}

theorem tokens_lexFrom (h : ConsistsOf text xs) (here : Nat) :
    (lexFrom here text).map Lexeme.token = (xs.flatMap SectionText.tokens).map Lexeme.token := by
  induction h generalizing here with
  | nil hpadding =>
    have hsplit := Padding.split_append_of_isPadding hpadding []
    rw [List.append_nil] at hsplit
    rw [lexFrom_eq_nil here (congrArg Prod.snd hsplit)]
    rfl
  | @cons padding behind s ss hpadding _ ih =>
    have hsection : s.tokens = lexFrom 0 s.text.toList := Repaired.tokens_eq_lex s.sound
    rw [lexFrom_append_of_isPadding hpadding, s.isClosed.lexFrom_append, List.map_append, ih,
      List.flatMap_cons, List.map_append, hsection, map_token_lexFrom _ 0 s.text.toList]

theorem events_eq_nil (h : ConsistsOf source.toList xs) :
    (Repaired.ofSource source).events = [] := by
  rw [Repaired.events_eq_nil_iff]
  intro t ht
  rw [lex, h.tokens_lexFrom, List.map_flatMap] at ht
  obtain ⟨s, -, ht⟩ := List.mem_flatMap.1 ht
  exact SectionText.isFaulty_of_mem ht

end ConsistsOf

theorem SectionText.derives_sections (xs : List SectionText) :
    Strict.sections (xs.flatMap SectionText.tokens) (xs.map SectionText.content) := by
  induction xs with
  | nil => exact .nil
  | cons s xs ih => exact .cons s.derived ih

/-- The sections are read as if they stood alone, but for places. -/
theorem ConsistsOf.exists_usableTree? {source : String} {xs : List SectionText}
    (h : ConsistsOf source.toList xs) (file : String) : ∃ mas,
      (UnitTree.ofMas file source).usableTree? = some mas ∧
        erased mas = erased (Strict.fileOf (xs.map SectionText.content)) := by
  have hderived : Strict.masFile (xs.flatMap SectionText.tokens)
      (Strict.fileOf (xs.map SectionText.content)) :=
    ⟨_, SectionText.derives_sections xs, rfl⟩
  have hevents := h.events_eq_nil
  have htokens : (Repaired.ofSource source).tokens.map Lexeme.token =
      (xs.flatMap SectionText.tokens).map Lexeme.token := by
    rw [Repaired.tokens_eq_lex hevents]
    exact h.tokens_lexFrom 0
  have halike : List.Forall₂ (Lexeme.Alike fun _ _ ↦ True) (Repaired.ofSource source).tokens
      (xs.flatMap SectionText.tokens) := by
    rw [← List.forall₂_eq_eq_eq, List.forall₂_map_left_iff, List.forall₂_map_right_iff] at htokens
    exact htokens.imp fun _ _ hsame ↦ ⟨hsame, trivial⟩
  let finish := Text.byteLength source.toList
  obtain ⟨reach, -, hparse⟩ := Grammar.realizes_masFile.parse_of_derives hderived finish
  obtain ⟨htree, hfailures⟩ :
      erased (Grammar.masFile.parse (Repaired.ofSource source).tokens finish).tree =
          erased (Grammar.masFile.parse (xs.flatMap SectionText.tokens) finish).tree ∧
        List.Forall₂ (Failure.Alike fun _ _ ↦ True) _ _ :=
    Grammar.parallel_masFile.parse halike trivial
  rw [hparse] at htree hfailures
  obtain ⟨mas, hmas, herased⟩ := Option.map_eq_some_iff.1 htree
  have hread := Grammar.realizes_masFile.derives_of_parse hmas
    (List.forall₂_nil_right_iff.1 hfailures)
  exact ⟨mas, (UnitTree.usableTree?_read_iff Grammar.realizes_masFile).2 ⟨hevents, hread⟩, herased⟩

/-! ## Trees -/

namespace IsReordering

variable {xs ys : List SectionText}

theorem flatMap_eq (h : IsReordering xs ys) {β : Type} (word : Keyword)
    {g : Grammar.Section → List β} (hg : ∀ s, s.keyword? ≠ some word → g s = []) :
    (xs.map SectionText.content).flatMap g = (ys.map SectionText.content).flatMap g := by
  have hkept : ∀ zs : List SectionText, (zs.map SectionText.content).flatMap g =
      (zs.filter fun s ↦ s.content.keyword? = some word).flatMap fun s ↦ g s.content := by
    intro zs
    induction zs with
    | nil => rfl
    | cons s zs ih =>
      rw [List.map_cons, List.flatMap_cons, ih, List.filter_cons]
      split
      · rfl
      · next hother => rw [hg _ (by simpa using hother), List.nil_append]
  rw [hkept xs, hkept ys, h.kept]

theorem filterMap_eq (h : IsReordering xs ys) {β : Type} (word : Keyword)
    {g : Grammar.Section → Option β} (hg : ∀ s, s.keyword? ≠ some word → g s = none) :
    (xs.map SectionText.content).filterMap g = (ys.map SectionText.content).filterMap g := by
  rw [List.filterMap_eq_flatMap_toList, List.filterMap_eq_flatMap_toList]
  refine h.flatMap_eq word fun s hs ↦ ?_
  rw [hg s hs]
  rfl

theorem fileOf_eq (h : IsReordering xs ys) :
    Strict.fileOf (xs.map SectionText.content) = Strict.fileOf (ys.map SectionText.content) := by
  have henvironments : Strict.environmentsOf (xs.map SectionText.content) =
      Strict.environmentsOf (ys.map SectionText.content) := by
    refine h.filterMap_eq .environment fun s hs ↦ ?_
    cases s with
    | environment env => exact absurd rfl hs
    | _ => rfl
  have hpolicies : Strict.policiesOf (xs.map SectionText.content) =
      Strict.policiesOf (ys.map SectionText.content) := by
    refine h.filterMap_eq .launchPolicy fun s hs ↦ ?_
    cases s with
    | launchPolicy policy => exact absurd rfl hs
    | _ => rfl
  have hfiles : Strict.agentFilesOf (xs.map SectionText.content) =
      Strict.agentFilesOf (ys.map SectionText.content) := by
    refine h.flatMap_eq .agentFiles fun s hs ↦ ?_
    cases s with
    | agentFiles files => exact absurd rfl hs
    | _ => rfl
  unfold Strict.fileOf
  rw [henvironments, hpolicies, hfiles]

end IsReordering

/-! ## Reports -/

namespace Report

variable {source : String} {mas : MasFile}

theorem ofMas_of_usableTree? {file : String}
    (h : (UnitTree.ofMas file source).usableTree? = some mas) (p : Probe) (o : Options) :
    ofMas file source p o =
      let a := Inquiry.analyzeMas ⟨.ofText file source, p, o⟩ mas
      ⟨file, Diagnostic.sortByPosition a.diagnostics, true, some a.withoutFindings⟩ := by
  have hnil : (UnitTree.ofMas file source).diagnostics = [] :=
    (UnitTree.usableTree?_read_eq_some_iff.1 h).2
  unfold ofMas
  dsimp only
  rw [h, hnil]
  rfl

/-- Sources with the same sections in another order get the same report but for places. -/
theorem ofMas_reordered {source source' : String} {xs ys : List SectionText}
    (hxs : ConsistsOf source.toList xs) (hys : ConsistsOf source'.toList ys)
    (h : IsReordering xs ys) (file file' : String) (p : Probe) (o : Options) :
    ((ofMas file source p o).diagnostics.map placeless).Perm
        ((ofMas file' source' p o).diagnostics.map placeless) ∧
      ∃ a a', (ofMas file source p o).analysis = some a ∧
        (ofMas file' source' p o).analysis = some a' ∧ a.SameAgents a' := by
  obtain ⟨mas, hmas, herased⟩ := hxs.exists_usableTree? file
  obtain ⟨mas', hmas', herased'⟩ := hys.exists_usableTree? file'
  rw [← h.fileOf_eq, ← herased] at herased'
  obtain ⟨hfindings, hagents⟩ := Inquiry.analyzeMas_of_erased_eq (.ofText file source)
    (.ofText file' source') p o herased'.symm
  rw [ofMas_of_usableTree? hmas, ofMas_of_usableTree? hmas']
  refine ⟨?_, _, _, rfl, rfl, hagents.agentNames, hagents.launched, hagents.canLaunch⟩
  have hsorted : ∀ ds, ((Diagnostic.sortByPosition ds).map placeless).Perm (ds.map placeless) :=
    fun ds ↦ (List.mergeSort_perm ds _).map placeless
  refine (hsorted _).trans ?_
  rw [hfindings]
  exact (hsorted _).symm

/-! ## Two sections in both orders -/

open Strict

/-- Two agent files of one name. -/
def sharedNameFiles : SectionText :=
  .ofTokens ("agentfiles" ++ braced r#""a/b.goal"."b/b.goal"."#) (by decide +kernel)
    (derives_agentFiles (.cons (derives_entryAt "a/b.goal" 11 21 22)
      (.cons (derives_entryAt "b/b.goal" 22 32 33) .nil)) ⟨0, 10⟩ ⟨10, 11⟩ ⟨33, 34⟩)
    (by decide +kernel)

/-- A rule that launches the second one. -/
def sharedNamePolicy : SectionText :=
  .ofTokens ("launchpolicy" ++ braced r#"launch x:"b/b.goal"."#) (by decide +kernel)
    (derives_launchPolicy (derives_componentAt "x" "b/b.goal" 20 21 22 32) ⟨0, 12⟩ ⟨12, 13⟩
      ⟨13, 19⟩ ⟨32, 33⟩ ⟨33, 34⟩)
    (by decide +kernel)

/-- The rule may stand before the agent files. -/
theorem ofMas_reordered_sharedName :
    ConsistsOf (sharedNameFiles.text ++ " " ++ sharedNamePolicy.text).toList
        [sharedNameFiles, sharedNamePolicy] ∧
      ConsistsOf ("% rules\n" ++ sharedNamePolicy.text ++ sharedNameFiles.text).toList
        [sharedNamePolicy, sharedNameFiles] ∧
      IsReordering [sharedNameFiles, sharedNamePolicy] [sharedNamePolicy, sharedNameFiles] ∧
      ((ofMas "m" (sharedNameFiles.text ++ " " ++ sharedNamePolicy.text)
          ⟨fun _ ↦ true, fun _ _ ↦ .ok zipSignature⟩ .standard).diagnostics.map placeless).Perm
        ((ofMas "m" ("% rules\n" ++ sharedNamePolicy.text ++ sharedNameFiles.text)
          ⟨fun _ ↦ true, fun _ _ ↦ .ok zipSignature⟩ .standard).diagnostics.map placeless) := by
  have hblank : IsPadding false [' '] := .blank (by decide) .nil
  have hcomment : IsPadding false "% rules\n".toList := by
    simpa using @IsPadding.line false " rules".toList [] (by decide) .nil
  have hfirst : ConsistsOf (sharedNameFiles.text ++ " " ++ sharedNamePolicy.text).toList
      [sharedNameFiles, sharedNamePolicy] := by
    have h := ConsistsOf.cons (s := sharedNameFiles) .nil
      (.cons (s := sharedNamePolicy) hblank (.nil .nil))
    simpa using h
  have hsecond : ConsistsOf ("% rules\n" ++ sharedNamePolicy.text ++ sharedNameFiles.text).toList
      [sharedNamePolicy, sharedNameFiles] := by
    have h := ConsistsOf.cons (s := sharedNamePolicy) hcomment
      (.cons (s := sharedNameFiles) .nil (.nil .nil))
    simpa using h
  have hreordering : IsReordering [sharedNameFiles, sharedNamePolicy]
      [sharedNamePolicy, sharedNameFiles] := by
    have hfiles : sharedNameFiles.content.keyword? = some .agentFiles := rfl
    have hpolicy : sharedNamePolicy.content.keyword? = some .launchPolicy := rfl
    refine ⟨.swap _ _ _, fun word ↦ ?_⟩
    cases word <;> simp [hfiles, hpolicy]
  exact ⟨hfirst, hsecond, hreordering,
    (ofMas_reordered hfirst hsecond hreordering "m" "m" _ .standard).1⟩

end Report

end MasCheck
