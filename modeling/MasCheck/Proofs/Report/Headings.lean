import MasCheck.Diagnostic.Excerpt
import MasCheck.Proofs.Report.Listing
import MasCheck.Proofs.Source.ScreenLines

/-!
# Headings of excerpts

The frame of an excerpt names the place of its finding once more, as it is found by going over the
lines of a screen with the offset of the finding. That offset counts bytes and is taken there for a
number of characters, so that the heading agrees with the position of the finding only if there is
no character of several bytes in front of it, and if the lines in front of it are those of a screen.
-/

namespace MasCheck

/-! ## Characters of one byte -/

namespace Text

theorem length_le_byteLength (cs : List Char) : cs.length ≤ byteLength cs := by
  induction cs with
  | nil => exact Nat.le_refl 0
  | cons c cs ih =>
    have hsize := Char.utf8Size_pos c
    rw [List.length_cons, byteLength_cons]
    omega

theorem byteLength_eq_length_iff {cs : List Char} :
    byteLength cs = cs.length ↔ ∀ c ∈ cs, c.utf8Size = 1 := by
  induction cs with
  | nil => exact ⟨fun _ ↦ List.forall_mem_nil _, fun _ ↦ rfl⟩
  | cons c cs ih =>
    have hsize := Char.utf8Size_pos c
    have hle := length_le_byteLength cs
    rw [List.forall_mem_cons, ← ih, List.length_cons, byteLength_cons]
    omega

end Text

/-! ## The place that a heading names -/

/-- The place that the frame of an excerpt names, between its brackets. -/
def Diagnostic.heading? (file : String) (source : List Char) (d : Diagnostic) : Option String :=
  ((d.excerptRows file source)[1]?.bind fun row ↦ row[4]?).map Stroke.text

theorem Diagnostic.heading?_eq (file : String) (source : List Char) (d : Diagnostic) :
    d.heading? file source =
      (d.position.span.bind (Excerpt.site? source)).map fun site ↦ site.place file := by
  unfold heading? excerptRows
  dsimp only
  cases d.position.span.bind (Excerpt.site? source) with
  | none => rfl
  | some site => rfl

theorem colon_not_mem_toDigits (n : Nat) : ':' ∉ Nat.toDigits 10 n := fun hmem ↦
  absurd (Nat.isDigit_of_mem_toDigits (by decide) (by decide) hmem) (by decide)

theorem toDigits_injective : Function.Injective (Nat.toDigits 10) := by
  intro m n h
  rw [← Nat.ofDigitChars_ten_toDigits (n := m), h, Nat.ofDigitChars_ten_toDigits]

/-- A line and a column can be read off their text. -/
theorem placeText_inj {file : String} {line column line' column' : Nat} :
    file ++ ":" ++ toString line ++ ":" ++ toString column =
      file ++ ":" ++ toString line' ++ ":" ++ toString column' ↔
        (line, column) = (line', column') := by
  constructor
  · intro h
    have hchars := congrArg String.toList h
    simp only [String.toList_append, List.append_assoc, List.append_cancel_left_eq] at hchars
    have hdigits : Nat.toDigits 10 line ++ ':' :: Nat.toDigits 10 column =
        Nat.toDigits 10 line' ++ ':' :: Nat.toDigits 10 column' := by
      rw [← Nat.toList_repr, ← Nat.toList_repr, ← Nat.toList_repr, ← Nat.toList_repr]
      exact hchars
    obtain ⟨hline, -, hcolumn⟩ := (List.append_cons_inj_of_notMem (colon_not_mem_toDigits _)
      (colon_not_mem_toDigits _)).1 hdigits
    exact Prod.ext (toDigits_injective hline) (toDigits_injective hcolumn)
  · intro h
    obtain ⟨rfl, rfl⟩ := Prod.mk.inj h
    rfl

namespace Excerpt

variable {text front back : List Char} {span : Span}

theorem screenLineAt?_isSome {offset : Nat} :
    (screenLineAt? text offset).isSome ↔ text ≠ [] ∧ offset ≤ text.length := by
  constructor
  · intro h
    unfold screenLineAt? at h
    split at h
    · next hle =>
      refine ⟨?_, hle⟩
      rintro rfl
      cases h
    · cases h
  · rintro ⟨hne, hle⟩
    obtain ⟨l, hl, -⟩ := exists_screenLineAt? hne hle
    rw [hl]
    rfl

theorem site?_eq (text : List Char) (span : Span) : site? text span =
    (screenLineAt? text span.start).bind fun first ↦
      (if span.stop ≤ span.start then some first else screenLineAt? text (span.stop - 1)).map
        fun last ↦ { first, last, span } := by
  unfold site?
  refine congrArg (Option.bind _) (funext fun first ↦ ?_)
  dsimp only
  split
  · rfl
  · cases screenLineAt? text (span.stop - 1) <;> rfl

/-- The first line of a site is the one at the offset of the span. -/
theorem first_of_site? {site : Site} (h : site? text span = some site) :
    screenLineAt? text span.start = some site.first ∧ site.span = span := by
  rw [site?_eq] at h
  obtain ⟨first, hfirst, h⟩ := Option.bind_eq_some_iff.1 h
  obtain ⟨last, -, rfl⟩ := Option.map_eq_some_iff.1 h
  exact ⟨hfirst, rfl⟩

theorem site?_isSome : (site? text span).isSome ↔
    text ≠ [] ∧ span.start ≤ text.length ∧ span.stop ≤ text.length + 1 := by
  rw [site?_eq]
  constructor
  · intro h
    obtain ⟨site, hsite⟩ := Option.isSome_iff_exists.1 h
    obtain ⟨first, hfirst, hsite⟩ := Option.bind_eq_some_iff.1 hsite
    obtain ⟨last, hlast, -⟩ := Option.map_eq_some_iff.1 hsite
    obtain ⟨hne, hstart⟩ := screenLineAt?_isSome.1 (Option.isSome_of_eq_some hfirst)
    refine ⟨hne, hstart, ?_⟩
    split at hlast
    · omega
    · have hstop := (screenLineAt?_isSome.1 (Option.isSome_of_eq_some hlast)).2
      omega
  · rintro ⟨hne, hstart, hstop⟩
    obtain ⟨first, hfirst, -⟩ := exists_screenLineAt? hne hstart
    rw [hfirst, Option.bind_some, Option.isSome_map]
    split
    · rfl
    · exact screenLineAt?_isSome.2 ⟨hne, Nat.sub_le_of_le_add hstop⟩

/-- What a site names is the place on a screen. -/
theorem place_of_site? {site : Site} (h : site? text span = some site) :
    (site.first.number + 1, site.span.start - site.first.start + 1) =
      screenPlace text span.start (1, 1) := by
  obtain ⟨hfirst, hspan⟩ := first_of_site? h
  obtain ⟨hne, hstart⟩ := screenLineAt?_isSome.1 (Option.isSome_of_eq_some hfirst)
  obtain ⟨l, hl, hplace⟩ := exists_screenLineAt? hne hstart
  obtain rfl := Option.some.inj (hl.symm.trans hfirst)
  rw [hspan]
  exact hplace

end Excerpt

/-! ## Agreement with the position -/

/-- What stands in front of the span has one byte for each character and ends its lines where a
screen does. There are lines to show, and the span does not reach beyond them. -/
structure Span.IsShownInPlace (s : Span) (text : List Char) : Prop where
  nonempty : text ≠ []
  ascii : ∀ c ∈ text.take s.start, c.utf8Size = 1
  breaks : BreaksAlike text s.start
  stop_le : s.stop ≤ text.length + 1

section

variable {front back : List Char} {s : Span}

theorem start_of_ascii (hstart : s.start = Text.byteLength front)
    (h : ∀ c ∈ (front ++ back).take s.start, c.utf8Size = 1) : s.start = front.length := by
  rw [hstart]
  refine Text.byteLength_eq_length_iff.2 fun c hc ↦ h c ?_
  have hle := Text.length_le_byteLength front
  rw [List.take_append, List.take_of_length_le (hstart ▸ hle)]
  exact List.mem_append_left _ hc

/-- Behind a character of several bytes, the place that is found lies beyond the one in the
source. -/
theorem screenPlace_ne_of_lt (h : front.length < s.start)
    (hstart : s.start ≤ (front ++ back).length) :
    screenPlace (front ++ back) s.start (1, 1) ≠ front.foldl SourceMap.advance (1, 1) := by
  have hback : back ≠ [] := by
    rintro rfl
    rw [List.append_nil] at hstart
    omega
  exact fun heq ↦ absurd (advance_le_screenPlace (1, 1) hback)
    (not_le_of_gt (heq ▸ screenPlace_lt (1, 1) h hstart))

theorem isShownInPlace_iff (hstart : s.start = Text.byteLength front) :
    s.IsShownInPlace (front ++ back) ↔
      (Excerpt.site? (front ++ back) s).isSome ∧
        screenPlace (front ++ back) s.start (1, 1) = front.foldl SourceMap.advance (1, 1) := by
  rw [Excerpt.site?_isSome]
  constructor
  · rintro ⟨hne, hascii, hbreaks, hstop⟩
    have hcount := start_of_ascii hstart hascii
    rw [hcount] at hbreaks ⊢
    refine ⟨⟨hne, by simp, hstop⟩, ?_⟩
    exact screenPlace_of_breaksAlike (1, 1) hbreaks
  · rintro ⟨⟨hne, hle, hstop⟩, hplace⟩
    have hcount : s.start = front.length := by
      refine Nat.le_antisymm (Nat.le_of_not_lt fun hlt ↦ ?_) ?_
      · exact screenPlace_ne_of_lt hlt hle hplace
      · exact hstart ▸ Text.length_le_byteLength front
    refine ⟨hne, ?_, ?_, hstop⟩
    · rw [hcount, List.take_left']
      · exact Text.byteLength_eq_length_iff.1 (hstart.symm.trans hcount)
      · rfl
    · rw [hcount] at hplace ⊢
      exact (screenPlace_eq_iff (Nat.succ_pos _)).1 hplace

end

theorem Diagnostic.heading?_eq_some_iff {d : Diagnostic} {file source : String} {s : Span}
    (hstart : Text.IsBoundary source.toList s.start)
    (hd : d.position = (SourceMap.ofText file source).position s) :
    d.heading? file source.toList = some d.position.text ↔ s.IsShownInPlace source.toList := by
  obtain ⟨front, back, htext, hfront⟩ := hstart
  have hplace : (SourceMap.ofText file source).lineColumn s.start =
      front.foldl SourceMap.advance (1, 1) :=
    hfront ▸ SourceMap.lineColumn_eq _ htext
  have hspan : d.position.span = some s := congrArg Position.span hd
  have hposition : d.position.text = file ++ ":" ++
      toString (front.foldl SourceMap.advance (1, 1)).1 ++ ":" ++
        toString (front.foldl SourceMap.advance (1, 1)).2 := by
    rw [hd, ← hplace]
    rfl
  rw [heading?_eq, hspan, Option.bind_some, hposition, htext, isShownInPlace_iff hfront]
  cases hsite : Excerpt.site? (front ++ back) s with
  | none => simp
  | some site =>
    rw [Option.map_some, Option.some_inj, Excerpt.Site.place, ← Excerpt.place_of_site? hsite,
      placeText_inj, Option.isSome_some]
    exact ⟨fun hplace ↦ ⟨rfl, hplace⟩, And.right⟩

namespace Report

variable {file source : String} {probe : Probe} {options : Options} {d : Diagnostic} {s : Span}

/-- The excerpt of a finding names the place at which the finding stands if what is in front of it
counts alike in bytes and in characters and in lines of both kinds, and otherwise it does not. -/
theorem heading?_ofMas_iff (hd : d ∈ (ofMas file source probe options).diagnostics)
    (hs : d.position.span = some s) :
    d.heading? file source.toList = some d.position.text ↔ s.IsShownInPlace source.toList := by
  rw [(isOn_ofMas ..).diagnostics_eq, Diagnostic.mem_sortByPosition] at hd
  rcases (UnitTree.covers_ofMas file source probe options).sited d hd with hfront | ⟨t, ht, hspan⟩
  · rw [hfront] at hs
    cases hs
  · obtain rfl : t = s := Option.some.inj ((congrArg Position.span hspan).symm.trans hs)
    exact Diagnostic.heading?_eq_some_iff ht hspan

/-! ### Behind an accent -/

/-- A launch policy without rules, behind a comment with a character of two bytes. -/
def behindAccent : String := "%é\nlaunchpolicy{}\n"

def behindAccentFile : MasFile :=
  { environment := none
    extraEnvironments := []
    agentFiles := []
    launchPolicy := some ⟨⟨[]⟩, ⟨4, 18⟩⟩ }

theorem usableTree?_behindAccent :
    (UnitTree.ofMas "m" behindAccent).usableTree? = some behindAccentFile := by
  have hrepaired : Repaired.ofSource behindAccent =
      { tokens := [⟨.keyword .launchPolicy, ⟨4, 16⟩⟩, ⟨.sign .leftBrace, ⟨16, 17⟩⟩,
          ⟨.sign .rightBrace, ⟨17, 18⟩⟩]
        events := [] } := by
    decide +kernel
  have hpolicy : Strict.launchPolicy
      [⟨.keyword .launchPolicy, ⟨4, 16⟩⟩, ⟨.sign .leftBrace, ⟨16, 17⟩⟩,
        ⟨.sign .rightBrace, ⟨17, 18⟩⟩] ⟨⟨[]⟩, ⟨4, 18⟩⟩ :=
    ⟨⟨[_], _, (), rfl, ⟨_, rfl⟩, _, [], _, (List.append_nil _).symm,
      Production.between_iff.2 ⟨_, [], _, rfl, .nil⟩, rfl, rfl⟩, rfl⟩
  have hsection : Strict.oneSection _ _ := .inr (.inr ⟨_, hpolicy, rfl⟩)
  refine (UnitTree.usableTree?_read_iff Grammar.realizes_masFile).2
    ⟨congrArg Repaired.events hrepaired, ?_⟩
  rw [hrepaired]
  exact ⟨_, Production.Many.cons hsection .nil, rfl⟩

def behindAccentFinding : Diagnostic :=
  (SourceMap.ofText "m" behindAccent).diagnostic .launchPolicyEmpty [] ⟨4, 18⟩

theorem behindAccentFinding_mem : behindAccentFinding ∈
    (ofMas "m" behindAccent ⟨fun _ ↦ true, fun _ _ ↦ .ok []⟩ .offline).diagnostics := by
  rw [(isOn_ofMas ..).diagnostics_eq, Diagnostic.mem_sortByPosition, UnitTree.found,
    usableTree?_behindAccent, Option.elim_some]
  refine List.mem_append_right _ (List.mem_append_left _ (List.mem_append_right _ ?_))
  exact List.mem_singleton.2 rfl

/-- The policy begins its line, and its excerpt is not headed by that place. -/
theorem heading?_behindAccent : behindAccentFinding.position.text = "m:2:1" ∧
    behindAccentFinding.heading? "m" behindAccent.toList ≠ some "m:2:1" := by
  have htext : behindAccentFinding.position.text = "m:2:1" := by decide +kernel
  refine ⟨htext, fun hheading ↦ ?_⟩
  have hshown := (heading?_ofMas_iff behindAccentFinding_mem rfl).1 (htext ▸ hheading)
  have hmem : 'é' ∈ behindAccent.toList.take 4 := by simp [behindAccent]
  exact absurd (hshown.ascii 'é' hmem) (by decide)

end Report

end MasCheck
