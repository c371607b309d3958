import MasCheck.Token.Lexer

/-!
# What stands between tokens

Between tokens stand blanks, comments to the end of their line, and block comments, which end at
the first mark that closes them. Only at the end of a source may a comment be left open.
-/

namespace MasCheck

/-- Blanks and comments. With `last` the source ends behind them. -/
inductive IsPadding (last : Bool) : List Char → Prop
  | nil : IsPadding last []
  | blank {c : Char} {cs : List Char} (hc : c ∈ [' ', '\t', '\r', '\n']) (hcs : IsPadding last cs) :
      IsPadding last (c :: cs)
  | line {body cs : List Char} (hbody : '\n' ∉ body) (hcs : IsPadding last cs) :
      IsPadding last ('%' :: (body ++ '\n' :: cs))
  | block {body cs : List Char} (hbody : ¬ ['*', '/'] <:+: body) (hcs : IsPadding last cs) :
      IsPadding last ('/' :: '*' :: (body ++ '*' :: '/' :: cs))
  | openLine {body : List Char} (hlast : last = true) (hbody : '\n' ∉ body) :
      IsPadding last ('%' :: body)
  | openBlock {body : List Char} (hlast : last = true) (hbody : ¬ ['*', '/'] <:+: body) :
      IsPadding last ('/' :: '*' :: body)

namespace IsPadding

variable {last : Bool} {c : Char} {cs : List Char}

theorem line_iff : IsPadding last ('%' :: cs) ↔
    (∃ body rest, cs = body ++ '\n' :: rest ∧ '\n' ∉ body ∧ IsPadding last rest) ∨
      (last = true ∧ '\n' ∉ cs) := by
  constructor
  · intro h
    generalize htext : '%' :: cs = text at h
    cases h with
    | nil => cases htext
    | blank hc =>
      obtain ⟨rfl, -⟩ := List.cons.inj htext
      exact absurd hc (by decide)
    | line hbody hrest =>
      obtain ⟨-, rfl⟩ := List.cons.inj htext
      exact .inl ⟨_, _, rfl, hbody, hrest⟩
    | block => exact absurd (List.cons.inj htext).1 (by decide)
    | openLine hlast hbody =>
      obtain ⟨-, rfl⟩ := List.cons.inj htext
      exact .inr ⟨hlast, hbody⟩
    | openBlock => exact absurd (List.cons.inj htext).1 (by decide)
  · rintro (⟨body, rest, rfl, hbody, hrest⟩ | ⟨hlast, hbody⟩)
    · exact .line hbody hrest
    · exact .openLine hlast hbody

theorem block_iff : IsPadding last ('/' :: '*' :: cs) ↔
    (∃ body rest, cs = body ++ '*' :: '/' :: rest ∧ ¬ ['*', '/'] <:+: body ∧ IsPadding last rest) ∨
      (last = true ∧ ¬ ['*', '/'] <:+: cs) := by
  constructor
  · intro h
    generalize htext : '/' :: '*' :: cs = text at h
    cases h with
    | nil => cases htext
    | blank hc =>
      obtain ⟨rfl, -⟩ := List.cons.inj htext
      exact absurd hc (by decide)
    | line => exact absurd (List.cons.inj htext).1 (by decide)
    | block hbody hrest =>
      obtain ⟨-, htext⟩ := List.cons.inj htext
      obtain ⟨-, rfl⟩ := List.cons.inj htext
      exact .inl ⟨_, _, rfl, hbody, hrest⟩
    | openLine => exact absurd (List.cons.inj htext).1 (by decide)
    | openBlock hlast hbody =>
      obtain ⟨-, htext⟩ := List.cons.inj htext
      obtain ⟨-, rfl⟩ := List.cons.inj htext
      exact .inr ⟨hlast, hbody⟩
  · rintro (⟨body, rest, rfl, hbody, hrest⟩ | ⟨hlast, hbody⟩)
    · exact .block hbody hrest
    · exact .openBlock hlast hbody

/-- A line comment goes on up to its newline. -/
theorem line_cons (hc : c ≠ '\n') (h : IsPadding last ('%' :: cs)) :
    IsPadding last ('%' :: c :: cs) := by
  have hmore : ∀ body, '\n' ∉ body → '\n' ∉ c :: body := fun body hbody ↦ by
    simp [hbody, Ne.symm hc]
  rcases line_iff.1 h with ⟨body, rest, rfl, hbody, hrest⟩ | ⟨hlast, hcs⟩
  · exact .line (hmore body hbody) hrest
  · exact .openLine hlast (hmore cs hcs)

theorem not_infix_cons (hmark : ¬ ['*', '/'] <+: c :: cs) (h : ¬ ['*', '/'] <:+: cs) :
    ¬ ['*', '/'] <:+: c :: cs := by
  rw [List.infix_cons_iff]
  exact fun hcons ↦ hcons.elim hmark h

/-- A character that does not close a block comment, and does not begin to, belongs to it. -/
theorem block_cons (hc : c ≠ '*') (h : IsPadding last ('/' :: '*' :: cs)) :
    IsPadding last ('/' :: '*' :: c :: cs) := by
  have hmark : ∀ ds, ¬ ['*', '/'] <+: c :: ds :=
    fun ds hds ↦ hc (List.cons_prefix_cons.1 hds).1.symm
  rcases block_iff.1 h with ⟨body, rest, rfl, hbody, hrest⟩ | ⟨hlast, hcs⟩
  · exact .block (not_infix_cons (hmark body) hbody) hrest
  · exact .openBlock hlast (not_infix_cons (hmark cs) hcs)

/-- A star that is not followed by a slash belongs to a block comment. -/
theorem star_cons (hc : c ≠ '/') (h : IsPadding last ('/' :: '*' :: c :: cs)) :
    IsPadding last ('/' :: '*' :: '*' :: c :: cs) := by
  have hmark : ∀ ds, ds.head? ≠ some '/' → ¬ ['*', '/'] <+: '*' :: ds := by
    rintro ds hds hprefix
    obtain ⟨-, rest, rfl⟩ := List.cons_prefix_cons.1 hprefix
    exact hds rfl
  rcases block_iff.1 h with ⟨body, rest, hcs, hbody, hrest⟩ | ⟨hlast, hcs⟩
  · rw [hcs]
    refine .block (not_infix_cons (hmark body ?_) hbody) hrest
    cases body with
    | nil => nofun
    | cons d body =>
      obtain ⟨rfl, -⟩ := List.cons.inj hcs
      exact fun hhead ↦ hc (Option.some.inj hhead)
  · refine .openBlock hlast (not_infix_cons (hmark _ ?_) hcs)
    exact fun hhead ↦ hc (Option.some.inj hhead)

theorem append {first second : List Char} (h : IsPadding false first)
    (hsecond : IsPadding last second) : IsPadding last (first ++ second) := by
  induction h with
  | nil => exact hsecond
  | blank hc _ ih => exact .blank hc ih
  | line hbody _ ih =>
    rw [List.cons_append, List.append_assoc]
    exact .line hbody ih
  | block hbody _ ih =>
    rw [List.cons_append, List.cons_append, List.append_assoc]
    exact .block hbody ih
  | openLine hlast => cases hlast
  | openBlock hlast => cases hlast

end IsPadding

namespace Padding

/-- The characters that lead to a state. -/
def entry : Padding → List Char
  | blank => []
  | line => ['%']
  | opening => ['/']
  | block => ['/', '*']
  | star => ['/', '*', '*']

theorem isPadding_entry {mode : Padding} (hmode : mode ≠ opening) : IsPadding true mode.entry := by
  cases mode with
  | blank => exact .nil
  | line => exact .openLine rfl List.not_mem_nil
  | opening => exact absurd rfl hmode
  | block => exact .openBlock rfl (by decide)
  | star => exact .openBlock rfl (by decide)

/-- Outside of comments a slash only opens padding in front of a star. -/
theorem head?_of_after_eq_opening {mode : Padding} {c : Char} {cs : List Char}
    (hgo : mode = blank → opens c cs = true) (h : mode.after c = opening) :
    cs.head? = some '*' := by
  cases mode with
  | blank =>
    simp only [after] at h
    split at h
    · cases h
    · split at h
      · next hslash =>
        subst hslash
        simpa [opens, isBlank] using hgo rfl
      · cases h
  | line =>
    simp only [after] at h
    split at h <;> cases h
  | opening => cases h
  | block =>
    simp only [after] at h
    split at h <;> cases h
  | star =>
    simp only [after] at h
    split at h
    · cases h
    · split at h <;> cases h

/-- One character of padding, in front of what completes the state behind it. -/
theorem isPadding_step {mode : Padding} {c : Char} {cs rest : List Char} {last : Bool}
    (hgo : mode = blank → opens c rest = true) (hopening : mode = opening → c = '*')
    (h : IsPadding last ((mode.after c).entry ++ cs)) : IsPadding last (mode.entry ++ c :: cs) := by
  cases mode with
  | blank =>
    have hopens := hgo rfl
    simp only [after] at h
    split at h
    · next hpercent => exact hpercent ▸ h
    · next hpercent =>
      split at h
      · next hslash => exact hslash ▸ h
      · next hslash =>
        refine .blank ?_ h
        simpa [opens, isBlank, hpercent, hslash, or_assoc] using hopens
  | line =>
    simp only [after] at h
    split at h
    · next hnewline => exact hnewline ▸ .line (List.not_mem_nil : '\n' ∉ []) h
    · next hnewline => exact IsPadding.line_cons hnewline h
  | opening => exact hopening rfl ▸ h
  | block =>
    simp only [after] at h
    split at h
    · next hstar => exact hstar ▸ h
    · next hstar => exact IsPadding.block_cons hstar h
  | star =>
    simp only [after] at h
    split at h
    · next hslash => exact hslash ▸ .block (by decide : ¬ ['*', '/'] <:+: []) h
    · next hslash =>
      split at h
      · next hstar =>
        subst hstar
        exact IsPadding.star_cons hslash h
      · next hstar => exact IsPadding.star_cons hslash (IsPadding.block_cons hstar h)

/-- What is passed over in a state completes what led to it. -/
theorem isPadding_split (mode : Padding) (cs : List Char)
    (hmode : mode = opening → cs.head? = some '*') :
    IsPadding (split mode cs).2.isEmpty (mode.entry ++ (split mode cs).1) := by
  fun_induction split mode cs with
  | case1 mode =>
    rw [List.append_nil]
    exact isPadding_entry fun hopening ↦ by cases hmode hopening
  | case2 mode c cs hstop =>
    simp only [Bool.and_eq_true, decide_eq_true_eq] at hstop
    rw [hstop.1]
    exact .nil
  | case3 mode c cs hgo ih =>
    have hopens : mode = blank → opens c cs = true := by
      intro hblank
      simpa [hblank] using hgo
    exact isPadding_step hopens (fun hopening ↦ Option.some.inj (hmode hopening))
      (ih (head?_of_after_eq_opening hopens))

/-- Padding is passed over up to a character that opens none. -/
theorem opens_of_split {mode : Padding} {cs padding rest : List Char} {c : Char}
    (h : split mode cs = (padding, c :: rest)) : opens c rest = false := by
  fun_induction split mode cs generalizing padding with
  | case1 => cases h
  | case2 mode d ds hstop =>
    obtain ⟨-, hcons⟩ := Prod.mk.inj h
    obtain ⟨rfl, rfl⟩ := List.cons.inj hcons
    simp only [Bool.and_eq_true, Bool.not_eq_true'] at hstop
    exact hstop.2
  | case3 mode d ds hgo ih => exact ih (Prod.ext rfl (Prod.mk.inj h).2)

end Padding

end MasCheck
