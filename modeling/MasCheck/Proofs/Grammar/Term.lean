import MasCheck.Grammar.Script
import MasCheck.Proofs.Grammar.StrictScript
import MasCheck.Proofs.Lists.Basic

/-!
# Terms

Terms are described by counting parentheses, and read item by item: an item is a plain token, or a
pair of parentheses with items between them. Both say the same. What is read item by item is
balanced because balanced lists can be put behind each other and into parentheses. In the other
direction, the parenthesis that closes the first one is found at the end of the shortest front part
that closes more than it opens.
-/

namespace MasCheck.Strict

open Grammar (isPlainTermToken)

variable {t : Token} {ts us vs ps : List Token}

/-! ## Balanced lists -/

theorem Balanced.nil : Balanced [] where
  front := by
    intro ps hps
    rw [List.prefix_nil.1 hps]
    simp
  whole := by simp

theorem Balanced.append (hus : Balanced us) (hvs : Balanced vs) : Balanced (us ++ vs) where
  front := by
    intro ps hps
    rcases prefix_append_iff.1 hps with hps | ⟨qs, hqs, rfl⟩
    · exact hus.front ps hps
    · have hfront := hvs.front qs hqs
      have hwhole := hus.whole
      simp only [List.count_append]
      omega
  whole := by simp only [List.count_append, hus.whole, hvs.whole]

theorem Balanced.nest (hus : Balanced us) :
    Balanced (.sign .leftParen :: us ++ [.sign .rightParen]) where
  front := by
    intro ps hps
    rcases prefix_append_iff.1 hps with hps | ⟨qs, hqs, rfl⟩
    · rcases List.prefix_cons_iff.1 hps with rfl | ⟨rs, rfl, hrs⟩
      · simp
      · have hfront := hus.front rs hrs
        simp
        omega
    · have hlast : qs.count (.sign .rightParen) ≤ 1 := by
        have hle := hqs.sublist.count_le (.sign .rightParen)
        simpa using hle
      have hwhole := hus.whole
      simp
      omega
  whole := by simp [hus.whole]

/-- Tokens other than parentheses do not count. -/
theorem Balanced.of_cons (h : Balanced (t :: ts)) (hleft : t ≠ .sign .leftParen)
    (hright : t ≠ .sign .rightParen) : Balanced ts where
  front := by
    intro ps hps
    have hfront := h.front (t :: ps) ((List.prefix_cons_inj t).2 hps)
    simpa [hleft, hright] using hfront
  whole := by simpa [hleft, hright] using h.whole

/-- Where more is closed than opened, there is a first parenthesis too many. -/
theorem exists_split_of_count_lt (ts : List Token)
    (h : ts.count (.sign .leftParen) < ts.count (.sign .rightParen)) :
    ∃ us vs, ts = us ++ .sign .rightParen :: vs ∧ Balanced us := by
  induction hn : ts.length using Nat.strongRecOn generalizing ts with
  | _ n ih =>
    by_cases hfront : ∃ ps, ps <+: ts ∧ ps.length < ts.length ∧
        ps.count (.sign .leftParen) < ps.count (.sign .rightParen)
    · obtain ⟨ps, ⟨qs, rfl⟩, hlength, hps⟩ := hfront
      obtain ⟨us, vs, rfl, hus⟩ := ih ps.length (hn ▸ hlength) ps hps rfl
      exact ⟨us, vs ++ qs, by simp, hus⟩
    · have hproper : ∀ ps, ps <+: ts → ps.length < ts.length →
          ps.count (.sign .rightParen) ≤ ps.count (.sign .leftParen) := by
        intro ps hps hlength
        refine Nat.le_of_not_lt fun hlt ↦ ?_
        exact hfront ⟨ps, hps, hlength, hlt⟩
      rcases List.eq_nil_or_concat ts with rfl | ⟨us, t, rfl⟩
      · simp at h
      · rw [List.concat_eq_append] at h hproper
        have hus := hproper us (List.prefix_append us [t]) (by simp)
        obtain rfl : t = .sign .rightParen := by
          refine Decidable.byContradiction fun ht ↦ ?_
          simp only [List.count_append, List.count_cons, List.count_nil] at h
          simp [ht] at h
          omega
        refine ⟨us, [], by simp, ?_, ?_⟩
        · intro ps hps
          refine hproper ps (hps.trans (List.prefix_append us _)) ?_
          have hle := hps.length_le
          simp
          omega
        · simp at h
          omega

/-- The first parenthesis has its counterpart, and what follows that is balanced. -/
theorem Balanced.exists_closing (h : Balanced (.sign .leftParen :: ts)) :
    ∃ us vs, ts = us ++ .sign .rightParen :: vs ∧ Balanced us ∧ Balanced vs := by
  have hcount : ts.count (.sign .leftParen) < ts.count (.sign .rightParen) := by
    have hwhole := h.whole
    simp at hwhole
    omega
  obtain ⟨us, vs, rfl, hus⟩ := exists_split_of_count_lt ts hcount
  have hwhole := hus.whole
  refine ⟨us, vs, rfl, hus, ?_, ?_⟩
  · intro ps hps
    have hprefix : .sign .leftParen :: (us ++ .sign .rightParen :: ps) <+:
        .sign .leftParen :: (us ++ .sign .rightParen :: vs) := by
      rw [List.prefix_cons_inj, List.prefix_append_right_inj, List.prefix_cons_inj]
      exact hps
    have hfront := h.front _ hprefix
    simp at hfront
    omega
  · have hall := h.whole
    simp at hall
    omega

/-! ## Bodies of terms -/

theorem IsTermBody.nil : IsTermBody [] :=
  ⟨.nil, List.not_mem_nil, List.not_mem_nil, List.not_mem_nil⟩

theorem IsTermBody.append (hus : IsTermBody us) (hvs : IsTermBody vs) : IsTermBody (us ++ vs) where
  balanced := hus.balanced.append hvs.balanced
  noDot := by simp [hus.noDot, hvs.noDot]
  noLeftBrace := by simp [hus.noLeftBrace, hvs.noLeftBrace]
  noRightBrace := by simp [hus.noRightBrace, hvs.noRightBrace]

theorem IsTermBody.nest (hus : IsTermBody us) :
    IsTermBody (.sign .leftParen :: us ++ [.sign .rightParen]) where
  balanced := hus.balanced.nest
  noDot := by simp [hus.noDot]
  noLeftBrace := by simp [hus.noLeftBrace]
  noRightBrace := by simp [hus.noRightBrace]

theorem isPlainTermToken_iff : isPlainTermToken t = true ↔
    t ≠ .sign .leftParen ∧ t ≠ .sign .rightParen ∧ t ≠ .sign .dot ∧ t ≠ .sign .leftBrace ∧
      t ≠ .sign .rightBrace := by
  unfold isPlainTermToken
  split <;> simp_all

theorem IsTermBody.single (h : isPlainTermToken t = true) : IsTermBody [t] := by
  obtain ⟨hleft, hright, hdot, hleftBrace, hrightBrace⟩ := isPlainTermToken_iff.1 h
  refine ⟨⟨?_, ?_⟩, ?_, ?_, ?_⟩
  · intro ps hps
    have hle := hps.sublist.count_le (.sign .rightParen)
    simp [hright] at hle
    simp [hle]
  · simp [hleft, hright]
  · simpa using hdot.symm
  · simpa using hleftBrace.symm
  · simpa using hrightBrace.symm

/-- A body begins with a plain token or with a body in parentheses, and goes on as a body. -/
theorem IsTermBody.cases_cons (h : IsTermBody (t :: ts)) :
    (isPlainTermToken t = true ∧ IsTermBody ts) ∨
      (t = .sign .leftParen ∧
        ∃ us vs, ts = us ++ .sign .rightParen :: vs ∧ IsTermBody us ∧ IsTermBody vs) := by
  have hright : t ≠ .sign .rightParen := by
    rintro rfl
    have hfront := h.balanced.front [.sign .rightParen] ⟨ts, rfl⟩
    simp at hfront
  by_cases hleft : t = .sign .leftParen
  · subst hleft
    obtain ⟨us, vs, rfl, hus, hvs⟩ := h.balanced.exists_closing
    have hdot := h.noDot
    have hleftBrace := h.noLeftBrace
    have hrightBrace := h.noRightBrace
    simp only [List.mem_cons, List.mem_append, not_or] at hdot hleftBrace hrightBrace
    refine .inr ⟨rfl, us, vs, rfl, ?_, ?_⟩
    · exact ⟨hus, hdot.2.1, hleftBrace.2.1, hrightBrace.2.1⟩
    · exact ⟨hvs, hdot.2.2.2, hleftBrace.2.2.2, hrightBrace.2.2.2⟩
  · have hdot := h.noDot
    have hleftBrace := h.noLeftBrace
    have hrightBrace := h.noRightBrace
    simp only [List.mem_cons, not_or] at hdot hleftBrace hrightBrace
    refine .inl ⟨?_, h.balanced.of_cons hleft hright, hdot.2, hleftBrace.2, hrightBrace.2⟩
    rw [isPlainTermToken_iff]
    exact ⟨hleft, hright, Ne.symm hdot.1, Ne.symm hleftBrace.1, Ne.symm hrightBrace.1⟩

end MasCheck.Strict
