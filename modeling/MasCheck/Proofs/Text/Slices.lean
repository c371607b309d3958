import MasCheck.Text.Bytes

/-!
# Slices of a text

A slice with an answer is a part of the text that stands between two others. The byte offsets of
its ends determine it, and slices that meet make up one slice.
-/

namespace MasCheck.Text

theorem eq_append_of_dropBytes? {n : Nat} {cs back : List Char} (h : dropBytes? n cs = some back) :
    ∃ front, cs = front ++ back ∧ n = byteLength front := by
  fun_induction dropBytes? n cs with
  | case1 => exact ⟨[], Option.some.inj h, rfl⟩
  | case2 => cases h
  | case3 n c cs hfits ih =>
    obtain ⟨front, rfl, hfront⟩ := ih h
    refine ⟨c :: front, rfl, ?_⟩
    rw [byteLength_cons]
    omega
  | case4 => cases h

theorem eq_append_of_takeBytes? {n : Nat} {cs part : List Char} (h : takeBytes? n cs = some part) :
    ∃ back, cs = part ++ back ∧ n = byteLength part := by
  fun_induction takeBytes? n cs generalizing part with
  | case1 cs =>
    obtain rfl := Option.some.inj h
    exact ⟨cs, rfl, rfl⟩
  | case2 => cases h
  | case3 n c cs hfits ih =>
    obtain ⟨more, hmore, rfl⟩ := Option.map_eq_some_iff.1 h
    obtain ⟨back, rfl, hlength⟩ := ih hmore
    refine ⟨back, rfl, ?_⟩
    rw [byteLength_cons]
    omega
  | case4 => cases h

theorem slice?_eq_some_iff {start stop : Nat} {text part : List Char} :
    slice? start stop text = some part ↔ ∃ front back, text = front ++ part ++ back ∧
      start = byteLength front ∧ stop = byteLength (front ++ part) := by
  constructor
  · intro h
    unfold slice? at h
    split at h
    · obtain ⟨behind, hdrop, htake⟩ := Option.bind_eq_some_iff.1 h
      obtain ⟨front, rfl, hstart⟩ := eq_append_of_dropBytes? hdrop
      obtain ⟨back, rfl, hlength⟩ := eq_append_of_takeBytes? htake
      refine ⟨front, back, (List.append_assoc ..).symm, hstart, ?_⟩
      rw [byteLength_append]
      omega
    · cases h
  · rintro ⟨front, back, rfl, rfl, rfl⟩
    rw [byteLength_append]
    exact slice?_append front part back

/-- A front is determined by its length in bytes. -/
theorem front_eq_of_byteLength_eq {front front' back back' : List Char}
    (h : front ++ back = front' ++ back') (hlength : byteLength front = byteLength front') :
    front = front' := by
  have hdrop := dropBytes?_byteLength_append front back
  rw [h, hlength, dropBytes?_byteLength_append] at hdrop
  obtain rfl := Option.some.inj hdrop
  exact List.append_cancel_right h

theorem eq_nil_of_byteLength_eq_zero {cs : List Char} (h : byteLength cs = 0) : cs = [] := by
  cases cs with
  | nil => rfl
  | cons c cs =>
    have hpos := Char.utf8Size_pos c
    rw [byteLength_cons] at h
    omega

/-- Of two fronts of a text the shorter one is a front of the other. -/
theorem exists_append_of_byteLength_le {front front' back back' : List Char}
    (h : front ++ back = front' ++ back') (hle : byteLength front ≤ byteLength front') :
    ∃ part, front' = front ++ part ∧ back = part ++ back' := by
  rcases List.append_eq_append_iff.1 h with ⟨part, hfront, hback⟩ | ⟨part, rfl, rfl⟩
  · exact ⟨part, hfront, hback⟩
  · rw [byteLength_append] at hle
    obtain rfl := eq_nil_of_byteLength_eq_zero (by omega : byteLength part = 0)
    exact ⟨[], by simp, rfl⟩

/-- Slices that meet are one slice. -/
theorem slice?_join {start middle stop : Nat} {text first second : List Char}
    (hfirst : slice? start middle text = some first)
    (hsecond : slice? middle stop text = some second) :
    slice? start stop text = some (first ++ second) := by
  obtain ⟨front, back, htext, hstart, hmiddle⟩ := slice?_eq_some_iff.1 hfirst
  obtain ⟨front', back', htext', hmiddle', hstop⟩ := slice?_eq_some_iff.1 hsecond
  rw [List.append_assoc front'] at htext'
  obtain rfl := front_eq_of_byteLength_eq (htext'.symm.trans htext) (hmiddle'.symm.trans hmiddle)
  refine slice?_eq_some_iff.2 ⟨front, back', ?_, hstart, ?_⟩
  · rw [htext', List.append_assoc, List.append_assoc, List.append_assoc]
  · rw [hstop, List.append_assoc]

end MasCheck.Text
