import MasCheck.Json.Printer
import MasCheck.Json.Reader
import MasCheck.Proofs.Lists.Basic

/-!
# Texts that were written are read again

Every character is written so that the reader of texts takes it for this character and stands at a
plain place again. So a quoted text ends where its last quotation mark stands, and the fields of an
object come one after the other.
-/

namespace MasCheck.Json

/-! ## Characters -/

theorem hexValue?_hexDigit {n : Nat} (h : n < 16) : hexValue? (hexDigit n) = some n := by
  have hdigits : ∀ n < 16, hexValue? (hexDigit n) = some n := by decide
  exact hdigits n h

theorem toNat_eq_ofNat {c : Char} {n : Nat} (h : c.toNat = n) : Char.ofNat n = c := by
  rw [← h, Char.ofNat_toNat]

/-- The four digits of a code below the surrogates are read as its character. -/
theorem readText_code (careful : Bool) {c : Char} (h : c.toNat < 32) (rest : List Char) :
    readText careful .plain (['\\', 'u', '0', '0', hexDigit (c.toNat / 16),
        hexDigit (c.toNat % 16)] ++ rest) =
      (readText careful .plain rest).map (Prod.map (c :: ·) id) := by
  have hzero : hexValue? '0' = some 0 := by decide
  have hhigh := hexValue?_hexDigit (n := c.toNat / 16) (by omega)
  have hlow := hexValue?_hexDigit (n := c.toNat % 16) (by omega)
  have hvalue : 16 * (c.toNat / 16) + c.toNat % 16 = c.toNat := Nat.div_add_mod ..
  have hnotLow : isLowSurrogate c.toNat = false := by simp [isLowSurrogate]; omega
  have hnotHigh : isHighSurrogate c.toNat = false := by simp [isHighSurrogate]; omega
  simp [readText, hzero, hhigh, hlow, hvalue, hnotLow, hnotHigh, Char.ofNat_toNat]

theorem readText_escaped (careful : Bool) (c : Char) (rest : List Char) :
    readText careful .plain (escaped c ++ rest) =
      (readText careful .plain rest).map (Prod.map (c :: ·) id) := by
  have hletter : ∀ letter, letter ≠ 'u' → unescaped? letter = some c →
      readText careful .plain (['\\', letter] ++ rest) =
        (readText careful .plain rest).map (Prod.map (c :: ·) id) := by
    intro letter hu hletter
    simp [readText, hu, hletter]
  unfold escaped
  split
  · next h => exact hletter '"' (by decide) (by rw [h]; decide)
  split
  · next h => exact hletter '\\' (by decide) (by rw [h]; decide)
  split
  · next h => exact hletter 'n' (by decide) (by rw [h]; decide)
  split
  · next h => exact hletter 'r' (by decide) (by rw [h]; decide)
  split
  · next h => exact hletter 't' (by decide) (by rw [h]; decide)
  split
  · next h => exact hletter 'b' (by decide) (congrArg some (toNat_eq_ofNat h))
  split
  · next h => exact hletter 'f' (by decide) (congrArg some (toNat_eq_ofNat h))
  split
  · next h => exact readText_code careful h rest
  · next hquote hbackslash _ _ _ _ _ hplain =>
    simp [readText, hquote, hbackslash, hplain]

/-! ## Texts -/

theorem readText_flatMap_escaped (careful : Bool) (cs rest : List Char) :
    readText careful .plain (cs.flatMap escaped ++ '"' :: rest) = .ok (cs, rest) := by
  induction cs with
  | nil => simp [readText]
  | cons c cs ih =>
    rw [List.flatMap_cons, List.append_assoc, readText_escaped, ih]
    rfl

theorem toList_quoted (value : String) :
    (quoted value).toList = '"' :: (value.toList.flatMap escaped ++ ['"']) := by
  rw [quoted, String.toList_ofList]
  rfl

theorem readString_quoted (careful : Bool) (value : String) (rest : List Char) :
    readString careful (value.toList.flatMap escaped ++ '"' :: rest) = .ok (value, rest) := by
  rw [readString, readText_flatMap_escaped]
  exact congrArg (fun text ↦ Except.ok (text, rest)) String.ofList_toList

theorem skipBlanks_cons {c : Char} (h : c ≠ ' ' ∧ c ≠ '\n' ∧ c ≠ '\t' ∧ c ≠ '\r')
    (cs : List Char) : skipBlanks (c :: cs) = c :: cs := by
  simp [skipBlanks, h]

theorem expectText_compact (value : String) (rest : List Char) :
    expectText ((compact (.text value)).toList ++ rest) = .ok (value, rest) := by
  rw [compact, toList_quoted, List.cons_append, List.append_assoc, expectText,
    skipBlanks_cons (by decide)]
  exact readString_quoted true value rest

theorem expectBool_compact (value : Bool) (rest : List Char) :
    expectBool ((compact (.bool value)).toList ++ rest) = .ok (value, rest) := by
  cases value with
  | false =>
    have htext : (compact (.bool false)).toList = ['f', 'a', 'l', 's', 'e'] := by simp [compact]
    rw [htext]
    rfl
  | true =>
    have htext : (compact (.bool true)).toList = ['t', 'r', 'u', 'e'] := by simp [compact]
    rw [htext]
    rfl

/-! ## Objects -/

def fieldText (f : String × Json) : List Char :=
  (quoted f.1).toList ++ ':' :: (compact f.2).toList

theorem map_toList_compactFields (fields : List (String × Json)) :
    (compactFields fields).map String.toList = fields.map fieldText := by
  induction fields with
  | nil => rfl
  | cons f fields ih =>
    rw [compactFields, List.map_cons, List.map_cons, ih, fieldText]
    simp

theorem toList_object (f : String × Json) (fields : List (String × Json)) :
    (compact (.object (f :: fields))).toList =
      '{' :: (fieldText f ++ fields.flatMap (fun g ↦ ',' :: fieldText g) ++ ['}']) := by
  have hfields := map_toList_compactFields (f :: fields)
  rw [compact, bracketed, String.toList_append, String.toList_append, String.toList_intercalate,
    hfields, List.map_cons]
  have hcomma : ",".toList = [','] := by simp
  rw [hcomma, intercalate_eq_flatMap, List.flatMap_map]
  simp

/-- The fields are read one after the other, each by the reader that there is for its name. -/
inductive ReadsFields {σ : Type} (step : σ → String → Except Fault (Reader σ)) :
    σ → List (String × Json) → σ → Prop
  | nil (s : σ) : ReadsFields step s [] s
  | cons {s s' s'' : σ} {name : String} {v : Json} {fields : List (String × Json)}
      {reader : Reader σ} (hstep : step s name = .ok reader)
      (hread : ∀ rest, reader ((compact v).toList ++ rest) = .ok (s', rest))
      (hfields : ReadsFields step s' fields s'') : ReadsFields step s ((name, v) :: fields) s''

section

variable {σ : Type} {step : σ → String → Except Fault (Reader σ)} {s s' : σ}
  {fields : List (String × Json)}

theorem fieldText_append (name : String) (v : Json) (rest : List Char) :
    fieldText (name, v) ++ rest =
      '"' :: (name.toList.flatMap escaped ++ '"' :: ':' :: ((compact v).toList ++ rest)) := by
  simp [fieldText, toList_quoted]

theorem foldFieldsWith_field {name : String} {v : Json} {reader : Reader σ}
    (hstep : step s name = .ok reader)
    (hread : ∀ rest, reader ((compact v).toList ++ rest) = .ok (s', rest)) (fuel : Nat)
    (rest : List Char) :
    foldFieldsWith step (fuel + 1) true s (fieldText (name, v) ++ rest) =
        foldFieldsWith step fuel false s' rest ∧
      foldFieldsWith step (fuel + 1) false s (',' :: (fieldText (name, v) ++ rest)) =
        foldFieldsWith step fuel false s' rest := by
  have hname := readString_quoted true name (':' :: ((compact v).toList ++ rest))
  rw [fieldText_append]
  constructor <;> simp [foldFieldsWith, skipBlanks_cons, hname, hstep, hread, bind, Except.bind]

theorem foldFieldsWith_fields (h : ReadsFields step s fields s') {fuel : Nat}
    (hfuel : fields.length < fuel) (rest : List Char) :
    foldFieldsWith step fuel false s (fields.flatMap (fun f ↦ ',' :: fieldText f) ++ '}' :: rest) =
      .ok (s', rest) := by
  induction h generalizing fuel with
  | nil s =>
    obtain ⟨fuel, rfl⟩ := Nat.exists_eq_succ_of_ne_zero (Nat.ne_zero_of_lt hfuel)
    simp [foldFieldsWith, skipBlanks_cons]
  | cons hstep hread _ ih =>
    obtain ⟨fuel, rfl⟩ := Nat.exists_eq_succ_of_ne_zero (Nat.ne_zero_of_lt hfuel)
    rw [List.flatMap_cons, List.append_assoc, List.cons_append,
      (foldFieldsWith_field hstep hread fuel _).2]
    exact ih (Nat.lt_of_succ_lt_succ hfuel)

/-- Every field takes a comma at least, so that there is fuel for all of them. -/
theorem length_le_flatMap (fields : List (String × Json)) :
    fields.length ≤ (fields.flatMap fun f ↦ ',' :: fieldText f).length := by
  induction fields with
  | nil => exact Nat.zero_le _
  | cons f fields ih =>
    rw [List.flatMap_cons, List.length_append, List.length_cons, List.length_cons]
    omega

/-- An object that was written is read field by field. -/
theorem expectObject_compact (h : ReadsFields step s fields s') (rest : List Char) :
    expectObject step s ((compact (.object fields)).toList ++ rest) = .ok (s', rest) := by
  cases h with
  | nil s =>
    have htext : (compact (.object [])).toList = ['{', '}'] := by
      simp [compact, compactFields, bracketed]
    simp [htext, expectObject, skipBlanks_cons, foldFieldsWith]
  | @cons s s' s'' name v fields reader hstep hread hfields =>
    rw [toList_object, List.cons_append, expectObject, skipBlanks_cons (by decide)]
    simp only [List.append_assoc]
    rw [(foldFieldsWith_field hstep hread _ _).1]
    refine foldFieldsWith_fields hfields ?_ rest
    have hlength := length_le_flatMap fields
    simp only [List.length_append, List.length_cons, List.length_nil]
    omega

end

end MasCheck.Json
