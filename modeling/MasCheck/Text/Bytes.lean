/-!
# Text measured in bytes

A source is a list of characters, but every offset into it counts the bytes of its UTF-8 form.
`byteLength` measures a text that way, `offsetsOf` finds a character in it, and `slice?` cuts a text
at two byte offsets. A cut inside a character, past the end, or with its ends exchanged has no
answer.
-/

namespace MasCheck.Text

def byteLength : List Char → Nat
  | [] => 0
  | c :: cs => c.utf8Size + byteLength cs

@[simp] theorem byteLength_nil : byteLength [] = 0 := rfl

@[simp] theorem byteLength_cons (c : Char) (cs : List Char) :
    byteLength (c :: cs) = c.utf8Size + byteLength cs := rfl

@[simp] theorem byteLength_append (u v : List Char) :
    byteLength (u ++ v) = byteLength u + byteLength v := by
  induction u with
  | nil => simp
  | cons c cs ih => simp [ih, Nat.add_assoc]

/-- The offsets at which a character stands in a text that starts at byte `here`. -/
def offsetsOf (c : Char) (here : Nat) : List Char → List Nat
  | [] => []
  | d :: ds =>
    let behind := here + d.utf8Size
    if d = c then here :: offsetsOf c behind ds else offsetsOf c behind ds

def dropBytes? : Nat → List Char → Option (List Char)
  | 0, cs => some cs
  | _ + 1, [] => none
  | n + 1, c :: cs => if c.utf8Size ≤ n + 1 then dropBytes? (n + 1 - c.utf8Size) cs else none

def takeBytes? : Nat → List Char → Option (List Char)
  | 0, _ => some []
  | _ + 1, [] => none
  | n + 1, c :: cs =>
    if c.utf8Size ≤ n + 1 then (takeBytes? (n + 1 - c.utf8Size) cs).map (c :: ·) else none

/-- The part of a text between two byte offsets. -/
def slice? (start stop : Nat) (cs : List Char) : Option (List Char) :=
  if start ≤ stop then (dropBytes? start cs).bind (takeBytes? (stop - start)) else none

theorem dropBytes?_byteLength_append (u v : List Char) :
    dropBytes? (byteLength u) (u ++ v) = some v := by
  induction u with
  | nil => simp [dropBytes?]
  | cons c cs ih =>
    have hpos := Char.utf8Size_pos c
    obtain ⟨n, hn⟩ : ∃ n, c.utf8Size + byteLength cs = n + 1 := ⟨_, (Nat.succ_pred (by omega)).symm⟩
    simp only [byteLength_cons, List.cons_append, hn, dropBytes?]
    rw [if_pos (by omega), show n + 1 - c.utf8Size = byteLength cs by omega, ih]

theorem takeBytes?_byteLength_append (u v : List Char) :
    takeBytes? (byteLength u) (u ++ v) = some u := by
  induction u with
  | nil => simp [takeBytes?]
  | cons c cs ih =>
    have hpos := Char.utf8Size_pos c
    obtain ⟨n, hn⟩ : ∃ n, c.utf8Size + byteLength cs = n + 1 := ⟨_, (Nat.succ_pred (by omega)).symm⟩
    simp only [byteLength_cons, List.cons_append, hn, takeBytes?]
    rw [if_pos (by omega), show n + 1 - c.utf8Size = byteLength cs by omega, ih]
    rfl

/-- Cutting at the measured ends of a part gives back the part. -/
theorem slice?_append (u v w : List Char) :
    slice? (byteLength u) (byteLength u + byteLength v) (u ++ v ++ w) = some v := by
  simp [slice?, List.append_assoc, dropBytes?_byteLength_append, takeBytes?_byteLength_append]

end MasCheck.Text
