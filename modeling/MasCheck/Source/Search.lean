/-!
# Searching numbers in order

A search halves the places where a number may stand until one is left. It tells where the number
is, or where it would have to be put in to keep the order.
-/

namespace MasCheck

inductive Search
  | found (index : Nat)
  | missing (index : Nat)
  deriving DecidableEq, Repr

namespace Search

/-- Of the `size` places from `base` on, the last whose number is not above `x`, or else `base`. -/
def narrow (xs : List Nat) (x base size : Nat) : Nat :=
  if 1 < size then
    let half := size / 2
    if xs[base + half]?.any (· ≤ x) then narrow xs x (base + half) (size - half)
    else narrow xs x base (size - half)
  else base
termination_by size

def among (xs : List Nat) (x : Nat) : Search :=
  let place := narrow xs x 0 xs.length
  match xs[place]? with
  | none => missing 0
  | some y => if y = x then found place else missing (if y < x then place + 1 else place)

end Search

end MasCheck
