import MasCheck.Grammar.Parser

/-!
# Recovery

Two ways to go on after a failure, which is then emitted instead of ending the parse. `recoverBy`
reads with another parser, which skips what is broken. `resumeBefore` tries the same parser again
after each token, up to a place where a given parser would succeed; a trial counts only if it
needs no recovery itself. When neither works the failure stays pending.
-/

namespace MasCheck.Parser

variable {α : Type}

/-- After a failure, reads with `skip` from the same place. -/
def recoverBy (skip : Parser α) (p : Parser α) : Parser α := fun c n ↦
  let a := p c n
  match a.value with
  | some _ => a
  | none =>
    let b := skip c a.notes.clear
    match b.value with
    | some _ => { b with emitted := b.emitted ++ a.notes.pending.toList.map Pending.failure }
    | none => .failed c (b.notes.withPending a.notes.pending)

/-- The search for a later place at which `p` succeeds. -/
def searchBefore (stop : Parser Unit) (p : Parser α) (held : Option Pending) : Parser α :=
  fun c n ↦
    let s := stop c n
    match s.value with
    | some _ => .failed c (s.notes.withPending held)
    | none =>
      let notes := s.notes.look c.index
      match _h : c.rest with
      | [] => .failed c (notes.withPending held)
      | l :: ls =>
        let a := p (c.after l ls) notes
        if a.value.isSome && a.emitted.isEmpty then
          { a with emitted := held.toList.map Pending.failure }
        else searchBefore stop p held (c.after l ls) a.notes.clear
termination_by c => c.rest.length
decreasing_by simp [_h, Cursor.after]

/-- After a failure, tries again after each token until `stop` would succeed. -/
def resumeBefore (stop : Parser Unit) (p : Parser α) : Parser α := fun c n ↦
  let a := p c n
  match a.value with
  | some _ => a
  | none => searchBefore stop p a.notes.pending c a.notes.clear

/-- Any token at which `stop` fails. -/
def tokenBefore (stop : Parser Unit) : Parser Token := fun c n ↦
  let a := token .anyToken .anyToken some c n
  match a.value with
  | none => a
  | some _ =>
    let s := stop c a.notes.clear
    match s.value with
    | none => { a with notes := s.notes.withPending a.notes.pending }
    | some _ => .failed c ((s.notes.withPending a.notes.pending).add (c.failure .other))

end MasCheck.Parser
