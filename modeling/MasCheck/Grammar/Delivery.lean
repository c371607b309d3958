import MasCheck.Diagnostic.Relay
import MasCheck.Grammar.Unit

/-!
# Reading a unit for a receiver

The findings of a unit may go to a receiver while it is read, in place of a list. A caller who asks
for a sound unit only gets either its tree or all of its findings.
-/

namespace MasCheck

structure Delivery (σ α : Type) where
  /-- The tree, complete or not, if there is one. -/
  tree : Option α
  diagnosticCount : Nat
  usable : Bool
  receiver : σ

namespace UnitTree

variable {σ α : Type} (receive : σ → Diagnostic → σ) (receiver : σ)

def deliver (p : Parser α) (root : Rule) (file source : String) : Delivery σ α :=
  let map := SourceMap.ofText file source
  let found := pieces (lex source)
  let parsed := p.parse (found.filterMap Piece.lexeme?) (Text.byteLength map.source)
  let events := (firstPieces (repairedCount parsed.reach) found).flatMap Piece.events
  let relay := events.foldl (Relay.notice receive) (.start map root receiver)
  let relay := (parsed.failures.map Failure.mismatch).foldl (Relay.mismatch receive) relay
  { tree := parsed.tree
    diagnosticCount := relay.reported
    usable := parsed.tree.isSome && !relay.hasErrors
    receiver := relay.receiver }

def deliverMas (file source : String) : Delivery σ MasFile :=
  deliver receive receiver Grammar.masFile .masFile file source

def deliverScript (file source : String) : Delivery σ TestScript :=
  deliver receive receiver Grammar.testScript .testScript file source

/-- The tree of a unit without findings, or else its findings. -/
def accepted (u : UnitTree α) : Except (List Diagnostic) α :=
  match u.tree with
  | some x => if u.usable then .ok x else .error u.diagnostics
  | none => .error u.diagnostics

end UnitTree

end MasCheck
