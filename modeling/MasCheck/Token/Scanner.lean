import MasCheck.Token.Repair

/-!
# Scanning on demand

A scanner hands out the repaired tokens of a source one at a time. What it comes across before the
token asked for is reported when that token is pulled and not before. Stray characters are passed
over as far as they touch each other, which takes a look at the token behind them.
-/

namespace MasCheck

def Token.isStray : Token → Bool
  | stray _ => true
  | _ => false

def Lexeme.isStray (l : Lexeme) : Bool :=
  l.token.isStray

structure Scanner where
  source : List Char
  /-- The tokens that are not pulled yet. -/
  raw : List Lexeme
  events : List RepairEvent
  /-- The number of quoted texts that were closed. -/
  closed : Nat
  deriving Repr

namespace Scanner

def start (source : String) : Scanner :=
  { source := source.toList, raw := lex source, events := [], closed := 0 }

/-- Closes a quoted text and reports both that it was open and that it is closed now. -/
def close (s : Scanner) (quote : Quote) (text : String) (span : Span) : Scanner :=
  { s with
    events := s.events ++ [.unclosed quote text span, .closed quote span]
    closed := s.closed + 1 }

/-- Reports a stray run with its part of the source. -/
def reject (s : Scanner) (run : Span) : Scanner :=
  let text := String.ofList ((Text.slice? run.start run.stop s.source).getD [])
  { s with events := s.events ++ [.stray text run] }

/-- Passes over the stray characters that touch a run. The run ends at `stop` so far. -/
def passRun (stop : Nat) : List Lexeme → Nat × List Lexeme
  | [] => (stop, [])
  | l :: ls =>
    if l.isStray && l.span.start = stop then passRun l.span.stop ls else (stop, l :: ls)

theorem passRun_suffix (stop : Nat) (ls : List Lexeme) : (passRun stop ls).2 <:+ ls := by
  fun_induction passRun stop ls with
  | case1 => exact List.suffix_rfl
  | case2 stop l ls htouch ih => exact ih.trans (List.suffix_cons l ls)
  | case3 => exact List.suffix_rfl

/-- The next repaired token, or none at the end of the source. -/
def next (s : Scanner) : Option Lexeme × Scanner :=
  match _hraw : s.raw with
  | [] => (none, s)
  | l :: ls =>
    match l.token with
    | .unclosed quote text =>
      (some ⟨.quoted quote text, l.span⟩, { s with raw := ls }.close quote text l.span)
    | .stray _ =>
      let run := passRun l.span.stop ls
      next ({ s with raw := run.2 }.reject ⟨l.span.start, run.1⟩)
    | _ => (some l, { s with raw := ls })
termination_by s.raw.length
decreasing_by
  rw [_hraw]
  exact Nat.lt_succ_of_le (passRun_suffix l.span.stop ls).length_le

/-- Pulls up to `n` tokens, and stops when there are no more. -/
def pull : (n : Nat) → Scanner → List Lexeme × Scanner
  | 0, s => ([], s)
  | n + 1, s =>
    match s.next with
    | (none, t) => ([], t)
    | (some l, t) => Prod.map (l :: ·) id (pull n t)

end Scanner

end MasCheck
