import MasCheck.Text.Bytes
import MasCheck.Text.Identifier
import MasCheck.Token.Basic

/-!
# Reading tokens

`lex` reads a whole source into tokens with their byte spans. Reading never fails: between tokens
it passes over padding (blanks, `%` comments to the end of the line, and block comments, the last
of which may be left open), and whatever then stands there opens some token. No token contains a
newline.
-/

namespace MasCheck

/-- Where a text stands with respect to padding: outside of comments, inside a line comment,
between the two characters that open a block comment, inside one, or inside one after a star. -/
inductive Padding
  | blank
  | line
  | opening
  | block
  | star
  deriving DecidableEq, Repr

namespace Padding

def isBlank (c : Char) : Bool :=
  c = ' ' || c = '\t' || c = '\r' || c = '\n'

/-- Outside of comments, padding goes on with a blank or with the opening of a comment. -/
def opens (c : Char) (cs : List Char) : Bool :=
  isBlank c || c = '%' || (c = '/' && cs.head? = some '*')

/-- The state after a character of padding. -/
def after : Padding → Char → Padding
  | blank, c => if c = '%' then line else if c = '/' then opening else blank
  | line, c => if c = '\n' then blank else line
  | opening, _ => block
  | block, c => if c = '*' then star else block
  | star, c => if c = '/' then blank else if c = '*' then star else block

/-- Splits a text after the padding at its front. -/
def split : Padding → List Char → List Char × List Char
  | _, [] => ([], [])
  | mode, c :: cs =>
    if mode = blank && !opens c cs then ([], c :: cs)
    else Prod.map (c :: ·) id (split (mode.after c) cs)

theorem split_append (mode : Padding) (cs : List Char) :
    (split mode cs).1 ++ (split mode cs).2 = cs := by
  fun_induction split mode cs <;> simp_all

theorem length_split_le (mode : Padding) (cs : List Char) :
    (split mode cs).2.length ≤ cs.length := by
  have h := congrArg List.length (split_append mode cs)
  rw [List.length_append] at h
  omega

end Padding

/-- A token read at the front of a text, the characters it was read from, and what follows. -/
structure Reading where
  token : Token
  taken : List Char
  rest : List Char

namespace Reading

/-- Splits a text after the characters that satisfy a test. -/
def run (test : Char → Bool) (cs : List Char) : List Char × List Char :=
  (cs.takeWhile test, cs.dropWhile test)

def trimReturns (cs : List Char) : List Char :=
  (cs.reverse.dropWhile (· = '\r')).reverse

/-- A quoted text, up to its closing mark or to the end of the line. Carriage returns before the
end of the line do not belong to a text left open. -/
def quoted (q : Quote) (cs : List Char) : Reading :=
  let body := run (fun c ↦ c ≠ q.char && c ≠ '\n') cs
  match body.2 with
  | c :: rest =>
    if c = q.char then
      ⟨.quoted q (String.ofList body.1), q.char :: body.1 ++ [c], rest⟩
    else ⟨.unclosed q (String.ofList (trimReturns body.1)), q.char :: body.1, body.2⟩
  | [] => ⟨.unclosed q (String.ofList (trimReturns body.1)), q.char :: body.1, []⟩

/-- A number opening with the digit `d`: no zeros in front, and a fraction only when a digit
follows the point. -/
def number (d : Char) (cs : List Char) : Reading :=
  let whole := if d = '0' then ([], cs) else run Text.isAsciiDigit cs
  let integer : Reading := ⟨.integer (String.ofList (d :: whole.1)), d :: whole.1, whole.2⟩
  match whole.2 with
  | point :: digit :: rest =>
    if point = '.' && Text.isAsciiDigit digit then
      let fraction := run Text.isAsciiDigit rest
      let taken := d :: whole.1 ++ point :: digit :: fraction.1
      ⟨.decimal (String.ofList taken), taken, fraction.2⟩
    else integer
  | _ => integer

/-- The words with a sign inside are read before any other word. -/
def compounds : List Sign :=
  [.aGoal, .goalA, .atEnv]

def compound? (cs : List Char) : Option Reading :=
  compounds.findSome? fun s ↦
    let spelling := s.text.toList
    if spelling.isPrefixOf cs then some ⟨.sign s, spelling, cs.drop spelling.length⟩ else none

/-- A word opening with the letter `c`, reserved or not. -/
def word (c : Char) (cs : List Char) : Reading :=
  let more := run Text.isIdentifierRest cs
  let text := String.ofList (c :: more.1)
  let token := match Keyword.ofText? text with
    | some k => .keyword k
    | none => .identifier text
  ⟨token, c :: more.1, more.2⟩

def sign? (c : Char) : Option Sign :=
  if c = '{' then some .leftBrace
  else if c = '}' then some .rightBrace
  else if c = '[' then some .leftBracket
  else if c = ']' then some .rightBracket
  else if c = '(' then some .leftParen
  else if c = ')' then some .rightParen
  else if c = ',' then some .comma
  else if c = '.' then some .dot
  else if c = ':' then some .colon
  else if c = '=' then some .equals
  else if c = '*' then some .star
  else none

/-- Characters of operators. The last one is the grave accent. -/
def isOperator (c : Char) : Bool :=
  c ∈ ['+', '-', '/', '<', '>', '|', ';', '!', '?', '&', '^', '~', '#', '$', '\\', Char.ofNat 96]

/-- Reads the token that a text opens with. -/
def ofText (c : Char) (cs : List Char) : Reading :=
  if c = '"' then quoted .double cs
  else if c = '\'' then quoted .single cs
  else if Text.isAsciiDigit c then number c cs
  else match compound? (c :: cs) with
    | some reading => reading
    | none =>
      if Text.isIdentifierStart c then word c cs
      else match sign? c with
        | some s => ⟨.sign s, [c], cs⟩
        | none =>
          if isOperator c then
            let more := run isOperator cs
            ⟨.operator (String.ofList (c :: more.1)), c :: more.1, more.2⟩
          else ⟨.stray (String.ofList [c]), [c], cs⟩

theorem run_append (test : Char → Bool) (cs : List Char) :
    (run test cs).1 ++ (run test cs).2 = cs := by
  simp [run]

theorem quoted_append (q : Quote) (cs : List Char) :
    (quoted q cs).taken ++ (quoted q cs).rest = q.char :: cs := by
  have h := run_append (fun c ↦ c ≠ q.char && c ≠ '\n') cs
  unfold quoted
  dsimp only
  generalize run (fun c ↦ c ≠ q.char && c ≠ '\n') cs = body at h ⊢
  obtain ⟨text, after⟩ := body
  cases after with
  | nil => simpa using h
  | cons c rest =>
    subst h
    dsimp only
    split <;> simp

theorem number_append (d : Char) (cs : List Char) :
    (number d cs).taken ++ (number d cs).rest = d :: cs := by
  have h : (if d = '0' then ([], cs) else run Text.isAsciiDigit cs).1 ++
      (if d = '0' then ([], cs) else run Text.isAsciiDigit cs).2 = cs := by
    split
    · rfl
    · exact run_append _ _
  unfold number
  dsimp only
  generalize (if d = '0' then ([], cs) else run Text.isAsciiDigit cs) = whole at h ⊢
  obtain ⟨digits, after⟩ := whole
  dsimp only at h ⊢
  subst h
  split
  · next point digit rest =>
    split
    · have hr := run_append Text.isAsciiDigit rest
      generalize run Text.isAsciiDigit rest = fraction at hr ⊢
      subst hr
      simp
    · simp
  · simp

theorem compound?_append {cs : List Char} {r : Reading} (h : compound? cs = some r) :
    r.taken ++ r.rest = cs ∧ r.taken ≠ [] := by
  obtain ⟨s, hs, hr⟩ := List.exists_of_findSome?_eq_some h
  dsimp only at hr
  split at hr
  · next hp =>
    obtain ⟨t, rfl⟩ := List.isPrefixOf_iff_prefix.1 hp
    obtain rfl := Option.some.inj hr
    refine ⟨by rw [List.drop_left], ?_⟩
    simp only [compounds, List.mem_cons, List.not_mem_nil, or_false] at hs
    rcases hs with rfl | rfl | rfl <;> exact List.cons_ne_nil _ _
  · cases hr

theorem word_append (c : Char) (cs : List Char) :
    (word c cs).taken ++ (word c cs).rest = c :: cs := by
  simp [word, run]

/-- A reading takes characters from the front and leaves the others. -/
theorem ofText_append (c : Char) (cs : List Char) :
    (ofText c cs).taken ++ (ofText c cs).rest = c :: cs := by
  unfold ofText
  split
  · next h =>
    subst h
    exact quoted_append .double cs
  · split
    · next h =>
      subst h
      exact quoted_append .single cs
    · split
      · exact number_append c cs
      · split
        · next h => exact (compound?_append h).1
        · split
          · exact word_append c cs
          · split
            · rfl
            · split
              · simp [run]
              · rfl

theorem taken_ne_nil (c : Char) (cs : List Char) : (ofText c cs).taken ≠ [] := by
  unfold ofText quoted number word
  dsimp only
  repeat' split
  all_goals first
    | exact List.cons_ne_nil _ _
    | next h => exact (compound?_append h).2

theorem length_rest_lt (c : Char) (cs : List Char) :
    (ofText c cs).rest.length < (c :: cs).length := by
  have h := congrArg List.length (ofText_append c cs)
  have hpos := List.length_pos_iff.2 (taken_ne_nil c cs)
  rw [List.length_append] at h
  omega

end Reading

/-- Reads the tokens of a text that starts at byte `here`. -/
def lexFrom (here : Nat) (cs : List Char) : List Lexeme :=
  match _h : Padding.split .blank cs with
  | (_, []) => []
  | (padding, c :: rest) =>
    let reading := Reading.ofText c rest
    let start := here + Text.byteLength padding
    let stop := start + Text.byteLength reading.taken
    ⟨reading.token, ⟨start, stop⟩⟩ :: lexFrom stop reading.rest
termination_by cs.length
decreasing_by
  have hs := Padding.length_split_le .blank cs
  rw [_h] at hs
  exact Nat.lt_of_lt_of_le (Reading.length_rest_lt c rest) hs

def lex (source : String) : List Lexeme :=
  lexFrom 0 source.toList

end MasCheck
