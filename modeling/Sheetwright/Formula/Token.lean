/-!
# Formula tokens

A formula is an equals sign followed by tokens. Only two kinds matter here: an operand that may
refer to cells, and text that is kept as it stands (strings, error values, operators, brackets and
blanks). Reading goes from left to right; the operand under way is closed by an operator, a
separator, a closing bracket or a space, but not by a line feed, which is therefore written before
the operand it follows.
-/

namespace Sheetwright.Formula

/-- One token of a formula. -/
inductive Token where
  /-- An operand that may refer to cells. -/
  | reference (text : List Char)
  /-- Text that has the same form in every cell. -/
  | verbatim (text : List Char)
  deriving Repr, DecidableEq

/-- The two kinds of brackets that must pair up; a function call opens with a parenthesis. -/
inductive Bracket where
  | parenthesis
  | brace
  deriving Repr, DecidableEq

def Bracket.closer : Bracket → Char
  | .parenthesis => ')'
  | .brace => '}'

/-- Why a formula cannot be read or moved. -/
inductive Error where
  /-- An operand is under way where none may be. -/
  | unexpectedCharacter (position : Nat) (formula : String)
  /-- A hash sign begins no error value. -/
  | invalidErrorCode (position : Nat) (formula : String)
  /-- A string between double quotes has no end. -/
  | unterminatedString (formula : String)
  /-- A sheet name between apostrophes has no end. -/
  | unterminatedLink (formula : String)
  /-- A square bracket has no partner. -/
  | unmatchedBracket (formula : String)
  /-- A bracket is closed by the other kind. -/
  | mismatchedPair (formula : String)
  /-- A bracket is closed that was never opened. -/
  | nothingToClose
  /-- A moved reference would leave the sheet. -/
  | outOfRange
  deriving Repr, DecidableEq

def Error.message : Error → String
  | .unexpectedCharacter position formula =>
    s!"Unexpected character at position {position} in '{formula}'"
  | .invalidErrorCode position formula =>
    s!"Invalid error code at position {position} in '{formula}'"
  | .unterminatedString formula => s!"Reached end of formula while parsing string in {formula}"
  | .unterminatedLink formula => s!"Reached end of formula while parsing link in {formula}"
  | .unmatchedBracket formula => s!"Encountered unmatched '[' in {formula}"
  | .mismatchedPair formula => "Mismatched ( and \x7b pair in '" ++ formula ++ "'"
  | .nothingToClose => "pop from empty list"
  | .outOfRange => "Formula out of range"

/-! ## Parts of a formula -/

def errorCodes : List (List Char) :=
  ["#NULL!", "#DIV/0!", "#VALUE!", "#REF!", "#NAME?", "#NUM!", "#N/A", "#GETTING_DATA"].map
    String.toList

/-- The rest of a quoted part whose opening quote was read, up to and with the closing quote. A
doubled quote stands for a quote inside. -/
def quotedRest? (quote : Char) : List Char → Option (List Char)
  | [] => none
  | [c] => if c = quote then some [c] else none
  | c :: d :: rest =>
    if c = quote then
      if d = quote then (quotedRest? quote rest).map (c :: d :: ·) else some [c]
    else (quotedRest? quote (d :: rest)).map (c :: ·)

/-- The rest of a bracketed part inside `depth + 1` open square brackets, up to and with the bracket
that closes the outermost. -/
def bracketedRest? : (depth : Nat) → List Char → Option (List Char)
  | _, [] => none
  | depth, '[' :: rest => (bracketedRest? (depth + 1) rest).map ('[' :: ·)
  | 0, ']' :: _ => some [']']
  | depth + 1, ']' :: rest => (bracketedRest? depth rest).map (']' :: ·)
  | depth, c :: rest => (bracketedRest? depth rest).map (c :: ·)

/-- The characters before the exponent sign of a number: one digit from 1 to 9, perhaps a fraction,
and the letter E. -/
def isScientificHead : List Char → Bool
  | d :: rest =>
    '1' ≤ d && d ≤ '9' && match rest with
      | [e] => e == 'E' || e == 'e'
      | '.' :: more => match more.reverse with
        | e :: digits => (e == 'E' || e == 'e') && !digits.isEmpty && digits.all Char.isDigit
        | [] => false
      | _ => false
  | [] => false

def endsOperand (c : Char) : Bool := ",;\x7d) +-*/^&=><%".contains c

/-- A space or a line feed. -/
def isGap (c : Char) : Bool := c == ' ' || c == '\n'

/-! ## Reading -/

/-- The token of an operand: strings, error values and truth values are kept as they stand. -/
def Token.ofOperand (text : List Char) : Token :=
  match text with
  | '"' :: _ | '#' :: _ => .verbatim text
  | _ => .reference text

/-- The state of reading: the operand under way and the tokens read, both last first, and the open
brackets, innermost first. -/
structure Scan where
  pending : List Char
  brackets : List Bracket
  tokens : List Token

namespace Scan

def emit (s : Scan) (token : Token) : Scan := { s with tokens := token :: s.tokens }

/-- Adds characters to the operand under way. -/
def extend (s : Scan) (text : List Char) : Scan := { s with pending := text.reverse ++ s.pending }

/-- Closes the operand under way, if there is one. -/
def close (s : Scan) : Scan :=
  if s.pending.isEmpty then s
  else { s with pending := [], tokens := .ofOperand s.pending.reverse :: s.tokens }

/-- No operand is under way, or it ends with the given character. -/
def allows (s : Scan) (last : Option Char) : Bool :=
  match s.pending with
  | [] => true
  | c :: _ => some c == last

/-- Reads the character at a position. The number returned counts the characters after it that were
read with it. -/
def step (formula : String) (position : Nat) (c : Char) (rest : List Char) (s : Scan) :
    Except Error (Nat × Scan) :=
  if (c == '+' || c == '-') && isScientificHead s.pending.reverse then .ok (0, s.extend [c])
  else
    let s := if endsOperand c then s.close else s
    if c == '"' || c == '\'' then
      if s.allows (some ':') then
        match quotedRest? c rest with
        | some body =>
          .ok (body.length,
            if c == '"' then s.emit (.verbatim (c :: body)) else s.extend (c :: body))
        | none =>
          .error (if c == '"' then .unterminatedString formula else .unterminatedLink formula)
      else .error (.unexpectedCharacter position formula)
    else if c == '[' then
      match bracketedRest? 0 rest with
      | some body => .ok (body.length, s.extend (c :: body))
      | none => .error (.unmatchedBracket formula)
    else if c == '#' then
      if s.allows (some '!') then
        match errorCodes.find? (·.isPrefixOf (c :: rest)) with
        | some code => .ok (code.length - 1, (s.extend code).close)
        | none => .error (.invalidErrorCode position formula)
      else .error (.unexpectedCharacter position formula)
    else if isGap c then .ok ((rest.takeWhile isGap).length, s.emit (.verbatim [c]))
    else if "+-*/^&=><%".contains c then
      match rest with
      | d :: _ =>
        if (d == '=' && (c == '>' || c == '<')) || (d == '>' && c == '<') then
          .ok (1, s.emit (.verbatim [c, d]))
        else .ok (0, s.emit (.verbatim [c]))
      | [] => .ok (0, s.emit (.verbatim [c]))
    else if c == '\x7b' then
      if s.allows none then
        .ok (0, { s.emit (.verbatim [c]) with brackets := .brace :: s.brackets })
      else .error (.unexpectedCharacter position formula)
    else if c == '(' then
      .ok (0, ⟨[], .parenthesis :: s.brackets, .verbatim (s.pending.reverse ++ [c]) :: s.tokens⟩)
    else if c == ')' || c == '\x7d' then
      match s.brackets with
      | [] => .error .nothingToClose
      | bracket :: outer =>
        if bracket.closer == c then .ok (0, { s.emit (.verbatim [c]) with brackets := outer })
        else .error (.mismatchedPair formula)
    else if c == ';' || c == ',' then .ok (0, s.emit (.verbatim [c]))
    else .ok (0, s.extend [c])

end Scan

def scanFrom (formula : String) (position : Nat) (text : List Char) (s : Scan) :
    Except Error Scan :=
  match text with
  | [] => .ok s.close
  | c :: rest => do
    let (extra, s) ← s.step formula position c rest
    scanFrom formula (position + extra + 1) (rest.drop extra) s
termination_by text.length
decreasing_by
  simp only [List.length_drop, List.length_cons]
  omega

/-- The tokens of a formula that begins with an equals sign, given without that sign. -/
def tokens (body : List Char) : Except Error (List Token) := do
  let s ← scanFrom (String.ofList ('=' :: body)) 1 body ⟨[], [], []⟩
  return s.tokens.reverse

end Sheetwright.Formula
