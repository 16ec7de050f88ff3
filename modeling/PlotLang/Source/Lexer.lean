import PlotLang.Source.Token

/-!
The lexer: an automaton that reads the source text character by character.

Between tokens stand blanks and comments; a comment runs from a semicolon to the end of its line.
A string runs from a double quote to the next one, with no escapes, and may hold anything else. Any
other run of characters up to a blank or a delimiter is a word. Positions count characters.
-/

namespace PlotLang

/-- What the lexer is in the middle of. Characters of an unfinished token are kept in reverse. -/
inductive LexMode where
  /-- between tokens, since the position at which the last token or comment ended -/
  | gap (since : Nat)
  /-- in a comment -/
  | comment
  /-- in a word -/
  | word (chars : List Char)
  /-- in a string; `since` is that of the gap in front of it -/
  | string (since : Nat) (chars : List Char)
deriving DecidableEq, Repr

namespace LexMode

/-- What a character between tokens leads to: the token that it is, if it is one by itself, and
the mode after it. -/
def enter (since position : Nat) (c : Char) : List Token × LexMode :=
  if Text.isBlank c then ([], gap since)
  else if c == '(' then ([.opening], gap (position + 1))
  else if c == ')' then ([.closing], gap (position + 1))
  else if c == ';' then ([], comment)
  else if c == '"' then ([], string since [c])
  else ([], word [c])

/-- One character at a position: the tokens that it completes and the mode after it. -/
def step (position : Nat) (c : Char) : LexMode → List Token × LexMode
  | gap since => enter since position c
  | comment => ([], if c == '\n' then gap position else comment)
  | word chars =>
    if isWordChar c then ([], word (c :: chars))
    else
      let (tokens, mode) := enter position position c
      (.word (String.ofList chars.reverse) :: tokens, mode)
  | string since chars =>
    if c == '"' then ([.string (String.ofList (c :: chars).reverse)], gap (position + 1))
    else ([], string since (c :: chars))

/-- The end of the text: the token that it completes, and the fault if a string is open. -/
def finish : LexMode → List Token × Option SyntaxError
  | gap _ | comment => ([], none)
  | word chars => ([.word (String.ofList chars.reverse)], none)
  | string since _ => ([], some (.unclosedString since))

end LexMode

/-- Reads characters from a position and a mode on: the tokens in order, and the fault in which the
text ends, if any. -/
def lexFrom (position : Nat) (mode : LexMode) : List Char → List Token × Option SyntaxError
  | [] => mode.finish
  | c :: cs =>
    match mode.step position c with
    | ([], mode') => lexFrom (position + 1) mode' cs
    | (tokens, mode') =>
      let (later, fault) := lexFrom (position + 1) mode' cs
      (tokens ++ later, fault)

/-- The tokens of a source text up to its first fault, and the fault. -/
def lex (source : String) : List Token × Option SyntaxError := lexFrom 0 (.gap 0) source.toList

end PlotLang
