import PlotLang.Source.Lexer

/-!
A cursor over the tokens of a source text, and the reader of forms on top of it.

The cursor can look one token ahead. The fault in which the lexer ended is met once, when every
token before it has been read; after that the stream is at its end. Reading a form takes tokens up
to the end of the form and never looks beyond it. A form that is cut short by a fault has taken the
tokens read so far.

The stack of the host is taken as unlimited: forms may nest as deep as the text has them. A reader
that calls itself for each child needs a call frame for each open form, and a host that bounds its
frames gives up on a text with about as many open forms.
-/

namespace PlotLang

/-- A position in a sequence of tokens. -/
structure TokenStream where
  /-- the token that was looked at and not yet taken -/
  lookahead : Option Token
  /-- the tokens after it -/
  unread : List Token
  /-- the fault after the last token, until it is met -/
  fault : Option SyntaxError
deriving DecidableEq, Repr

abbrev StreamM := EStateM SyntaxError TokenStream

/-- A list form that is being read: its head and the children so far, in reverse. -/
structure OpenForm where
  head : Atom
  children : List Expr

namespace OpenForm

def add (f : OpenForm) (e : Expr) : OpenForm := { f with children := e :: f.children }

/-- The expression that a closing parenthesis makes of the form. The word `list` without children
makes the empty list, which could not be written otherwise. -/
def close (f : OpenForm) : Expr :=
  match f.head, f.children with
  | .symbol s, [] => if s = Builtin.list.symbol then Expr.list [] else Expr.leaf f.head
  | a, children => Expr.node a children.reverse

end OpenForm

/-- How far the reading of a form has come. -/
structure ReadState where
  /-- a parenthesis was just opened, and the head of its form comes next -/
  awaitingHead : Bool := false
  /-- the forms that are open, innermost first -/
  outer : List OpenForm := []

/-- What a token makes of a form that is being read. -/
inductive ReadStep where
  /-- the form goes on -/
  | more (r : ReadState)
  /-- the form is complete, or cannot be read -/
  | done (answer : Except SyntaxError Expr)

namespace TokenStream

def ofSource (source : String) : TokenStream :=
  let (tokens, fault) := lex source
  { lookahead := none, unread := tokens, fault }

def pending (s : TokenStream) : List Token := s.lookahead.toList ++ s.unread

def exhausted : TokenStream := { lookahead := none, unread := [], fault := none }

/-- The next token without taking it; nothing at the end. -/
def peek : StreamM (Option Token) := fun s =>
  match s.lookahead, s.unread, s.fault with
  | some t, _, _ => .ok (some t) s
  | none, t :: rest, _ => .ok (some t) { s with lookahead := some t, unread := rest }
  | none, [], some e => .error e exhausted
  | none, [], none => .ok none s

/-- Takes the next token; nothing at the end. -/
def advance : StreamM (Option Token) := fun s =>
  match s.lookahead, s.unread, s.fault with
  | some t, _, _ => .ok (some t) { s with lookahead := none }
  | none, t :: rest, _ => .ok (some t) { s with unread := rest }
  | none, [], some e => .error e exhausted
  | none, [], none => .ok none s

/-- A completed expression is the next child of the innermost open form, or the form that was
asked for if none is open. -/
def supply (e : Expr) : List OpenForm → ReadStep
  | [] => .done (.ok e)
  | f :: fs => .more { awaitingHead := false, outer := f.add e :: fs }

/-- What a token does to a form that is being read. -/
def readToken (r : ReadState) : Token → ReadStep
  | .opening =>
    if r.awaitingHead then .done (.error .headNotAtom) else .more { r with awaitingHead := true }
  | .closing =>
    if r.awaitingHead then supply Expr.none r.outer
    else
      match r.outer with
      | [] => .done (.error .unexpectedClosing)
      | f :: fs => supply f.close fs
  | .string text | .word text =>
    match Atom.ofWord? text with
    | none => .done (.error (.invalidSymbol text))
    | some a =>
      if r.awaitingHead then .more { awaitingHead := false, outer := ⟨a, []⟩ :: r.outer }
      else supply (Expr.leaf a) r.outer

/-- Reads one form from tokens that end in a fault or at the end of the text. The result says which
tokens are left. -/
def readForm (fault : Option SyntaxError) (r : ReadState) :
    List Token → EStateM.Result SyntaxError TokenStream (Option Expr)
  | [] =>
    match fault with
    | some e => .error e exhausted
    | none =>
      if r.awaitingHead || !r.outer.isEmpty then .error .unmatchedOpening exhausted
      else .ok none exhausted
  | t :: rest =>
    match readToken r t with
    | .more r' => readForm fault r' rest
    | .done (.ok e) => .ok (some e) { lookahead := none, unread := rest, fault }
    | .done (.error e) => .error e { lookahead := none, unread := rest, fault }

/-- Reads the next form; nothing at the end. How deep the form nests is not bounded. -/
def parse : StreamM (Option Expr) := fun s => readForm s.fault {} s.pending

end TokenStream
end PlotLang
