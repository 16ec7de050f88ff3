import PlotLang.Eval.Evaluate
import PlotLang.Source.Reader

/-!
Sessions. A session keeps its definitions from one source text to the next. A source text is read
and evaluated form by form: a form is evaluated before the next is read, so the definitions of forms
in front of a fault stay.
-/

namespace PlotLang

inductive Failure where
  | reading (e : SyntaxError)
  | evaluation (e : EvalError)

def Failure.message : Failure → String
  | reading e => e.message
  | evaluation e => e.message

/-- Reads and evaluates forms in a scope up to the end of a stream. The value is that of the last
form, or the given one if there is none. -/
def evalStream (limit : Int) (s : ScopeId) (stream : TokenStream) (last : Expr) (m : Machine) :
    EStateM.Result Failure Machine Expr :=
  match _h : stream.parse with
  | .error e _ => .error (.reading e) m
  | .ok none _ => .ok last m
  | .ok (some form) rest =>
    match evaluate limit form s m with
    | .error e m' => .error (.evaluation e) m'
    | .ok v m' => evalStream limit s rest v m'
termination_by stream.pending.length
decreasing_by exact TokenStream.length_pending_lt_of_parse _h

/-- A session: its machine, and the limit on how deep evaluation nests. -/
structure Session where
  machine : Machine
  limit : Int

namespace Session

def new (limit : Int) : Session := { machine := { store := Store.initial }, limit }

/-- Evaluates a source text in the root scope. The value of a text without forms is no value. -/
def eval (session : Session) (source : String) : Except Failure Expr × Session :=
  match evalStream session.limit Store.root (.ofSource source) Expr.none session.machine with
  | .ok v machine => (.ok v, { session with machine })
  | .error e machine => (.error e, { session with machine })

/-- Drops all definitions but the initial ones. The log goes on. -/
def reset (session : Session) : Session :=
  { session with machine := { store := Store.initial, log := session.machine.log.push .reset } }

def text (session : Session) : String := (session.machine.store.scope Store.root).text

def log (session : Session) : List String := session.machine.log.toList.map LogRecord.text

def clearLog (session : Session) : Session :=
  { session with machine := { session.machine with log := #[] } }

end Session
end PlotLang
