import MetricsQuery.Command.Listener
import MetricsQuery.Command.Usage
import MetricsQuery.Settings.Basic
import MetricsQuery.Time.Rfc3339

/-!
# What is given on a command line

`Reading.read` reads the words of one level up to the command among them. The value of a parameter
is the text after `=` or the next word, which may be anything that does not look like a parameter,
and it is looked at when the next parameter or word has been recognised. After `--` every word
stands for itself.
-/

namespace MetricsQuery

/-- The parameters and words given at one level. -/
structure Given where
  seen : List Parameter := []
  words : List String := []
  configFile : Option String := none
  prometheusUrl : Option String := none
  contextName : Option String := none
  queryOffset : Option String := none
  start : Option Instant := none
  stop : Option Instant := none
  step : Option Duration := none
  podsFile : Option String := none
  listen : Option SocketAddress := none

/-- Why reading a command line ends early: a fault, or a parameter that asks for something else. -/
inductive Halt where
  | fault (f : UsageFault)
  | help
  | version
  deriving DecidableEq, Repr

namespace Given

/-- The path in a value. -/
def pathOf (p : Parameter) (v : String) : Except UsageFault String :=
  if v = "" then .error (.valueMissing p) else .ok v

def instantOf (p : Parameter) (v : String) : Except UsageFault Instant :=
  (Instant.ofText v).mapError fun f =>
    .badValue p v ("invalid RFC3339 time '" ++ v ++ "': " ++ f.message)

/-- The step in a value; it must not be zero. -/
def stepOf (p : Parameter) (v : String) : Except UsageFault Duration :=
  match durationOf v with
  | .error f => .error (.badValue p v f.message)
  | .ok d => if d.isZero then .error (.badValue p v "step must be greater than zero") else .ok d

def listenOf (p : Parameter) (v : String) : Except UsageFault SocketAddress :=
  match SocketAddress.ofText? v with
  | some a => .ok a
  | none => .error (.badValue p v "invalid socket address syntax")

/-- The only form of output with a name. -/
def outputOf (p : Parameter) (v : String) : Except UsageFault Unit :=
  if v = "json" then .ok ()
  else if v = "" then .error (.valueMissing p)
  else .error (.notPossible p v)

/-- Takes the value of a parameter; a flag has none. -/
def take (p : Parameter) (v : String) (g : Given) : Except UsageFault Given :=
  match p with
  | .configFile => (pathOf p v).map fun x => { g with configFile := some x }
  | .prometheusUrl => .ok { g with prometheusUrl := some v }
  | .contextName => .ok { g with contextName := some v }
  | .queryOffset => .ok { g with queryOffset := some v }
  | .output => (outputOf p v).map fun _ => g
  | .start => (instantOf p v).map fun t => { g with start := some t }
  | .stop => (instantOf p v).map fun t => { g with stop := some t }
  | .step => (stepOf p v).map fun d => { g with step := some d }
  | .podsFile => (pathOf p v).map fun x => { g with podsFile := some x }
  | .listen => (listenOf p v).map fun a => { g with listen := some a }
  | .profile | .range | .once | .help | .version => .ok g

/-- Takes a parameter with its value, once. -/
def add (p : Parameter) (v : String) (g : Given) : Except UsageFault Given :=
  if p ∈ g.seen then .error (.repeated p)
  else (g.take p v).map fun g => { g with seen := g.seen ++ [p] }

end Given

/-- A level that is being read: what has been taken, and the last parameter if it has not, with its
value once that has come. -/
structure Reading where
  given : Given := {}
  pending : Option (Parameter × Option String) := none

namespace Reading

/-- Takes the parameter that is pending. -/
def settle (r : Reading) : Except Halt Given :=
  match r.pending with
  | none => .ok r.given
  | some (p, none) => .error (.fault (.valueMissing p))
  | some (p, some v) => (r.given.add p v).mapError .fault

/-- Whether the next word is the value of a parameter. -/
def wantsValue (r : Reading) : Bool :=
  match r.pending with
  | some (_, none) => true
  | _ => false

/-- A parameter by its name, with the text after `=` if there is one. -/
def named (l : Level) (r : Reading) (name : String) (attached : Option String) :
    Except Halt Reading :=
  match l.find? name, attached with
  | none, _ => .error (.fault (.unexpected ("--" ++ name)))
  | some p, some v =>
    if p.isFlag then .error (.fault (.needlessValue p v))
    else do .ok { given := ← ((← r.settle).add p v).mapError .fault }
  | some p, none => do
    let g ← r.settle
    match p with
    | .help => .error .help
    | .version => .error .version
    | _ =>
      if p.isFlag then .ok { given := ← (g.add p "").mapError .fault }
      else .ok { given := g, pending := some (p, none) }

/-- A parameter by a letter. -/
def lettered (l : Level) (r : Reading) (letter : Char) : Except Halt Reading :=
  if letter = 'h' then r.named l "help" none
  else if letter = 'V' ∧ l = .program then r.named l "version" none
  else .error (.fault (.unexpected ("-" ++ letter.toString)))

/-- A word that stands for itself. -/
def word (l : Level) (literal : Bool) (r : Reading) (w : String) : Except Halt Reading :=
  if l.capacity.any (· ≤ r.given.words.length) then
    .error (.fault (if l.commands = [] ∨ (literal ∧ w ∈ l.commands) then .unexpected w
      else .unknownCommand w))
  else do
    let g ← r.settle
    .ok { given := { g with words := g.words ++ [w] } }

/-- The next word of a command line, before `--`. -/
def next (l : Level) (r : Reading) (w : String) : Except Halt Reading :=
  match w.toList with
  | '-' :: '-' :: cs =>
    let name := cs.takeWhile (· != '=')
    r.named l (String.ofList name) ((cs.drop name.length).tail?.map String.ofList)
  | '-' :: c :: _ => r.lettered l c
  | _ =>
    match r.pending with
    | some (p, none) => .ok { r with pending := some (p, some w) }
    | _ => r.word l false w

/-- Words that all stand for themselves. -/
def literal (l : Level) : Reading → List String → Except Halt Reading
  | r, [] => .ok r
  | r, w :: ws => do literal l (← r.word l true w) ws

/-- The words of a level up to a command, with the command and the words after it. -/
def read (l : Level) : Reading → List String → Except Halt (Reading × Option (String × List String))
  | r, [] => .ok (r, none)
  | r, w :: ws =>
    if !r.wantsValue ∧ w ∈ l.commands then .ok (r, some (w, ws))
    else if w = "--" then do .ok (← literal l r ws, none)
    else do read l (← r.next l w) ws

end Reading

namespace Given

/-- What the words of a level without commands give. -/
def ofWords (l : Level) (ws : List String) : Except Halt Given := do
  let (r, _) ← Reading.read l {} ws
  r.settle

/-- Whether a parameter is given. -/
def has (g : Given) (p : Parameter) : Bool := p ∈ g.seen

end Given

end MetricsQuery
