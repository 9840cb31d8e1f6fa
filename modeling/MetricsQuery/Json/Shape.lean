import MetricsQuery.Json.Reader
import MetricsQuery.Text.Quoted

/-!
# Reading JSON of a known shape

Readers for text of which the shape is known: a string, a boolean, a list, a map of strings, a
record. A record is written as an object, or as the list of its fields in their order. A member that
is not known is passed over by rules of its own, which are laxer than those for values. A fault of
shape is placed after the value it is about; one of a whole container after the container's end.
-/

namespace MetricsQuery.Json

/-- A number in a message. -/
def Number.found : Number → String
  | natural n => "integer `" ++ toString n ++ "`"
  | negative n => "integer `-" ++ toString n ++ "`"
  | float x => "floating point `" ++ x.scientific ++ "`"

/-- The fault that the value at the cursor is not what was expected. A scalar is read for it. -/
def unexpected {α : Type} (expected : String) : List UInt8 → Except Stop α
  | [] => stopOn .noValue []
  | b :: r => do
    let refuse (found : String) (bs : List UInt8) : Except Stop α :=
      stopAt (.invalidType found expected) bs
    if b = byte 'n' then refuse "null" (← word "ull".toList r)
    else if b = byte 't' then refuse "boolean `true`" (← word "rue".toList r)
    else if b = byte 'f' then refuse "boolean `false`" (← word "alse".toList r)
    else if b = byte '-' ∨ isDigit b then
      let (n, r) ← if b = byte '-' then number false r else number true (b :: r)
      refuse n.found r
    else if b = byte '"' then
      let (s, r) ← string r
      refuse ("string " ++ Text.quoted s) r
    else if b = byte '[' then refuse "sequence" (b :: r)
    else if b = byte '\x7b' then refuse "map" (b :: r)
    else stopOn .noValue (b :: r)

/-- The reader of a value that starts with the byte of `opening`. -/
def opened {α : Type} (opening : Char) (expected : String) (inner : Reader α) : Reader α :=
  fun bs =>
  match skipSpace bs with
  | [] => stopOn .endInValue []
  | b :: r => if b = byte opening then inner r else unexpected expected (b :: r)

def text : Reader String := opened '"' "a string" string

def flag : Reader Bool := fun bs =>
  match skipSpace bs with
  | [] => stopOn .endInValue []
  | b :: r =>
    if b = byte 't' then (word "rue".toList r).map fun r => (true, r)
    else if b = byte 'f' then (word "alse".toList r).map fun r => (false, r)
    else unexpected "a boolean" (b :: r)

/-- A list. -/
def listOf {α : Type} (item : Reader α) : Reader (List α) :=
  opened '[' "a sequence" fun bs => do
    let (xs, r) ← elements item (bs.length + 1) true bs
    let (_, r) ← endList r
    .ok (xs, r)

/-- An object with any keys; of several members with one key the last counts. -/
def mapOf {α : Type} (item : Reader α) : Reader (List (String × α)) :=
  opened '\x7b' "a map" fun bs => do
    let (ms, r) ← members item (bs.length + 1) true bs
    let (_, r) ← endObject r
    .ok (Entries.ofList ms, r)

/-! ## Values that are passed over -/

/-- The rest of a string that is passed over: escapes are not resolved, bytes need not be text. -/
def skipString : Nat → List UInt8 → Except Stop (List UInt8)
  | 0, bs => stopAt .endInString bs
  | _ + 1, [] => stopAt .endInString []
  | n + 1, b :: bs =>
    if b = byte '"' then .ok bs
    else if b = byte '\\' then
      match bs with
      | [] => stopAt .endInString []
      | c :: r =>
        if c = byte 'u' then do
          let (_, r) ← hexQuad r
          skipString n r
        else if "\"\\/bfnrt".toList.any (byte · == c) then skipString n r
        else stopAt .badEscape r
    else if b < 0x20 then stopAt .controlCharacter bs
    else skipString n bs

/-- An exponent after its letter. -/
def skipExponent (bs : List UInt8) : Except Stop (List UInt8) :=
  let bs := match bs with
    | 0x2B :: r | 0x2D :: r => r
    | r => r
  match bs with
  | [] => stopAt .badNumber []
  | b :: r => if isDigit b then .ok (r.dropWhile isDigit) else stopAt .badNumber r

/-- A fraction after its point. -/
def skipFraction (bs : List UInt8) : Except Stop (List UInt8) :=
  if bs.takeWhile isDigit = [] then stopOn .badNumber bs
  else match bs.dropWhile isDigit with
    | 0x65 :: r | 0x45 :: r => skipExponent r
    | r => .ok r

/-- A number after its sign. -/
def skipNumber : List UInt8 → Except Stop (List UInt8)
  | [] => stopAt .badNumber []
  | b :: bs =>
    if !isDigit b then stopAt .badNumber bs
    else if b = 0x30 ∧ (bs.head?.map isDigit).getD false then stopOn .badNumber bs
    else match (if b = 0x30 then bs else bs.dropWhile isDigit) with
      | 0x2E :: r => skipFraction r
      | 0x65 :: r | 0x45 :: r => skipExponent r
      | r => .ok r

/-- A container that is passed over: a list or an object. -/
inductive Container where
  | list
  | object
  deriving DecidableEq

/-- A key and its colon. -/
def skipKey (bs : List UInt8) : Except Stop (List UInt8) :=
  match skipSpace bs with
  | [] => stopOn .endInObject []
  | b :: r =>
    if b ≠ byte '"' then stopOn .keyNotString (b :: r)
    else do
      let r ← skipString (r.length + 1) r
      match skipSpace r with
      | [] => stopOn .endInObject []
      | c :: r => if c = byte ':' then .ok r else stopOn .noColon (c :: r)

/-- What comes after an item of the containers that are open, the innermost first: the end of some
of them, and the next item's place if one stays open. `afterItem` is false right after a container's
start, where its end may come, but no comma. -/
def skipEnds : List Container → (afterItem : Bool) → Nat → List UInt8 →
    Except Stop (List Container × List UInt8)
  | [], _, _, bs => .ok ([], bs)
  | open_, _, 0, bs => .ok (open_, bs)
  | c :: outer, afterItem, n + 1, bs =>
    match skipSpace bs with
    | [] => stopOn (if c = .list then .endInList else .endInObject) []
    | b :: r =>
      if b = byte ',' ∧ afterItem then .ok (c :: outer, r)
      else if b = byte (if c = .list then ']' else '\x7d') then skipEnds outer true n r
      else if afterItem then
        stopOn (if c = .list then .noCommaOrBracket else .noCommaOrBrace) (b :: r)
      else .ok (c :: outer, b :: r)

/-- Passes over a value inside the containers that are open. -/
def skipValue : Nat → List Container → List UInt8 → Except Stop (List UInt8)
  | 0, _, bs => .ok bs
  | n + 1, stack, bs =>
    match skipSpace bs with
    | [] => stopOn .endInValue []
    | b :: r => do
      let (stack, afterItem, r) ←
        if b = byte '[' then .ok (.list :: stack, false, r)
        else if b = byte '\x7b' then .ok (.object :: stack, false, r)
        else
          let rest ←
            if b = byte 'n' then word "ull".toList r
            else if b = byte 't' then word "rue".toList r
            else if b = byte 'f' then word "alse".toList r
            else if b = byte '-' then skipNumber r
            else if isDigit b then skipNumber (b :: r)
            else if b = byte '"' then skipString (r.length + 1) r
            else stopOn .noValue (b :: r)
          .ok (stack, true, rest)
      let (stack, r) ← skipEnds stack afterItem (r.length + 1) r
      match stack with
      | [] => .ok r
      | .list :: _ => skipValue n stack r
      | .object :: _ => do skipValue n stack (← skipKey r)

/-- Passes over a value. -/
def anything : Reader Unit := fun bs => (skipValue (bs.length + 1) [] bs).map fun r => ((), r)

/-! ## Records -/

/-- A cause that concerns a whole container, with what is left to read when it is found. -/
abbrev ContainerReader (α : Type) := Reader (Except Cause α)

/-- The members of an object on top of `acc`. Each key says how its value is read, unless it may not
be there. -/
def fields {α : Type} (field : String → α → Except Cause (Reader α)) :
    Nat → Bool → α → ContainerReader α
  | 0, _, acc, bs => .ok (.ok acc, bs)
  | n + 1, first, acc, bs => do
    match ← nextKey first bs with
    | (none, r) => .ok (.ok acc, r)
    | (some key, r) =>
      match field key acc with
      | .error c => .ok (.error c, r)
      | .ok read =>
        let (_, r) ← colon r
        let (acc, r) ← read r
        fields field n false acc r

/-- The elements of a list on top of `acc`, one for each reader. The flag says that an element has
to be there; `what` describes the whole. -/
def positions {α : Type} (what : String) : Nat → List (Bool × (α → Reader α)) → Bool → α →
    ContainerReader α
  | _, [], _, acc, bs => .ok (.ok acc, bs)
  | i, (required, read) :: rest, first, acc, bs => do
    match ← nextElement (read acc) first bs with
    | (some acc, r) => positions what (i + 1) rest false acc r
    | (none, r) =>
      if required then .ok (.error (.invalidLength i what), r)
      else positions what (i + 1) rest first acc r

/-- Ends a container, or places the cause that concerns it after its end. -/
def finish {α : Type} (close : Reader Unit) (afterEnd : List UInt8 → List UInt8)
    (r : Except Cause α × List UInt8) : Except Stop (α × List UInt8) :=
  match r with
  | (.ok a, bs) => (close bs).map fun (_, r) => (a, r)
  | (.error c, bs) => stopAt c (afterEnd bs)

/-- What is left after the end of an object, if that comes next. -/
def afterObject (bs : List UInt8) : List UInt8 :=
  match skipSpace bs with
  | b :: r => if b = byte '\x7d' then r else b :: r
  | [] => []

/-- What is left after the end of a list, if that or a comma comes next. -/
def afterList (bs : List UInt8) : List UInt8 :=
  match skipSpace bs with
  | b :: r => if b = byte ']' then r else if b = byte ',' then skipSpace r else b :: r
  | [] => []

/-- A record, as an object or as a list. -/
def record {α : Type} (expected : String) (object list : ContainerReader α) : Reader α := fun bs =>
  match skipSpace bs with
  | [] => stopOn .endInValue []
  | b :: r =>
    if b = byte '[' then do finish endList afterList (← list r)
    else if b = byte '\x7b' then do finish endObject afterObject (← object r)
    else unexpected expected (b :: r)

end MetricsQuery.Json
