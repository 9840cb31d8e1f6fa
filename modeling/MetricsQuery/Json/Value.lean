import MetricsQuery.Entries
import MetricsQuery.Number.Shortest

/-!
# JSON values

A number keeps the form it was written in: a natural number or a negative integer of 64 bits, or a
binary64 number. An object that is read lists its members in the order of their keys, one a key; one
that is written may list them in an order of its own.
-/

namespace MetricsQuery.Json

/-- A number; `negative n` is the integer `-n`, with `n` not zero. -/
inductive Number where
  | natural (n : Nat)
  | negative (n : Nat)
  | float (x : Binary64)
  deriving DecidableEq, Repr, Inhabited

/-- The number as a binary64 number. -/
def Number.toBinary64 : Number → Binary64
  | natural n => Binary64.ofNat n
  | negative n => (Binary64.ofNat n).neg
  | float x => x

inductive Value where
  | null
  | bool (b : Bool)
  | number (n : Number)
  | string (s : String)
  | array (items : List Value)
  | object (members : List (String × Value))
  deriving Repr, Inhabited, BEq

namespace Value

/-- An object from members in any order. -/
def ofMembers (ms : List (String × Value)) : Value := object (Entries.ofList ms)

/-- The member of an object; `none` for a missing key and for a value that is no object. -/
def get? (key : String) : Value → Option Value
  | object ms => ms.lookup key
  | _ => none

def asArray? : Value → Option (List Value)
  | array vs => some vs
  | _ => none

def asString? : Value → Option String
  | string s => some s
  | _ => none

def asNumber? : Value → Option Binary64
  | number n => some n.toBinary64
  | _ => none

end Value

end MetricsQuery.Json
