import MetricsQuery.Text.Utf8

/-!
# Headers

A header is a name and a value. `Header.isLegal` tells which texts can be a value, `Header.render`
writes headers for messages, where a value that is not printable ASCII is not shown.
-/

namespace MetricsQuery

structure Header where
  name : String
  value : String
  deriving DecidableEq, Repr

namespace Header

/-- A byte a header value may hold: a tab and everything but the other controls. -/
def isLegalByte (b : UInt8) : Bool := b == 0x09 || (0x20 ≤ b && b != 0x7F)

/-- Whether a text can be the value of a header. -/
def isLegal (value : String) : Bool := (Utf8.encode value).all isLegalByte

/-- A byte that messages show. -/
def isShownByte (b : UInt8) : Bool := b == 0x09 || (0x20 ≤ b && b < 0x7F)

def shownValue (value : String) : String :=
  if (Utf8.encode value).all isShownByte then value else "<binary>"

/-- Headers for a message. -/
def render (hs : List Header) : String :=
  String.intercalate ", " (hs.map fun h => h.name ++ ": " ++ shownValue h.value)

end Header

end MetricsQuery
