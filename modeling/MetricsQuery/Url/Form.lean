import MetricsQuery.Url.Percent

/-!
# Form encoding

The pairs of a URL's query as `name=value` joined by `&`. Letters, digits and `*`, `-`, `.`, `_`
stand for themselves, a space is written `+`, all other bytes are percent-encoded. `decode` reads
the pairs back and accepts any text.
-/

namespace MetricsQuery.Url.Form

/-- A byte that stands for itself. -/
def isPlain (b : UInt8) : Bool :=
  let c := Char.ofNat b.toNat
  b < 0x80 && (c.isAlphanum || c == '*' || c == '-' || c == '.' || c == '_')

def encodeByte (b : UInt8) : List Char :=
  if isPlain b then [Char.ofNat b.toNat] else if b = 0x20 then ['+'] else Percent.octet b

/-- A name or a value. -/
def encodeText (s : String) : List Char := (Utf8.encode s).flatMap encodeByte

def encodePair (pair : String × String) : List Char :=
  encodeText pair.1 ++ '=' :: encodeText pair.2

/-- The query with one more pair at its end. -/
def append (query : List Char) (pair : String × String) : List Char :=
  query ++ (if query = [] then [] else ['&']) ++ encodePair pair

/-! ## Decoding -/

/-- The parts of a list between the elements that are `sep`. -/
def splitAt {α : Type} [BEq α] (sep : α) : List α → List (List α)
  | [] => [[]]
  | x :: xs =>
    match splitAt sep xs with
    | part :: parts => if x == sep then [] :: part :: parts else (x :: part) :: parts
    | [] => [[]]

/-- The text that a name or a value stands for. -/
def decodeText (bs : List UInt8) : String :=
  Utf8.decodeLossy (Percent.decode (bs.map fun b => if b = 0x2B then 0x20 else b))

/-- One pair; without `=` the value is empty. -/
def decodePair (bs : List UInt8) : String × String :=
  (decodeText (bs.takeWhile (· != 0x3D)), decodeText ((bs.dropWhile (· != 0x3D)).drop 1))

/-- The pairs of a query. Nothing between two `&` is no pair. -/
def decode (query : List Char) : List (String × String) :=
  ((splitAt 0x26 (Utf8.encode (String.ofList query))).filter (· != [])).map decodePair

end MetricsQuery.Url.Form
