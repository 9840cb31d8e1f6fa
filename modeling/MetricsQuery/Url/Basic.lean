import MetricsQuery.Url.Form
import MetricsQuery.Url.Address
import MetricsQuery.Url.Path

/-!
# URLs

A URL by its parts, each in the form it is written in. `Url.text` writes it. `Url.resolve` puts an
endpoint after the path of a base URL, `Url.appendPair` adds a pair to the query, and
`Url.withoutCredentials` leaves out the user.
-/

namespace MetricsQuery

namespace Url

/-- What follows the two slashes: a user, a host and a port that is not the scheme's own. -/
structure Authority where
  username : List Char := []
  password : Option (List Char) := none
  host : List Char
  port : Option Nat := none
  deriving DecidableEq, Repr

def Authority.userinfo (a : Authority) : List Char :=
  let password := a.password.elim [] fun p => ':' :: p
  if a.username = [] ∧ a.password = none then [] else a.username ++ password ++ ['@']

def Authority.text (a : Authority) : List Char :=
  a.userinfo ++ a.host ++ a.port.elim [] fun p => ':' :: (toString p).toList

end Url

structure Url where
  scheme : List Char
  authority : Option Url.Authority
  /-- Whether `/.` is written before the path, so that its first slashes are no authority's. -/
  guarded : Bool := false
  path : List Char
  query : Option (List Char) := none
  fragment : Option (List Char) := none
  deriving DecidableEq, Repr

namespace Url

/-- The schemes whose URLs always have a host, and their ports. -/
def standardPort? (scheme : List Char) : Option Nat :=
  if scheme = "http".toList ∨ scheme = "ws".toList then some 80
  else if scheme = "https".toList ∨ scheme = "wss".toList then some 443
  else if scheme = "ftp".toList then some 21
  else none

def isFileScheme (scheme : List Char) : Bool := scheme == "file".toList

/-- The schemes whose paths may be written with backslashes. -/
def isSpecialScheme (scheme : List Char) : Bool :=
  (standardPort? scheme).isSome || isFileScheme scheme

variable (u : Url)

def beforePath : List Char :=
  u.scheme ++ ':' :: (u.authority.elim [] fun a => '/' :: '/' :: a.text) ++
    if u.guarded then ['/', '.'] else []

def chars : List Char :=
  u.beforePath ++ u.path ++ (u.query.elim [] ('?' :: ·)) ++ u.fragment.elim [] ('#' :: ·)

def text : String := String.ofList u.chars

/-- Whether paths can be put after the URL. -/
def isBase : Bool := u.authority.isSome || u.guarded || u.path.head? == some '/'

/-- The path without slashes at its end. -/
def stem : List Char := (u.path.reverse.dropWhile (· == '/')).reverse

/-- The URL with an endpoint after its path. -/
def resolve (endpoint : String) : Url :=
  let path := u.stem ++ endpoint.toList
  { u with path := Path.replace (isSpecialScheme u.scheme) (isFileScheme u.scheme) path }

/-- The URL with one more pair in its query. -/
def appendPair (name value : String) : Url :=
  { u with query := some (Form.append (u.query.getD []) (name, value)) }

/-- Whether percent-decoding gives text. -/
def isEncodedText (cs : List Char) : Bool :=
  (Utf8.decode? (Percent.decode (Utf8.encode (String.ofList cs)))).isSome

/-- The URL without a user whose name is text. -/
def withoutCredentials : Url :=
  match u.authority with
  | some a =>
    if isEncodedText a.username ∧ (a.username ≠ [] ∨ a.password.any isEncodedText) then
      { u with authority := some { a with username := [], password := none } }
    else u
  | none => u

end Url

end MetricsQuery
