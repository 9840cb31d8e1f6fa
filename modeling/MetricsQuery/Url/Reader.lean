import MetricsQuery.Url.Basic
import MetricsQuery.Url.Domain

/-!
# Reading URLs

`Url.ofText` reads an absolute URL. White space and controls around it are left out, and so are tabs
and line breaks within it. What follows a scheme depends on the scheme: a host always for the web,
a host or none for files, anything for others.
-/

namespace MetricsQuery.Url

def isTrimmed (c : Char) : Bool := c.toNat ≤ 0x20

/-- The text without controls and spaces around it and without tabs and line breaks. -/
def significant (s : String) : List Char :=
  let cs := s.toList.dropWhile isTrimmed
  ((cs.reverse.dropWhile isTrimmed).reverse).filter (!Path.isIgnored ·)

def isSchemeChar (c : Char) : Bool := c.isAlphanum || c == '+' || c == '-' || c == '.'

/-- The scheme, in small letters, and what follows its colon. -/
def scheme? (cs : List Char) : Option (List Char × List Char) :=
  let name := cs.takeWhile isSchemeChar
  match name, cs.drop name.length with
  | c :: _, ':' :: rest => if c.isAlpha then some (name.map Char.toLower, rest) else none
  | _, _ => none

/-! ## Hosts -/

/-- The address in brackets. -/
def bracketed (cs : List Char) : Except Fault (List Char) :=
  match cs.getLast?, ipv6? (cs.drop 1).dropLast with
  | some ']', some pieces => .ok (ipv6Text pieces)
  | _, _ => .error .badIpv6

/-- A host that is a domain or an address. -/
def webHost (cs : List Char) : Except Fault (List Char) :=
  if cs.head? = some '[' then bracketed cs
  else
    match Domain.toAscii? (Percent.decode (Utf8.encode (String.ofList cs))) with
    | none => .error .badDomain
    | some [] => .error .emptyHost
    | some domain =>
      if endsInNumber domain then
        match ipv4? domain with
        | some n => .ok (ipv4Text n)
        | none => .error .badIpv4
      else .ok domain

/-- A character that no host has. -/
def isForbiddenInHost (c : Char) : Bool := "\x00\t\n\r #/:<>?@[\\]^|".toList.contains c

/-- A host of a scheme of which nothing is known. -/
def anyHost (cs : List Char) : Except Fault (List Char) :=
  if cs.head? = some '[' then bracketed cs
  else if cs.any isForbiddenInHost then .error .badHostCharacter
  else .ok (Percent.encode Percent.isControl cs)

/-- The characters of a host, which ends at a colon outside of brackets. -/
def hostLength : Bool → List Char → Nat
  | _, [] => 0
  | bracket, c :: cs =>
    if c = ':' ∧ !bracket then 0
    else hostLength (c == '[' || (bracket && c != ']')) cs + 1

/-- A port and its colon; the scheme's own port is left out. -/
def port (own : Option Nat) : List Char → Except Fault (Option Nat)
  | ':' :: cs =>
    let n := cs.foldl (fun n c => n * 10 + (c.toNat - 48)) 0
    if !cs.all Char.isDigit ∨ 65535 < n then .error .badPort
    else .ok (if cs = [] ∨ own = some n then none else some n)
  | _ => .ok none

/-- User name and password, in the text before the last `@`. -/
def credentials (cs : List Char) : List Char × Option (List Char) :=
  let name := cs.takeWhile (· != ':')
  let password := cs.drop (name.length + 1)
  let encode := Percent.encode Percent.inUserinfo
  (encode name, if password = [] then none else some (encode password))

/-- The authority in a text that holds nothing else. -/
def authorityOf (scheme cs : List Char) : Except Fault Authority := do
  let special := isSpecialScheme scheme
  let hostText := (cs.reverse.takeWhile (· != '@')).reverse
  let userText := cs.take (cs.length - hostText.length)
  let (username, password) := credentials userText.dropLast
  let n := hostLength false hostText
  let name := hostText.take n
  if special ∧ name = [] then .error .emptyHost
  let host ← if special then webHost name else anyHost name
  if host = [] ∧ n < hostText.length then .error .emptyHost
  let a : Authority := ⟨username, password, host, ← port (standardPort? scheme) (hostText.drop n)⟩
  if host = [] ∧ a.userinfo ≠ [] then .error .emptyHost
  .ok a

/-! ## Paths and what follows -/

/-- The URL with the query and the fragment that a text starting with their marks holds. -/
def withTail (u : Url) (cs : List Char) : Url :=
  let queryText := cs.takeWhile (· != '#')
  let fragmentText := cs.drop queryText.length
  { u with
    query := if queryText = [] then none
      else some (Percent.encode (Percent.inQuery (isSpecialScheme u.scheme)) (queryText.drop 1))
    fragment := if fragmentText = [] then none
      else some (Percent.encode Percent.inFragment (fragmentText.drop 1)) }

def isTailMark (c : Char) : Bool := c == '?' || c == '#'

/-- The URL with the path at the start of a text and what follows the path. -/
def withPath (u : Url) (cs : List Char) : Url :=
  let special := isSpecialScheme u.scheme
  let pathText := cs.takeWhile (!isTailMark ·)
  let path :=
    if pathText = [] ∧ !special then [] else Path.ofText special (isFileScheme u.scheme) pathText
  { u with path }.withTail (cs.drop pathText.length)

/-- A URL whose authority is at the start of a text. -/
def afterSlashes (scheme cs : List Char) : Except Fault Url := do
  let special := isSpecialScheme scheme
  let text := cs.takeWhile fun c => !(Path.isSlash special c || isTailMark c)
  let rest := cs.drop text.length
  if text.getLast? = some '@' ∧ text.length = 1 ∧ rest ≠ [] then .error .emptyHost
  .ok (withPath ⟨scheme, some (← authorityOf scheme text), false, [], none, none⟩ rest)

/-- A URL of a file, after the scheme. A drive letter, and the name of the machine itself, leave no
host. -/
def file (scheme cs : List Char) : Except Fault Url := do
  let on (host : List Char) (cs : List Char) : Url :=
    withPath ⟨scheme, some { host }, false, [], none, none⟩ cs
  match cs with
  | a :: b :: rest =>
    if Path.isSlash true a && Path.isSlash true b then
      let text := rest.takeWhile fun c => !(Path.isSlash true c || isTailMark c)
      if text = [] ∨ Path.isDriveLetter text then .ok (on [] rest)
      else
        let host ← webHost text
        let path := rest.drop text.length
        let startsWithDrive := Path.startsWithDrive true (path.takeWhile (!isTailMark ·))
        if host = "localhost".toList ∨ startsWithDrive then .ok (on [] path)
        else .ok (on host path)
    else .ok (on [] cs)
  | _ => .ok (on [] cs)

/-- A URL of a scheme of which nothing is known. -/
def other (scheme cs : List Char) : Except Fault Url :=
  match cs with
  | '/' :: '/' :: rest => afterSlashes scheme rest
  | '/' :: _ =>
    let u := withPath ⟨scheme, none, false, [], none, none⟩ cs
    .ok { u with guarded := ['/', '/'].isPrefixOf u.path }
  | _ =>
    let pathText := cs.takeWhile (!isTailMark ·)
    .ok (withTail ⟨scheme, none, false, Percent.encode Percent.isControl pathText, none, none⟩
      (cs.drop pathText.length))

/-- The URL a text denotes. -/
def ofText (s : String) : Except Fault Url :=
  match scheme? (significant s) with
  | none => .error .noScheme
  | some (scheme, cs) =>
    if isFileScheme scheme then file scheme cs
    else if (standardPort? scheme).isSome then
      afterSlashes scheme (cs.dropWhile (Path.isSlash true))
    else other scheme cs

end MetricsQuery.Url
