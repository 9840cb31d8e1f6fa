import MetricsQuery.Url.Address
import MetricsQuery.Url.Percent

/-!
# Paths of URLs

A path is a list of segments. A segment of one dot is left out and one of two dots takes the segment
before it away; either may be written with percent-encoded dots, and leaves an empty segment when it
is the last one. The paths of some schemes may be written with backslashes. The first segment of a
file's path may be a drive letter, which is never taken away.
-/

namespace MetricsQuery.Url.Path

def isSlash (special : Bool) (c : Char) : Bool := c == '/' || (special && c == '\\')

/-- A segment with its encoded dots and letters in one form. -/
def plainDots : List Char → List Char
  | '%' :: '2' :: 'e' :: cs | '%' :: '2' :: 'E' :: cs => '.' :: plainDots cs
  | c :: cs => c :: plainDots cs
  | [] => []

def isDot (segment : List Char) : Bool := plainDots segment == ['.']

def isDoubleDot (segment : List Char) : Bool := plainDots segment == ['.', '.']

/-- Whether a segment is a letter and a colon, or the bar that stands for one. -/
def isDriveLetter : List Char → Bool
  | [c, d] => c.isAlpha && (d == ':' || d == '|')
  | _ => false

/-- A drive letter as it is written. -/
def driveLetter : List Char → List Char
  | c :: _ => [c, ':']
  | [] => []

/-- The segments so far, the last one first, without the last of them. -/
def pop (file : Bool) : List (List Char) → List (List Char)
  | [segment] => if file && isDriveLetter segment then [segment] else []
  | _ :: rest => rest
  | [] => []

/-- The segments on top of those so far, all of them with the last one first. -/
def push (file : Bool) (acc : List (List Char)) : List (List Char) → List (List Char)
  | [] => acc
  | segment :: rest =>
    let close := fun acc : List (List Char) => if rest = [] then [] :: acc else acc
    if isDoubleDot segment then push file (close (pop file acc)) rest
    else if isDot segment then push file (close acc) rest
    else if file ∧ acc = [] ∧ isDriveLetter segment then push file [driveLetter segment] rest
    else push file (Percent.encode Percent.inPath segment :: acc) rest

/-- Segments with a slash before each. -/
def join (segments : List (List Char)) : List Char := segments.flatMap ('/' :: ·)

/-- The path that a text with a slash at its start, or none, stands for. -/
def ofText (special file : Bool) (cs : List Char) : List Char :=
  let cs := if (cs.head?.map (isSlash special)).getD false then cs.drop 1 else cs
  let segments := (push file [] (splitOn (isSlash special) cs)).reverse
  join (if file then
      match segments.dropWhile (· == []) with
      | [] => [[]]
      | kept => kept
    else segments)

/-- Whether a text's first segment is a drive letter. -/
def startsWithDrive (special : Bool) (cs : List Char) : Bool :=
  let cs := if (cs.head?.map (isSlash special)).getD false then cs.drop 1 else cs
  isDriveLetter ((splitOn (isSlash special) cs).headD [])

/-- Characters that are left out of every part of a URL. -/
def isIgnored (c : Char) : Bool := c == '\t' || c == '\n' || c == '\r'

/-- The path that replaces the one of a URL. -/
def replace (special file : Bool) (cs : List Char) : List Char :=
  let cs := cs.filter (!isIgnored ·)
  if !special && (cs = [] || cs.head? == some '?' || cs.head? == some '#') then []
  else ofText special file cs

end MetricsQuery.Url.Path
