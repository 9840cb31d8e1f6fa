/-!
# Blank characters

The characters with the Unicode property White_Space, and trimming text of them at both ends.
-/

namespace MetricsQuery.Text

/-- The property White_Space. -/
def isBlank (c : Char) : Bool :=
  let n := c.toNat
  (9 ≤ n && n ≤ 13) || n == 0x20 || n == 0x85 || n == 0xA0 || n == 0x1680 ||
    (0x2000 ≤ n && n ≤ 0x200A) || n == 0x2028 || n == 0x2029 || n == 0x202F || n == 0x205F ||
    n == 0x3000

/-- The text without the characters of `p` at its two ends. -/
def trimWith (p : Char → Bool) (cs : List Char) : List Char :=
  ((cs.dropWhile p).reverse.dropWhile p).reverse

/-- The text without blanks at its two ends. -/
def trim (cs : List Char) : List Char := trimWith isBlank cs

end MetricsQuery.Text
