/-! White space, in the sense of the Unicode property White_Space, and trimming by it. -/

namespace RolloutControl.Text

/-- The characters of the property White_Space. -/
def isBlank (c : Char) : Bool :=
  let n := c.toNat
  (0x09 ≤ n && n ≤ 0x0D) || n == 0x20 || n == 0x85 || n == 0xA0 || n == 0x1680 ||
    (0x2000 ≤ n && n ≤ 0x200A) || n == 0x2028 || n == 0x2029 || n == 0x202F || n == 0x205F ||
    n == 0x3000

def trimList (cs : List Char) : List Char :=
  ((cs.dropWhile isBlank).reverse.dropWhile isBlank).reverse

def trim (s : String) : String := String.ofList (trimList s.toList)

/-- Everything before the first separator, between two of them, and after the last. -/
def splitList (p : Char → Bool) : List Char → List (List Char)
  | [] => [[]]
  | c :: r =>
    match p c, splitList p r with
    | true, parts => [] :: parts
    | false, [] => [[c]]
    | false, part :: parts => (c :: part) :: parts

def splitOn (p : Char → Bool) (s : String) : List String :=
  (splitList p s.toList).map String.ofList

end RolloutControl.Text
