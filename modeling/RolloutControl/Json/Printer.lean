import RolloutControl.Json.Basic
/-! JSON text without blanks between the tokens. -/

namespace RolloutControl.Json

def escapedChar (c : Char) : String :=
  match c with
  | '"' => "\\\""
  | '\\' => "\\\\"
  | '\n' => "\\n"
  | '\r' => "\\r"
  | '\t' => "\\t"
  | '\x08' => "\\b"
  | '\x0c' => "\\f"
  | c => if c.toNat < 0x20 then "\\u" ++ Text.hexadecimal 4 c.toNat else String.singleton c

/-- Characters outside of ASCII are escaped too, in pairs of surrogates where one unit is too small. -/
def asciiChar (c : Char) : String :=
  let n := c.toNat
  if n < 0x7F then escapedChar c
  else if n < 0x10000 then "\\u" ++ Text.hexadecimal 4 n
  else
    let m := n - 0x10000
    "\\u" ++ Text.hexadecimal 4 (0xD800 + m / 0x400) ++
      "\\u" ++ Text.hexadecimal 4 (0xDC00 + m % 0x400)

def quoteWith (escape : Char → String) (s : String) : String :=
  s.foldl (fun acc c => acc ++ escape c) "\"" ++ "\""

mutual

def printWith (escape : Char → String) : Json → String
  | .null => "null"
  | .bool true => "true"
  | .bool false => "false"
  | .int n => Text.integer n
  | .decimal d => d.text
  | .str s => quoteWith escape s
  | .arr items => "[" ++ String.intercalate "," (printItems escape items) ++ "]"
  | .obj fields => "\x7b" ++ String.intercalate "," (printFields escape fields) ++ "\x7d"

def printItems (escape : Char → String) : List Json → List String
  | [] => []
  | x :: r => x.printWith escape :: printItems escape r

def printFields (escape : Char → String) : List (String × Json) → List String
  | [] => []
  | (k, x) :: r => (quoteWith escape k ++ ":" ++ x.printWith escape) :: printFields escape r

end

def compact (j : Json) : String := j.printWith escapedChar

def ascii (j : Json) : String := j.printWith asciiChar

end RolloutControl.Json
