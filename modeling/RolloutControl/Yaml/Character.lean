/-! The characters of YAML text: those that it may contain, line breaks, blanks, and the characters of
names, tags and flow collections. -/

namespace RolloutControl.Yaml

def isAllowed (c : Char) : Bool :=
  let n := c.toNat
  n == 0x09 || n == 0x0A || n == 0x0D || (0x20 ≤ n && n ≤ 0x7E) || n == 0x85 ||
    (0xA0 ≤ n && n ≤ 0xFFFD) || 0x10000 ≤ n

def isBreak (c : Char) : Bool :=
  c == '\n' || c == '\r' || c == '\x85' || c == '\u2028' || c == '\u2029'

def isBlank (c : Char) : Bool := c == ' ' || c == '\t'

/-- Whether a word cannot go on: the text ends, or has a blank or break next. -/
def endsWord : List Char → Bool
  | [] => true
  | c :: _ => isBlank c || isBreak c

def endsLine : List Char → Bool
  | [] => true
  | c :: _ => isBreak c

def isNameChar (c : Char) : Bool := c.isAlphanum || c == '-' || c == '_'

/-- The characters of a tag, a percent sign for an escaped octet among them. -/
def isTagChar (c : Char) : Bool := isNameChar c || ";/?:@&=+$.%!~*'()".toList.contains c

def isFlowIndicator (c : Char) : Bool :=
  c == ',' || c == '[' || c == ']' || c == '\x7b' || c == '\x7d'

def isIndicator (c : Char) : Bool :=
  isFlowIndicator c || "#&*!|>'\"%@\x60".toList.contains c

end RolloutControl.Yaml
