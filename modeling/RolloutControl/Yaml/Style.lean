import RolloutControl.Text.Number
import RolloutControl.Yaml.Character
import RolloutControl.Yaml.Plain
/-! The style in which a text is written in a YAML document: plain where it reads back as that text,
in quotes otherwise, and as a literal block where it has lines. -/

namespace RolloutControl.Yaml

inductive Style
  | plain | single | double | literal
deriving DecidableEq, Repr

namespace Style

def blankNext : List Char → Bool
  | [] => true
  | c :: _ => c == ' ' || c == '\t' || c == '\x00' || isBreak c

def isPrintable (c : Char) : Bool :=
  let n := c.toNat
  n == 0x0A || (0x20 ≤ n && n ≤ 0x7E) || (0xA0 ≤ n && n ≤ 0xFFFD && n != 0xFEFF) || 0x10000 ≤ n

def anyAdjacent (p : Char → Char → Bool) : List Char → Bool
  | [] => false
  | [_] => false
  | a :: b :: r => p a b || anyAdjacent p (b :: r)

def startsAsSyntax : List Char → Bool
  | [] => false
  | '-' :: '-' :: '-' :: _ => true
  | '.' :: '.' :: '.' :: _ => true
  | c :: r => isIndicator c || ((c == '?' || c == ':' || c == '-') && blankNext r)

/-- Whether the text has the end of a key or the start of a comment behind its first character. -/
def holdsSyntax : List Char → Bool
  | [] => false
  | c :: r =>
    (match r with
     | ':' :: s => blankNext s
     | '#' :: _ => blankNext [c]
     | _ => false) || holdsSyntax r

def hasLines (cs : List Char) : Bool := cs.any isBreak

def needsEscapes (cs : List Char) : Bool :=
  cs.any (fun c => !isPrintable c) || anyAdjacent (fun a b => a == ' ' && isBreak b) cs

def allowsSingle (cs : List Char) : Bool :=
  !needsEscapes cs && !anyAdjacent (fun a b => isBreak a && b == ' ') cs

def allowsLiteral (cs : List Char) : Bool := !needsEscapes cs && cs.getLast? != some ' '

def allowsPlain (cs : List Char) : Bool :=
  !needsEscapes cs && !hasLines cs && cs.head? != some ' ' && cs.getLast? != some ' ' &&
    !startsAsSyntax cs && !holdsSyntax cs

/-- Whether the text would be read as something else than a text, or nearly so. -/
def isAmbiguous (s : String) : Bool := Plain.ofText s ≠ .text || Plain.hasLeadingZero s.toList

def ofText (s : String) : Style :=
  let cs := s.toList
  if cs.contains '\n' then (if allowsLiteral cs then .literal else .double)
  else if !isAmbiguous s && allowsPlain cs then .plain
  else if allowsSingle cs then .single
  else .double

end Style

end RolloutControl.Yaml
