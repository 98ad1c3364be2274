import RolloutControl.Text.Hidden
import RolloutControl.Text.Number
/-! Text in double quotes, with escapes for whatever would not be seen in a message. -/

namespace RolloutControl.Text

/-- What a message shows for one character: quotes, backslashes and hidden characters are escaped. -/
def quotedChar (c : Char) : String :=
  match c with
  | '"' => "\\\""
  | '\\' => "\\\\"
  | '\n' => "\\n"
  | '\r' => "\\r"
  | '\t' => "\\t"
  | '\x00' => "\\0"
  | c =>
    if isHidden c then "\\u\x7b" ++ hexadecimal 1 c.toNat ++ "\x7d"
    else String.singleton c

def quoted (s : String) : String :=
  "\"" ++ String.join (s.toList.map quotedChar) ++ "\""

end RolloutControl.Text
