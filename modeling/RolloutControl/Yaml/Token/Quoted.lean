import RolloutControl.Text.Number
import RolloutControl.Yaml.Cursor
/-! Scalars in quotes. In single quotes a quote is written twice; in double quotes a backslash begins an
escape, and before a break it takes the break away. -/

namespace RolloutControl.Yaml

def simpleEscape? : Char → Option Char
  | '0' => some '\x00'
  | 'a' => some '\x07'
  | 'b' => some '\x08'
  | 't' => some '\t'
  | '\t' => some '\t'
  | 'n' => some '\n'
  | 'v' => some '\x0b'
  | 'f' => some '\x0c'
  | 'r' => some '\r'
  | 'e' => some '\x1b'
  | ' ' => some ' '
  | '"' => some '"'
  | '/' => some '/'
  | '\\' => some '\\'
  | 'N' => some '\u0085'
  | '_' => some '\u00a0'
  | 'L' => some '\u2028'
  | 'P' => some '\u2029'
  | _ => none

def escapeWidth? : Char → Option Nat
  | 'x' => some 2
  | 'u' => some 4
  | 'U' => some 8
  | _ => none

def codePoint? (width : Nat) (cs : List Char) : Option Char := do
  let ds := cs.take width
  let n ← Text.number? 16 ds
  if ds.length = width && (n < 0xD800 || (0xE000 ≤ n && n ≤ 0x10FFFF)) then some (Char.ofNat n)
  else none

/-- The character of an escape, of which the letter and what follows it are given, and its length. -/
def escape? (letter : Char) (r : List Char) : Option (Char × Nat) :=
  match escapeWidth? letter with
  | some width => (codePoint? width r).map fun c => (c, width + 2)
  | none => (simpleEscape? letter).map fun c => (c, 2)

namespace Cursor

def quoted? (quote : Char) (fuel : Nat) (done : List Char) (c : Cursor) :
    Option (List Char × Cursor) :=
  match fuel with
  | 0 => none
  | fuel + 1 =>
    if c.atMark then none
    else
      match c.rest with
      | [] => none
      | d :: r =>
        if isBlank d || isBreak d then do
          let (gap, c) ← c.gap? 0 {}
          quoted? quote fuel (gap.text.reverse ++ done) c
        else if d == quote then
          if quote == '\'' && r.head? == some '\'' then quoted? quote fuel ('\'' :: done) (c.skip 2)
          else some (done.reverse, c.next)
        else if quote == '"' && d == '\\' then
          match c.next.newline? with
          | some (_, below) => do
            let (gap, c) ← below.gap? 0 { broken := true }
            quoted? quote fuel (gap.text.reverse ++ done) c
          | none =>
            match r with
            | [] => none
            | letter :: after => do
              let (e, n) ← escape? letter after
              quoted? quote fuel (e :: done) (c.skip n)
        else quoted? quote fuel (d :: done) c.next

end Cursor

end RolloutControl.Yaml
