import RolloutControl.Json.Number
/-! Reading JSON text. The text is cut into tokens, and a stack of unfinished arrays and objects
turns the tokens into one value. -/

namespace RolloutControl.Json

inductive Token
  | openArr | closeArr | openObj | closeObj | comma | colon
  | scalar (j : Json)

/-- What stands before the closing quote, escapes untouched, and what follows that quote. -/
def stringBody : List Char → Option (List Char × List Char)
  | [] => none
  | '"' :: r => some ([], r)
  | '\\' :: c :: r => (stringBody r).map fun p => ('\\' :: c :: p.1, p.2)
  | c :: r => (stringBody r).map fun p => (c :: p.1, p.2)

theorem length_stringBody {l : List Char} {p : List Char × List Char}
    (h : stringBody l = some p) : p.2.length < l.length := by
  fun_induction stringBody l generalizing p with
  | case1 => simp at h
  | case2 r => obtain rfl := Option.some.inj h; simp
  | case3 c r ih =>
    obtain ⟨q, hq, rfl⟩ := Option.map_eq_some_iff.1 h
    have := ih hq
    simp; omega
  | case4 c r _ _ ih =>
    obtain ⟨q, hq, rfl⟩ := Option.map_eq_some_iff.1 h
    have := ih hq
    simp; omega

/-- A character of a string as it is written: itself, or one 16 bit unit. -/
inductive Written
  | plain (c : Char)
  | unit (n : Nat)

def escape? : Char → Option Char
  | '"' => some '"'
  | '\\' => some '\\'
  | '/' => some '/'
  | 'b' => some '\x08'
  | 'f' => some '\x0c'
  | 'n' => some '\n'
  | 'r' => some '\r'
  | 't' => some '\t'
  | _ => none

def written : List Char → Option (List Written)
  | [] => some []
  | '\\' :: 'u' :: a :: b :: c :: d :: r => do
    let n ← Text.number? 16 [a, b, c, d]
    some (.unit n :: (← written r))
  | '\\' :: c :: r => do
    let e ← escape? c
    some (.plain e :: (← written r))
  | c :: r => if c.toNat < 0x20 then none else do some (.plain c :: (← written r))

def isHighSurrogate (n : Nat) : Bool := 0xD800 ≤ n && n < 0xDC00

def isLowSurrogate (n : Nat) : Bool := 0xDC00 ≤ n && n < 0xE000

/-- Surrogates are read in pairs; one that stands alone is refused. -/
def characters : List Written → Option (List Char)
  | [] => some []
  | .plain c :: r => do some (c :: (← characters r))
  | .unit m :: .unit n :: r =>
    if isHighSurrogate m && isLowSurrogate n then do
      some (Char.ofNat (0x10000 + (m - 0xD800) * 0x400 + (n - 0xDC00)) :: (← characters r))
    else if isHighSurrogate m || isLowSurrogate m then none
    else do some (Char.ofNat m :: (← characters (.unit n :: r)))
  | .unit m :: r =>
    if isHighSurrogate m || isLowSurrogate m then none
    else do some (Char.ofNat m :: (← characters r))

def string? (body : List Char) : Option String := do
  some (String.ofList (← characters (← written body)))

def isNumberChar (c : Char) : Bool := c.isDigit || "+-.eE".toList.contains c

def isSpace (c : Char) : Bool := c == ' ' || c == '\t' || c == '\n' || c == '\r'

def tokens (acc : List Token) (cs : List Char) : Option (List Token) :=
  match cs with
  | [] => some acc.reverse
  | '[' :: r => tokens (.openArr :: acc) r
  | ']' :: r => tokens (.closeArr :: acc) r
  | '\x7b' :: r => tokens (.openObj :: acc) r
  | '\x7d' :: r => tokens (.closeObj :: acc) r
  | ',' :: r => tokens (.comma :: acc) r
  | ':' :: r => tokens (.colon :: acc) r
  | 't' :: 'r' :: 'u' :: 'e' :: r => tokens (.scalar (.bool true) :: acc) r
  | 'f' :: 'a' :: 'l' :: 's' :: 'e' :: r => tokens (.scalar (.bool false) :: acc) r
  | 'n' :: 'u' :: 'l' :: 'l' :: r => tokens (.scalar .null :: acc) r
  | c :: r =>
    if isSpace c then tokens acc r
    else if c == '"' then
      match _h : stringBody r with
      | none => none
      | some (body, rest) =>
        match string? body with
        | none => none
        | some s => tokens (.scalar (.str s) :: acc) rest
    else if isNumberChar c then
      match number? (c :: r.takeWhile isNumberChar) with
      | none => none
      | some j => tokens (.scalar j :: acc) (r.dropWhile isNumberChar)
    else none
termination_by cs.length
decreasing_by
  all_goals simp only [List.length_cons]
  all_goals first
    | omega
    | exact Nat.lt_succ_of_lt (length_stringBody _h)
    | exact Nat.lt_succ_of_le (List.dropWhile_sublist isNumberChar).length_le

inductive Frame
  | items (done : List Json)
  | fields (done : Fields) (key : String)

/-- What may come next, inside of the unfinished values. -/
inductive Reading
  | value (stack : List Frame) (closable : Bool)
  | key (done : Fields) (stack : List Frame) (closable : Bool)
  | colon (done : Fields) (key : String) (stack : List Frame)
  | complete (j : Json) (stack : List Frame)

def depthLimit : Nat := 127

namespace Reading

def read : Reading → Token → Option Reading
  | .value stack _, .scalar j => some (.complete j stack)
  | .value stack _, .openArr =>
    if stack.length < depthLimit then some (.value (.items [] :: stack) true) else none
  | .value stack _, .openObj =>
    if stack.length < depthLimit then some (.key [] stack true) else none
  | .value (.items done :: stack) true, .closeArr => some (.complete (.arr done.reverse) stack)
  | .key done stack _, .scalar (.str k) => some (.colon done k stack)
  | .key done stack true, .closeObj => some (.complete (object done.reverse) stack)
  | .colon done k stack, .colon => some (.value (.fields done k :: stack) false)
  | .complete j (.items done :: stack), .comma => some (.value (.items (j :: done) :: stack) false)
  | .complete j (.items done :: stack), .closeArr =>
    some (.complete (.arr (j :: done).reverse) stack)
  | .complete j (.fields done k :: stack), .comma => some (.key ((k, j) :: done) stack false)
  | .complete j (.fields done k :: stack), .closeObj =>
    some (.complete (object ((k, j) :: done).reverse) stack)
  | _, _ => none

def value? : Reading → Option Json
  | .complete j [] => some j
  | _ => none

end Reading

def parse? (s : String) : Option Json := do
  let ts ← tokens [] s.toList
  let last ← ts.foldlM Reading.read (.value [] false)
  last.value?

end RolloutControl.Json
