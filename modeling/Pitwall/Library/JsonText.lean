import Pitwall.Library.Binary64
import Pitwall.Library.NumberText
set_option autoImplicit false

/-!
The texts that `json.loads` reads, as a machine over the characters with the open arrays and
objects on a stack. A text is a list of code points, as an escape can name half a surrogate pair.
-/

namespace JsonSyntax
open NumberText

/-- Of the fields with one name the last one counts. -/
inductive Value where
  | null
  | bool (b : Bool)
  | int (n : Int)
  | float (x : Binary64)
  | str (codes : List Nat)
  | arr (items : List Value)
  | obj (fields : List (List Nat × Value))

/-- What is raised: `JSONDecodeError`, `ValueError` on an integer of too many digits, and
`RecursionError`. -/
inductive Failure where
  | decode
  | digits
  | depth
  deriving DecidableEq

structure Limits where
  digits : Nat
  depth : Nat

/-- An open array or object, its items in reverse, and the name of the field that is read. -/
inductive Frame where
  | array (items : List Value)
  | object (fields : List (List Nat × Value)) (name : List Nat)

inductive Escape where
  | none
  | backslash
  | unicode (count code : Nat)
  deriving DecidableEq

inductive Phase where
  | minus
  | zero
  | whole
  | point
  | fraction
  | letter
  | sign
  | exponent
  deriving DecidableEq

structure Number where
  negative : Bool
  whole : List Char
  fraction : List Char
  exponentNegative : Bool
  exponent : List Char
  deriving DecidableEq

inductive Mode where
  | value (closable : Bool)
  | name (closable : Bool)
  | colon
  | after
  | done (v : Value)
  | string (isName : Bool) (codes : List Nat) (escape : Escape)
  | literal (rest : List Char) (v : Value)
  | number (phase : Phase) (n : Number)

structure State where
  stack : List Frame
  mode : Mode

def isWhitespace (c : Char) : Bool := c = ' ' || c = '\t' || c = '\n' || c = '\r'

def put (stack : List Frame) (v : Value) : State :=
  match stack with
  | [] => ⟨[], .done v⟩
  | .array items :: rest => ⟨.array (v :: items) :: rest, .after⟩
  | .object fields name :: rest => ⟨.object ((name, v) :: fields) name :: rest, .after⟩

def opened (limits : Limits) (stack : List Frame) (frame : Frame) (mode : Mode) :
    Except Failure State :=
  if limits.depth ≤ stack.length then .error .depth else .ok ⟨frame :: stack, mode⟩

def closed (bracket : Char) : List Frame → Except Failure State
  | .array items :: rest =>
      if bracket = ']' then .ok (put rest (.arr items.reverse)) else .error .decode
  | .object fields _ :: rest =>
      if bracket = '}' then .ok (put rest (.obj fields.reverse)) else .error .decode
  | [] => .error .decode

def number (negative : Bool) (whole : List Char) : Number := ⟨negative, whole, [], false, []⟩

def startValue (limits : Limits) (stack : List Frame) (closable : Bool) (c : Char) :
    Except Failure State :=
  match c with
  | '"' => .ok ⟨stack, .string false [] .none⟩
  | '{' => opened limits stack (.object [] []) (.name true)
  | '[' => opened limits stack (.array []) (.value true)
  | ']' => if closable then closed ']' stack else .error .decode
  | 'n' => .ok ⟨stack, .literal ['u', 'l', 'l'] .null⟩
  | 't' => .ok ⟨stack, .literal ['r', 'u', 'e'] (.bool true)⟩
  | 'f' => .ok ⟨stack, .literal ['a', 'l', 's', 'e'] (.bool false)⟩
  | 'N' => .ok ⟨stack, .literal ['a', 'N'] (.float .nan)⟩
  | 'I' => .ok ⟨stack, .literal "nfinity".toList (.float (.infinite false))⟩
  | '-' => .ok ⟨stack, .number .minus (number true [])⟩
  | '0' => .ok ⟨stack, .number .zero (number false ['0'])⟩
  | c => if c.isDigit then .ok ⟨stack, .number .whole (number false [c])⟩ else .error .decode

def stepPlain (limits : Limits) (s : State) (c : Char) : Except Failure State :=
  if isWhitespace c then .ok s
  else
    match s.mode with
    | .value closable => startValue limits s.stack closable c
    | .name closable =>
        if c = '"' then .ok ⟨s.stack, .string true [] .none⟩
        else if c = '}' ∧ closable = true then closed '}' s.stack
        else .error .decode
    | .colon => if c = ':' then .ok ⟨s.stack, .value false⟩ else .error .decode
    | .after =>
        if c = ',' then
          match s.stack with
          | .array _ :: _ => .ok ⟨s.stack, .value false⟩
          | _ => .ok ⟨s.stack, .name false⟩
        else closed c s.stack
    | _ => .error .decode

def endString (stack : List Frame) (isName : Bool) (codes : List Nat) : State :=
  match isName, stack with
  | true, .object fields _ :: rest => ⟨.object fields codes.reverse :: rest, .colon⟩
  | _, stack => put stack (.str codes.reverse)

def simpleEscape : Char → Option Nat
  | '"' => some 34
  | '\\' => some 92
  | '/' => some 47
  | 'b' => some 8
  | 'f' => some 12
  | 'n' => some 10
  | 'r' => some 13
  | 't' => some 9
  | _ => none

def hexDigit (c : Char) : Option Nat :=
  if '0' ≤ c ∧ c ≤ '9' then some (c.toNat - 48)
  else if 'a' ≤ c ∧ c ≤ 'f' then some (c.toNat - 87)
  else if 'A' ≤ c ∧ c ≤ 'F' then some (c.toNat - 55)
  else none

def putUnit (unit : Nat) : List Nat → List Nat
  | high :: codes =>
      if 0xD800 ≤ high ∧ high ≤ 0xDBFF ∧ 0xDC00 ≤ unit ∧ unit ≤ 0xDFFF then
        (0x10000 + (high - 0xD800) * 1024 + (unit - 0xDC00)) :: codes
      else unit :: high :: codes
  | [] => [unit]

def stepString (stack : List Frame) (isName : Bool) (codes : List Nat) (escape : Escape)
    (c : Char) : Except Failure State :=
  match escape with
  | .none =>
      if c = '"' then .ok (endString stack isName codes)
      else if c = '\\' then .ok ⟨stack, .string isName codes .backslash⟩
      else if c.toNat < 32 then .error .decode
      else .ok ⟨stack, .string isName (c.toNat :: codes) .none⟩
  | .backslash =>
      if c = 'u' then .ok ⟨stack, .string isName codes (.unicode 0 0)⟩
      else
        match simpleEscape c with
        | some code => .ok ⟨stack, .string isName (code :: codes) .none⟩
        | none => .error .decode
  | .unicode count code =>
      match hexDigit c with
      | some d =>
          if count = 3 then .ok ⟨stack, .string isName (putUnit (code * 16 + d) codes) .none⟩
          else .ok ⟨stack, .string isName codes (.unicode (count + 1) (code * 16 + d))⟩
      | none => .error .decode

def signed (negative : Bool) (q : ℚ) : ℚ := if negative then -q else q

def intValue (limits : Limits) (n : Number) : Except Failure Value :=
  if n.whole.length ≤ limits.digits then
    let value : Int := Nat.ofDigitChars 10 n.whole.reverse 0
    .ok (.int (if n.negative then -value else value))
  else .error .digits

def floatValue (n : Number) : Value :=
  let exponent : Int := Nat.ofDigitChars 10 n.exponent.reverse 0
  .float (.ofRat (signed n.negative (decimalValueOf n.whole.reverse n.fraction.reverse *
    10 ^ (if n.exponentNegative then -exponent else exponent))))

/-- The value of the number that has been read up to here, and whether it ends here. An unfinished
fraction or exponent does not belong to the number, and stands where nothing may stand. -/
def numberValue (limits : Limits) (phase : Phase) (n : Number) : Except Failure Value :=
  match phase with
  | .minus => .error .decode
  | .zero | .whole => intValue limits n
  | .fraction | .exponent => .ok (floatValue n)
  | .point => do
      let _ ← intValue limits n
      .error .decode
  | .letter | .sign =>
      if n.fraction = [] then do
        let _ ← intValue limits n
        .error .decode
      else .error .decode

def stepNumber (phase : Phase) (n : Number) (c : Char) : Option (Phase × Number) :=
  match phase with
  | .minus =>
      if c = '0' then some (.zero, { n with whole := ['0'] })
      else if c.isDigit then some (.whole, { n with whole := [c] })
      else none
  | .zero | .whole =>
      if c = '.' then some (.point, n)
      else if c = 'e' ∨ c = 'E' then some (.letter, n)
      else if phase = .whole ∧ c.isDigit then some (.whole, { n with whole := c :: n.whole })
      else none
  | .point => if c.isDigit then some (.fraction, { n with fraction := [c] }) else none
  | .fraction =>
      if c = 'e' ∨ c = 'E' then some (.letter, n)
      else if c.isDigit then some (.fraction, { n with fraction := c :: n.fraction })
      else none
  | .letter =>
      if c = '+' then some (.sign, n)
      else if c = '-' then some (.sign, { n with exponentNegative := true })
      else if c.isDigit then some (.exponent, { n with exponent := [c] })
      else none
  | .sign => if c.isDigit then some (.exponent, { n with exponent := [c] }) else none
  | .exponent =>
      if c.isDigit then some (.exponent, { n with exponent := c :: n.exponent }) else none

def step (limits : Limits) (s : State) (c : Char) : Except Failure State :=
  match s.mode with
  | .string isName codes escape => stepString s.stack isName codes escape c
  | .literal [] v => stepPlain limits (put s.stack v) c
  | .literal (expected :: rest) v =>
      if c ≠ expected then .error .decode
      else if rest = [] then .ok (put s.stack v)
      else .ok ⟨s.stack, .literal rest v⟩
  | .number phase n =>
      if phase = .minus ∧ c = 'I' then
        .ok ⟨s.stack, .literal "nfinity".toList (.float (.infinite true))⟩
      else
        match stepNumber phase n c with
        | some (phase, n) => .ok ⟨s.stack, .number phase n⟩
        | none => do
            let v ← numberValue limits phase n
            stepPlain limits (put s.stack v) c
  | _ => stepPlain limits s c

def finish (limits : Limits) (s : State) : Except Failure Value :=
  match s.mode with
  | .done v => .ok v
  | .number phase n => do
      let v ← numberValue limits phase n
      match s.stack with
      | [] => .ok v
      | _ => .error .decode
  | _ => .error .decode

/-- `json.loads`. -/
def loads (limits : Limits) (text : List Char) : Except Failure Value :=
  if text.head? = some '\uFEFF' then .error .decode
  else do
    let s ← text.foldlM (step limits) ⟨[], .value false⟩
    finish limits s

end JsonSyntax
