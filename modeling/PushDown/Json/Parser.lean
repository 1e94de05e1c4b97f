import PushDown.Json.Basic

/-! # Reading JSON

    The grammar of JSON on a list of characters. Every reader answers what it
    read and the characters that are left, or nothing when the text does not
    fit the grammar.

    Values nest, so the reader of values is bounded by a number of steps. Each
    character can start at most one value and one list, so twice the length of
    the text is enough for any text.
-/

namespace PushDown.Json.Parser

/-! ## §1. Blanks and numbers -/

/-- The characters that may stand between tokens. -/
def isBlank (c : Char) : Bool :=
  c == ' ' || c == '\t' || c == '\n' || c == '\r'

/-- The text after its leading blanks. -/
def skip (cs : List Char) : List Char :=
  cs.dropWhile isBlank

/-- The digits at the front of the text, as numbers, and what follows them. -/
def digits (cs : List Char) : List Nat × List Char :=
  ((cs.takeWhile Char.isDigit).map fun c => c.toNat - '0'.toNat, cs.dropWhile Char.isDigit)

/-- At least one digit. -/
def digits1 (cs : List Char) : Option (List Nat × List Char) :=
  match digits cs with
  | ([], _) => none
  | found => some found

/-- The digits before the point: a zero alone, or digits that do not start with one. -/
def whole : List Char → Option (List Nat × List Char)
  | '0' :: rest => some ([0], rest)
  | cs => digits1 cs

/-- The point and the digits after it, if there is a point. -/
def fraction : List Char → Option (Option (List Nat) × List Char)
  | '.' :: rest => (digits1 rest).map fun (ds, rest) => (some ds, rest)
  | cs => some (none, cs)

/-- The sign at the front of an exponent, as whether it is a minus. -/
def exponentSign : List Char → Bool × List Char
  | '-' :: rest => (true, rest)
  | '+' :: rest => (false, rest)
  | cs => (false, cs)

/-- The exponent, if there is one. -/
def exponent : List Char → Option (Option (Bool × List Nat) × List Char)
  | c :: rest =>
    if c == 'e' || c == 'E' then
      let (negative, rest) := exponentSign rest
      (digits1 rest).map fun (ds, rest) => (some (negative, ds), rest)
    else
      some (none, c :: rest)
  | [] => some (none, [])

/-- A number without its sign. -/
def unsigned (negative : Bool) (cs : List Char) : Option (Number × List Char) :=
  match whole cs with
  | none => none
  | some (whole, cs) =>
    match fraction cs with
    | none => none
    | some (fraction, cs) =>
      (exponent cs).map fun (exponent, cs) => (⟨negative, whole, fraction, exponent⟩, cs)

/-- A number. -/
def number : List Char → Option (Number × List Char)
  | '-' :: rest => unsigned true rest
  | cs => unsigned false cs

/-! ## §2. Texts -/

/-- The value of a hexadecimal digit. -/
def hexDigit? (c : Char) : Option Nat :=
  if '0' ≤ c ∧ c ≤ '9' then some (c.toNat - '0'.toNat)
  else if 'a' ≤ c ∧ c ≤ 'f' then some (c.toNat - 'a'.toNat + 10)
  else if 'A' ≤ c ∧ c ≤ 'F' then some (c.toNat - 'A'.toNat + 10)
  else none

/-- The value of four hexadecimal digits. -/
def hex4? (a b c d : Char) : Option Nat :=
  match hexDigit? a, hexDigit? b, hexDigit? c, hexDigit? d with
  | some a, some b, some c, some d => some (((a * 16 + b) * 16 + c) * 16 + d)
  | _, _, _, _ => none

/-- The code point that a short escape stands for. -/
def escape? : Char → Option Nat
  | '"' => some 0x22
  | '\\' => some 0x5C
  | '/' => some 0x2F
  | 'b' => some 0x08
  | 'f' => some 0x0C
  | 'n' => some 0x0A
  | 'r' => some 0x0D
  | 't' => some 0x09
  | _ => none

/-- The code points of a text up to its closing quote, after those read so far in reverse. Escapes may
    give halves of surrogate pairs; control characters have to be escaped. -/
def codes (read : List Nat) : List Char → Option (List Nat × List Char)
  | '"' :: rest => some (read.reverse, rest)
  | '\\' :: 'u' :: a :: b :: c :: d :: rest =>
    match hex4? a b c d with
    | some code => codes (code :: read) rest
    | none => none
  | '\\' :: c :: rest =>
    match escape? c with
    | some code => codes (code :: read) rest
    | none => none
  | c :: rest => if c.toNat < 0x20 || c == '\\' then none else codes (c.toNat :: read) rest
  | [] => none

/-- The characters of a list of code points, after those read so far in reverse, with surrogate pairs
    put together; nothing if half of a pair stands alone. -/
def characters (read : List Char) : List Nat → Option (List Char)
  | high :: low :: rest =>
    if 0xD800 ≤ high ∧ high < 0xDC00 then
      if 0xDC00 ≤ low ∧ low < 0xE000 then
        characters (Char.ofNat (0x10000 + (high - 0xD800) * 0x400 + (low - 0xDC00)) :: read) rest
      else
        none
    else if 0xDC00 ≤ high ∧ high < 0xE000 then none
    else characters (Char.ofNat high :: read) (low :: rest)
  | [code] =>
    if 0xD800 ≤ code ∧ code < 0xE000 then none else some (Char.ofNat code :: read).reverse
  | [] => some read.reverse

/-- A text after its opening quote. -/
def textBody (cs : List Char) : Option (Option String × List Char) :=
  (codes [] cs).map fun (found, rest) => ((characters [] found).map String.ofList, rest)

/-! ## §3. Values -/

mutual

/-- A value, in at most the given number of steps. -/
def value : (steps : Nat) → List Char → Option (Json × List Char)
  | 0, _ => none
  | steps + 1, cs =>
    match skip cs with
    | 'n' :: 'u' :: 'l' :: 'l' :: rest => some (.null, rest)
    | 't' :: 'r' :: 'u' :: 'e' :: rest => some (.bool true, rest)
    | 'f' :: 'a' :: 'l' :: 's' :: 'e' :: rest => some (.bool false, rest)
    | '"' :: rest => (textBody rest).map fun (found, rest) => (.text found, rest)
    | '[' :: rest =>
      match skip rest with
      | ']' :: rest => some (.array [], rest)
      | rest => items steps [] rest
    | '{' :: rest =>
      match skip rest with
      | '}' :: rest => some (.object [], rest)
      | rest => members steps [] rest
    | cs => (number cs).map fun (found, rest) => (.number found, rest)

/-- The items of a list up to its end, after those read so far in reverse. -/
def items : (steps : Nat) → List Json → List Char → Option (Json × List Char)
  | 0, _, _ => none
  | steps + 1, read, cs =>
    match value steps cs with
    | none => none
    | some (item, cs) =>
      match skip cs with
      | ',' :: rest => items steps (item :: read) rest
      | ']' :: rest => some (.array (item :: read).reverse, rest)
      | _ => none

/-- The members of an object up to its end, after those read so far in reverse. -/
def members : (steps : Nat) → List (Option String × Json) → List Char → Option (Json × List Char)
  | 0, _, _ => none
  | steps + 1, read, cs =>
    match skip cs with
    | '"' :: rest =>
      match textBody rest with
      | none => none
      | some (name, cs) =>
        match skip cs with
        | ':' :: rest =>
          match value steps rest with
          | none => none
          | some (found, cs) =>
            match skip cs with
            | ',' :: rest => members steps ((name, found) :: read) rest
            | '}' :: rest => some (.object ((name, found) :: read).reverse, rest)
            | _ => none
        | _ => none
    | _ => none

end

end Parser

/-- Reads a text that holds one value and nothing else but blanks. -/
def parse? (text : String) : Option Json :=
  let cs := text.toList
  match Parser.value (2 * cs.length + 2) cs with
  | some (found, rest) => if (Parser.skip rest).isEmpty then some found else none
  | none => none

end PushDown.Json
