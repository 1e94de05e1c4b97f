import PushDown.Text.LowerCase.Table

/-! # Lower case

    Full Unicode lower-casing of a text. Three rules make up the whole of it.

    - A character of the table is replaced by its small form.
    - The dotted capital `İ` becomes two characters, `i` and a combining dot.
    - A capital sigma becomes the final form `ς` when it closes a word: some
      cased character comes before it, none comes after it, and characters
      that case ignores are passed over on both sides. Otherwise it is `σ`.
-/

namespace PushDown.Text

/-! ## §1. Single characters -/

/-- The small form of a character, apart from the rules that give two characters or look around. -/
def lowerChar (c : Char) : Char :=
  if c.toNat < 0x80 then
    c.toLower
  else
    match lowerRuns.findSome? (·.map? c.toNat) with
    | some code => Char.ofNat code
    | none => c

/-- Whether the character has case. -/
def isCased (c : Char) : Bool :=
  inRanges casedRanges c.toNat

/-- Whether the character is passed over when the neighbours of a letter are looked for. -/
def isCaseIgnorable (c : Char) : Bool :=
  inRanges caseIgnorableRanges c.toNat

/-! ## §2. Sigma -/

/-- Whether the first character that case does not ignore has case. -/
def meetsCased (chars : List Char) : Bool :=
  match chars.dropWhile isCaseIgnorable with
  | c :: _ => isCased c
  | [] => false

/-- The small form of a capital sigma between `before`, nearest character first, and `after`. -/
def lowerSigma (before after : List Char) : Char :=
  if meetsCased before && !meetsCased after then 'ς' else 'σ'

/-! ## §3. Texts -/

/-- The small forms of the characters that follow `before`, nearest character first. -/
def lowerFrom (before : List Char) : List Char → List Char
  | [] => []
  | c :: rest =>
    (if c = 'Σ' then [lowerSigma before rest]
      else if c = 'İ' then ['i', '\u0307']
      else [lowerChar c]) ++ lowerFrom (c :: before) rest

/-- The text in lower case. -/
def lowerCase (text : String) : String :=
  String.ofList (lowerFrom [] text.toList)

end PushDown.Text
