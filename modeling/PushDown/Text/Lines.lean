/-! # Lines

    A line feed ends a line. In a text that is read, a carriage return before
    the line feed belongs to the end of the line as well, and the last line may
    end with the text.
-/

namespace PushDown.Text

/-- The text of some lines, each with a line feed after it. -/
def ofLines (lines : List String) : String :=
  String.join (lines.map (· ++ "\n"))

/-- A line in reverse, without a carriage return at its end. -/
def dropReturn : List Char → List Char
  | '\r' :: line => line
  | line => line

/-- The lines of some characters, after those of the first line that are read so far in reverse. -/
def linesFrom (read : List Char) : List Char → List String
  | [] => if read.isEmpty then [] else [String.ofList read.reverse]
  | '\n' :: rest => String.ofList (dropReturn read).reverse :: linesFrom [] rest
  | c :: rest => linesFrom (c :: read) rest

/-- The lines of a text. -/
def lines (text : String) : List String :=
  linesFrom [] text.toList

/-- The text with `margin` put before every line but the first. -/
def hang (margin text : String) : String :=
  String.ofList (text.toList.flatMap fun c => if c = '\n' then c :: margin.toList else [c])

end PushDown.Text
