/-!
# Lines

A text is cut at every line feed. A text with `n` line feeds has `n + 1` lines, the last of which
may be empty, and joining the lines gives the text back.
-/

namespace ErrorDocs.Text

/-- Puts one character in front of a list of lines. -/
def consLine (c : Char) : List (List Char) → List (List Char)
  | [] => if c = '\n' then [[], []] else [[c]]
  | l :: ls => if c = '\n' then [] :: l :: ls else (c :: l) :: ls

/-- The lines of a text, without their line feeds. -/
def splitLines (s : List Char) : List (List Char) :=
  s.foldr consLine [[]]

/-- A line without a carriage return at its end. -/
def dropReturn (line : List Char) : List Char :=
  if line.getLast? = some '\r' then line.dropLast else line

/-- The text whose lines are given: a line feed stands between two of them. -/
def joinLines (ls : List (List Char)) : List Char :=
  List.intercalate ['\n'] ls

end ErrorDocs.Text
