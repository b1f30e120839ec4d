import ErrorDocs.Text.Utf8

/-!
# Line numbers

The line of an offset is one more than the number of line breaks before it. The positions of the
breaks are collected once, in order, and each look-up is a binary search among them.
-/

namespace ErrorDocs

/-- The positions of the line feeds of a text, in ascending order, counted in bytes. -/
structure LineIndex where
  breaks : Array Nat
deriving DecidableEq, Repr

namespace LineIndex

/-- The search behind `countBelow`: all before `lo` is below `x`, and nothing from `hi` on is. -/
def searchBelow (a : Array Nat) (x : Nat) (lo hi : Nat) : Nat :=
  if h : lo < hi then
    let mid := lo + (hi - lo) / 2
    if a.getD mid 0 < x then searchBelow a x (mid + 1) hi
    else searchBelow a x lo mid
  else lo
termination_by hi - lo

/-- The number of entries of an ascending array that are below `x`, by binary search. -/
def countBelow (a : Array Nat) (x : Nat) : Nat :=
  searchBelow a x 0 a.size

/-- The number of the line that an offset lies in, counted from 1. -/
def lineOf (index : LineIndex) (offset : Nat) : Nat :=
  countBelow index.breaks offset + 1

/-- Notes one character: the offset goes past it, and a line feed is a break. -/
def note (acc : Nat × Array Nat) (c : Char) : Nat × Array Nat :=
  (acc.1 + c.utf8Size, if c = '\n' then acc.2.push acc.1 else acc.2)

/-- The line breaks of a text. -/
def ofText (text : List Char) : LineIndex :=
  ⟨(text.foldl note (0, #[])).2⟩

end LineIndex

end ErrorDocs
