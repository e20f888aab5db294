/-! # Reading the front of a text
-/

namespace Depot.Text

/-- What the front of a text means, and the text that follows. -/
abbrev Reading (α : Type) := Option (α × List Char)

/-- The text behind a mark, if it starts with it. -/
def readMark (mark : Char) : List Char → Option (List Char)
  | [] => none
  | c :: rest => if c = mark then some rest else none

def readWord (word : String) (text : List Char) : Option (List Char) :=
  let word := word.toList
  if word.isPrefixOf text then some (text.drop word.length) else none

end Depot.Text
