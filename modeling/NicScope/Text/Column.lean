/-
Text set in columns. A cell is filled up with blanks to the width of its
column, counted in characters; a longer text is left as it is.
-/

namespace NicScope.Column

/-- `text` at the left edge of a column. -/
def left (width : Nat) (text : String) : String :=
  text ++ String.ofList (List.replicate (width - text.length) ' ')

/-- `text` at the right edge of a column. -/
def right (width : Nat) (text : String) : String :=
  String.ofList (List.replicate (width - text.length) ' ') ++ text

end NicScope.Column
