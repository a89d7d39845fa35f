/-
A dump is what a command shows when everything it asked for has arrived: a line
that names the view, the view, and a line that closes it. What the log has to
say about the view is said at its place in the text, if the text before it could
be written.
-/

import NicScope.Session

namespace NicScope

/-- A piece of a dump. -/
inductive Piece where
  | text (text : String)
  | note (record : LogRecord)
  deriving DecidableEq, Repr

abbrev Dump := List Piece

namespace Dump

/-- The line that closes every dump. -/
def closing : String := "#################### END #######################\n"

/-- A view between the line that names it and the closing line. -/
def framed (banner : String) (view : Dump) : Dump :=
  .text (banner ++ "\n") :: view ++ [.text closing]

/-- The text of a dump. -/
def text (dump : Dump) : String :=
  String.join (dump.map fun
    | .text text => text
    | .note _ => "")

/-- Lines of text. -/
def lines (texts : List String) : String :=
  String.join (texts.map (· ++ "\n"))

/-- Writes a dump, up to the first piece that cannot be written. -/
def print {τ : Type} : Dump → Step τ Unit
  | [] => return
  | .text text :: rest => do
    Session.print text
    print rest
  | .note record :: rest => do
    modify (Session.note record)
    print rest

end Dump

end NicScope
