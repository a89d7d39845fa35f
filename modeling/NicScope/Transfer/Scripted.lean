/-
Replies that are written down in advance and given one after another, whatever
is asked. When they run out every question times out. The questions are kept.
-/

import NicScope.Transfer.Response

namespace NicScope

/-- Replies that are still to be given, and the questions so far, the latest first. -/
structure ScriptedReplies (κ : Type) where
  replies : List Reply
  asked : List κ

namespace ScriptedReplies

variable {κ α : Type}

/-- Gives the next reply. -/
def answer (question : κ) (script : ScriptedReplies κ) : Reply × ScriptedReplies κ :=
  match script.replies with
  | [] => (.error (.transport .hostTimeout), ⟨[], question :: script.asked⟩)
  | reply :: rest => (reply, ⟨rest, question :: script.asked⟩)

/-- Holds a dialogue with `replies`, and gives its result and its questions in order. -/
def converse (replies : List Reply) (dialogue : Dialogue κ Reply α) : α × List κ :=
  let (result, script) := dialogue.run answer (fun _ script => script) ⟨replies, []⟩
  (result, script.asked.reverse)

end ScriptedReplies

end NicScope
