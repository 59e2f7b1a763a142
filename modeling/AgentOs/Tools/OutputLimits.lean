import AgentOs.Lib.Text

/-!
Byte limits of values kept in graph state (`output_limits.py`).
-/

namespace AgentOs

open AgentOs.Lib

def dispatcherOutputMaxBytes : Nat := 50 * 1024

/-- The marker before a text that lost `bytes` bytes. -/
def truncationMarker (bytes : Nat) : String :=
  "[truncated " ++ toString bytes ++ " bytes]\n"

/-- `truncate_utf8`, for a limit that is not negative: the text and whether it
was cut. -/
def truncateUtf8 (text : String) (maxBytes : Nat) : String × Bool :=
  let size := Text.utf8Length text
  if size ≤ maxBytes then (text, false)
  else
    -- the final marker is not longer than the one for the whole text
    let conservative := Text.utf8Length (truncationMarker size)
    if maxBytes < conservative then ("", true)
    else
      let retained := Text.takeBytes (maxBytes - conservative) text.toList
      let omitted := size - (retained.map Char.utf8Size).sum
      (truncationMarker omitted ++ .ofList retained, true)

/-- A text that fits is kept as it is. -/
theorem truncateUtf8_of_le {text : String} {maxBytes : Nat}
    (fits : Text.utf8Length text ≤ maxBytes) : truncateUtf8 text maxBytes = (text, false) := by
  simp only [truncateUtf8, if_pos fits]

end AgentOs
