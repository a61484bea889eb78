import Playthrough.Draft.Basic
import Playthrough.Story.Graph

/-!
# The story of a draft

At the end of a script all open bodies close, as a line without indentation would make them. The
blocks of the draft are then the blocks of the story.
-/

namespace Playthrough.Draft

variable {κ : Type}

/-- Closes all open bodies and returns the story. Stands for `finish` of the scope machine. -/
def finish (draft : Draft κ) : Except (Fault κ) (StoryGraph κ) := do
  let closed ← draft.closeMany draft.lastLine draft.stack.length
  return StoryGraph.ofBlocks closed.blocks

end Playthrough.Draft
