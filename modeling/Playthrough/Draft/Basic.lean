import Playthrough.Block
import Playthrough.Fault

/-!
# The draft of a story

A script is read line by line into a draft: the blocks allocated so far, and the headers whose
bodies are still open. Each open body is a frame. The frames form a stack over the root frame, which
stands for the top level of the script and is never closed.

Closing a frame makes the story continue: its ends are led to a fresh block, which becomes the
current block of the frame below. Bodies that are alternatives (the choices of a menu, the branches
of a chain of conditions) instead leave their end with the fork right below them, and the fork leads
all of these to its fresh block when it closes.

* `Draft.link`: adds an exit to a block, and refuses an exit to the block itself.
* `Draft.close`, `Draft.closeMany`: closing frames from the top.
-/

namespace Playthrough

/-- How the body of a frame goes on when it closes. -/
inductive Role where
  /-- A plain body: play continues behind it. -/
  | body
  /-- An alternative of the fork right below. -/
  | arm
  /-- A menu, with the ends of the choices closed so far. -/
  | menu (ends : List Label)
  /-- A chain of conditions, with the ends of the branches closed so far. A chain is skippable until
      a branch covers the case that no condition holds. -/
  | chain (ends : List Label) (skippable : Bool)
  deriving DecidableEq, Repr

/-- The role of a fork after one more of its alternatives has closed. -/
def Role.collect (last : Label) : Role → Role
  | .menu ends => .menu (ends ++ [last])
  | .chain ends skippable => .chain (ends ++ [last]) skippable
  | role => role

/-- An open body. -/
structure Frame where
  /-- The block that receives the content of the body. -/
  block : Label
  /-- All blanks in front of a line of the body; unknown until its first line. -/
  indent : Option (List Char) := none
  role : Role
  /-- The last name declared in this body, to which relative names refer. -/
  scope : Option String := none
  deriving DecidableEq, Repr

/-- The blanks in front of a line of the body, as far as they are known. -/
def Frame.margin (frame : Frame) : List Char := frame.indent.getD []

/-- A story under construction. Stands for `ScopeMachine`, whose numbers `Ledger` keeps. -/
structure Draft (κ : Type) where
  /-- The blocks allocated so far, the newest first. -/
  blocks : List (Block κ)
  /-- The top level of the script. -/
  root : Frame
  /-- The open bodies, the innermost first. -/
  stack : List Frame
  /-- How many labels have been minted. -/
  minted : Nat
  /-- The number of the last line. -/
  lastLine : Nat

namespace Draft

variable {κ : Type}

/-- The draft of an empty script. Stands for `new` of the scope machine. -/
def start : Draft κ where
  blocks := [{ label := .entry }]
  root := { block := .entry, indent := some [], role := .body }
  stack := []
  minted := 0
  lastLine := 0

/-- The innermost open body. -/
def top (draft : Draft κ) : Frame := draft.stack.headD draft.root

/-- Changes the innermost open body. -/
def modifyTop (change : Frame → Frame) (draft : Draft κ) : Draft κ :=
  match draft.stack with
  | [] => { draft with root := change draft.root }
  | frame :: frames => { draft with stack := change frame :: frames }

/-- The block with a label. -/
def find? (label : Label) (draft : Draft κ) : Option (Block κ) :=
  draft.blocks.find? (·.label = label)

/-- Changes the block with a label. -/
def modifyBlock (label : Label) (change : Block κ → Block κ) : List (Block κ) → List (Block κ)
  | [] => []
  | block :: blocks =>
    if block.label = label then change block :: blocks
    else block :: modifyBlock label change blocks

/-- Changes the block with a label, in a draft. -/
def modify (label : Label) (change : Block κ → Block κ) (draft : Draft κ) : Draft κ :=
  { draft with blocks := modifyBlock label change draft.blocks }

/-- Changes the block that receives content. Stands for `current` of the scope machine. -/
def modifyCurrent (change : Block κ → Block κ) (draft : Draft κ) : Draft κ :=
  draft.modify draft.top.block change

/-- The label that is minted next. Stands for `mint` of the label arena. -/
def nextLabel (origin : Origin) (line : Nat) (draft : Draft κ) : Label :=
  .synthetic draft.minted line origin

/-- Counts a minted label. -/
def countMint (draft : Draft κ) : Draft κ := { draft with minted := draft.minted + 1 }

/-- Adds an empty block. Stands for `allocate` of the scope machine. -/
def allocate (label : Label) (draft : Draft κ) : Draft κ :=
  { draft with blocks := { label } :: draft.blocks }

/-- Opens a body. -/
def push (frame : Frame) (draft : Draft κ) : Draft κ :=
  { draft with stack := frame :: draft.stack }

/-- Adds an exit from one block to another. A block cannot lead to itself. Stands for `edge` of the
    scope machine. -/
def link (source target : Label) (final : Bool) (line : Nat) (draft : Draft κ) :
    Except (Fault κ) (Draft κ) :=
  if source = target then .error (.selfJump line target)
  else .ok (draft.modify source (·.exit target final))

/-! ## Closing -/

/-- Leads the given blocks to a fresh block, at which the innermost body continues. -/
def join (sources : List Label) (line : Nat) (draft : Draft κ) : Except (Fault κ) (Draft κ) := do
  let merge := draft.nextLabel .merge line
  let linked ← sources.foldlM (fun draft source => draft.link source merge false line)
    draft.countMint
  return (linked.allocate merge).modifyTop fun frame => { frame with block := merge }

/-- Closes the innermost body. The top level stays open. Stands for `close` of the scope machine. -/
def close (line : Nat) (draft : Draft κ) : Except (Fault κ) (Draft κ) :=
  match draft.stack with
  | [] => .ok draft
  | frame :: frames =>
    let below := { draft with stack := frames }
    match frame.role with
    | .arm => .ok (below.modifyTop fun fork => { fork with role := fork.role.collect frame.block })
    | .body => below.join [frame.block] line
    | .menu ends => below.join ends line
    | .chain ends skippable => below.join (if skippable then ends ++ [frame.block] else ends) line

/-- Closes the given number of bodies. -/
def closeMany (line : Nat) : Nat → Draft κ → Except (Fault κ) (Draft κ)
  | 0, draft => .ok draft
  | count + 1, draft => do closeMany line count (← draft.close line)

/-- Closes a chain of conditions: any statement but a further branch ends it. Stands for
    `close_parallel` of the scope machine. -/
def closeChain (line : Nat) (draft : Draft κ) : Except (Fault κ) (Draft κ) :=
  match draft.top.role with
  | .chain .. => draft.close line
  | _ => .ok draft

end Draft

end Playthrough
