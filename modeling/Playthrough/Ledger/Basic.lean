import Playthrough.Block
import Playthrough.Fault
import Playthrough.Table

/-!
# The ledger of a story

A story under construction can be kept with numbers in place of labels. The ledger numbers its
blocks in the order in which they are allocated, and an index finds the number of a label. The ends
of alternatives are kept in numbered collections. A fork opens a collection of its own; the bodies
that are its alternatives refer to this collection, and not to the fork.

* `Ledger.allocate`: a new block comes with its entry in the index.
* `Ledger.link`: adds an exit to a block, and refuses an exit to the block itself.
* `Ledger.close`: an alternative leaves its end in the collection it refers to, a fork empties its
  collection.
-/

namespace Playthrough

/-- How a body joins the bodies in it when it closes. -/
inductive Forking where
  /-- No body in it is an alternative. -/
  | plain
  /-- A menu: every plain body directly in it is an alternative. -/
  | menu
  /-- A chain of conditions. It is skippable until a branch covers the case that no condition
      holds. -/
  | chain (skippable : Bool)
  deriving DecidableEq, Repr

/-- An open body that refers to blocks and collections by number. Stands for `Frame`. -/
structure OpenBody where
  /-- The block that receives the content of the body. -/
  block : Nat
  /-- All blanks in front of a line of the body; unknown until its first line. -/
  indent : Option (List Char) := none
  forking : Forking
  /-- For a fork its own collection, for an alternative that of its fork. -/
  arms : Option Nat
  /-- The last name declared in this body, to which relative names refer. -/
  scope : Option String := none
  deriving DecidableEq, Repr

/-- The blanks in front of a line of the body, as far as they are known. -/
def OpenBody.margin (body : OpenBody) : List Char := body.indent.getD []

/-- A story under construction, with numbered blocks and collections. Stands for `ScopeMachine`. -/
structure Ledger (κ : Type) where
  /-- The blocks in the order of their numbers. -/
  blocks : List (Block κ)
  /-- The number of the block with a label. -/
  index : List (Label × Nat)
  /-- The collections in the order of their numbers. -/
  arms : List (List Nat)
  /-- The top level of the script. -/
  root : OpenBody
  /-- The open bodies, the innermost first. -/
  stack : List OpenBody
  /-- How many labels have been minted. -/
  minted : Nat
  /-- The number of the last line. -/
  lastLine : Nat

namespace Ledger

variable {κ : Type}

/-- The ledger of an empty script. Stands for `new` of the scope machine. -/
def start : Ledger κ where
  blocks := [{ label := .entry }]
  index := [(.entry, 0)]
  arms := []
  root := { block := 0, indent := some [], forking := .plain, arms := none }
  stack := []
  minted := 0
  lastLine := 0

/-- The innermost open body. -/
def top (ledger : Ledger κ) : OpenBody := ledger.stack.headD ledger.root

/-- Changes the innermost open body. -/
def modifyTop (change : OpenBody → OpenBody) (ledger : Ledger κ) : Ledger κ :=
  match ledger.stack with
  | [] => { ledger with root := change ledger.root }
  | body :: bodies => { ledger with stack := change body :: bodies }

/-- Changes the block with a number. -/
def modify (block : Nat) (change : Block κ → Block κ) (ledger : Ledger κ) : Ledger κ :=
  { ledger with blocks := ledger.blocks.modify block change }

/-- Changes the block that receives content. -/
def modifyCurrent (change : Block κ → Block κ) (ledger : Ledger κ) : Ledger κ :=
  ledger.modify ledger.top.block change

/-- The label of a block. -/
def label? (block : Nat) (ledger : Ledger κ) : Option Label := ledger.blocks[block]?.map (·.label)

/-- The label that is minted next. -/
def nextLabel (origin : Origin) (line : Nat) (ledger : Ledger κ) : Label :=
  .synthetic ledger.minted line origin

/-- Counts a minted label. -/
def countMint (ledger : Ledger κ) : Ledger κ := { ledger with minted := ledger.minted + 1 }

/-- The number of the block that is allocated next. -/
def nextBlock (ledger : Ledger κ) : Nat := ledger.blocks.length

/-- Adds an empty block and enters it in the index. Stands for `allocate` of the scope machine. -/
def allocate (label : Label) (ledger : Ledger κ) : Ledger κ :=
  { ledger with
    blocks := ledger.blocks ++ [{ label }]
    index := Table.set label ledger.nextBlock ledger.index }

/-- The number of the collection that is opened next. -/
def nextArms (ledger : Ledger κ) : Nat := ledger.arms.length

/-- Opens an empty collection. Stands for `new_arms` of the scope machine. -/
def openArms (ledger : Ledger κ) : Ledger κ := { ledger with arms := ledger.arms ++ [[]] }

/-- Opens a body. -/
def push (body : OpenBody) (ledger : Ledger κ) : Ledger κ :=
  { ledger with stack := body :: ledger.stack }

/-- Adds an exit from a block to a label. A block cannot lead to itself. Stands for `edge` of the
    scope machine. -/
def link (source : Nat) (target : Label) (final : Bool) (line : Nat) (ledger : Ledger κ) :
    Except (Fault κ) (Ledger κ) :=
  if ledger.label? source = some target then .error (.selfJump line target)
  else .ok (ledger.modify source (·.exit target final))

/-! ## Closing -/

/-- Leads the given blocks to a fresh block, at which the innermost body continues. -/
def join (sources : List Nat) (line : Nat) (ledger : Ledger κ) :
    Except (Fault κ) (Ledger κ) := do
  let merge := ledger.nextLabel .merge line
  let linked ← sources.foldlM (fun ledger source => ledger.link source merge false line)
    ledger.countMint
  return (linked.allocate merge).modifyTop fun body => { body with block := linked.nextBlock }

/-- What a collection holds. -/
def collected (arms : Option Nat) (ledger : Ledger κ) : List Nat :=
  (arms.bind (ledger.arms[·]?)).getD []

/-- Empties a collection. -/
def clearArms (arms : Option Nat) (ledger : Ledger κ) : Ledger κ :=
  match arms with
  | some arms => { ledger with arms := ledger.arms.set arms [] }
  | none => ledger

/-- Closes the innermost body. The top level stays open. Stands for `close` of the scope machine. -/
def close (line : Nat) (ledger : Ledger κ) : Except (Fault κ) (Ledger κ) :=
  match ledger.stack with
  | [] => .ok ledger
  | body :: bodies =>
    let below := { ledger with stack := bodies }
    match body.forking, body.arms with
    | .plain, some arms => .ok { below with arms := below.arms.modify arms (· ++ [body.block]) }
    | .plain, none => below.join [body.block] line
    | forking, arms =>
      let ends := below.collected arms
      (below.clearArms arms).join (if forking = .chain true then ends ++ [body.block] else ends) line

/-- Closes a chain of conditions: any statement but a further branch ends it. Stands for
    `close_parallel` of the scope machine. -/
def closeChain (line : Nat) (ledger : Ledger κ) : Except (Fault κ) (Ledger κ) :=
  match ledger.top.forking with
  | .chain _ => ledger.close line
  | _ => .ok ledger

/-- Closes bodies from the innermost out, up to `count` of them, as long as they satisfy a test. -/
def closeWhile (test : OpenBody → Bool) (line : Nat) :
    Nat → Ledger κ → Except (Fault κ) (Ledger κ)
  | 0, ledger => .ok ledger
  | count + 1, ledger =>
    if test ledger.top then do closeWhile test line count (← ledger.close line) else .ok ledger

end Ledger

end Playthrough
