import Playthrough.Cost
import Playthrough.Draft.Align
import Playthrough.Script.Statement

/-!
# Reading a script into a draft

Each line of a script changes the draft: a header opens a body, a jump or a return closes the
current block, and content is handed to a line reader whose record goes into the current block.

* `Draft.openHeader`: what each kind of header does.
* `Draft.feed`: what a line does.
* `Draft.feedAll`: what the lines of a script do, up to the first fault.
-/

namespace Playthrough.Draft

open Script

variable {κ : Type}

/-! ## Names -/

/-- The innermost name that a relative name refers to. -/
def scope? (draft : Draft κ) : Option String :=
  (draft.stack ++ [draft.root]).findSome? (·.scope)

/-- The full name of a label. A name that starts with a dot continues the name in scope. Stands for
    `scope_name` of the scope machine. -/
def qualify (name : String) (line : Nat) (draft : Draft κ) : Except (Fault κ) String :=
  if name.toList.head? = some '.' then
    match draft.scope? with
    | some scope => .ok (scope ++ name)
    | none => .error (.noLabelScope line name)
  else .ok name

/-- A declared name comes into scope, unless it is relative itself. -/
def declare (name : String) (draft : Draft κ) : Draft κ :=
  if name.toList.head? = some '.' then draft
  else draft.modifyTop fun frame => { frame with scope := some name }

/-! ## Opening bodies -/

/-- Opens a body whose block has the given label. Play falls into it from the current block. -/
def enter (label : Label) (role : Role) (line : Nat) (draft : Draft κ) :
    Except (Fault κ) (Draft κ) :=
  if (draft.find? label).isSome then .error (.duplicateLabel line label)
  else do
    let linked ← draft.link draft.top.block label false line
    return (linked.allocate label).push { block := label, role }

/-- Opens a body under a minted label. -/
def enterFresh (role : Role) (line : Nat) (draft : Draft κ) : Except (Fault κ) (Draft κ) :=
  draft.countMint.enter (draft.nextLabel .scope line) role line

/-- Opens a chain of conditions. Its frame has the indentation of the body it stands in, so that the
    further branches find it there. Stands for `open_chain` of the scope machine. -/
def openChain (line : Nat) (draft : Draft κ) : Except (Fault κ) (Draft κ) := do
  let dispatch := draft.nextLabel .cond line
  let linked ← draft.countMint.link draft.top.block dispatch true line
  return (linked.allocate dispatch).push
    { block := dispatch, indent := draft.top.indent, role := .chain [] true }

/-- The body under a header that is neither named nor part of a chain: a choice if it stands
    directly in a menu. -/
def plainRole (frame : Frame) : Role :=
  match frame.role with
  | .menu _ => .arm
  | _ => .body

/-- Opens the body of a header. Stands for `open` of the scope machine. -/
def openHeader (header : Header) (line : Nat) (draft : Draft κ) : Except (Fault κ) (Draft κ) :=
  match header with
  | .label name => do
    let draft ← draft.closeChain line
    let full ← draft.qualify name line
    (draft.declare name).enter (.named full) .body line
  | .menu => do
    let draft ← draft.closeChain line
    draft.enterFresh (.menu []) line
  | .condition => do
    let draft ← draft.closeChain line
    let draft ← draft.openChain line
    draft.enterFresh .arm line
  | .branch kind =>
    match draft.top.role with
    | .chain ends skippable =>
      let role := Role.chain ends (skippable && kind == .elif)
      (draft.modifyTop fun frame => { frame with role }).enterFresh .arm line
    | _ => .error (.misplacedBranch line kind)
  | .plain => do
    let draft ← draft.closeChain line
    draft.enterFresh (plainRole draft.top) line

/-! ## Lines -/

/-- A jump out of the current block. Stands for `jump` of the scope machine. -/
def jump (target : String) (line : Nat) (draft : Draft κ) : Except (Fault κ) (Draft κ) := do
  let full ← draft.qualify target line
  draft.link draft.top.block (.named full) true line

/-- Carries out a statement. -/
def obey (reader : LineReader κ) (statement : Statement) (line : Nat) (draft : Draft κ) :
    Except (Fault κ) (Draft κ) :=
  match statement with
  | .header header => draft.openHeader header line
  | .jump target => do (← draft.closeChain line).jump target line
  | .terminate dead => do
    return (← draft.closeChain line).modifyCurrent (·.close dead)
  | .content text => do
    let draft ← draft.closeChain line
    match reader text with
    | some record => return draft.modifyCurrent (·.say record)
    | none => return draft

/-- Reads a line. Lines without code only count. Stands for `parse_line` of the graph builder. -/
def feed (reader : LineReader κ) (line : String) (number : Nat) (draft : Draft κ) :
    Except (Fault κ) (Draft κ) := do
  let draft := { draft with lastLine := number }
  if isBlankLine line.toList then return draft
  else
    let (draft, rest) ← draft.align line.toList number
    draft.obey reader (statement (String.ofList rest)) number

/-- Reads numbered lines, up to the first fault. -/
def feedAll (reader : LineReader κ) (lines : List (String × Nat)) (draft : Draft κ) :
    Except (Fault κ) (Draft κ) :=
  lines.foldlM (fun draft line => draft.feed reader line.1 line.2) draft

end Playthrough.Draft
