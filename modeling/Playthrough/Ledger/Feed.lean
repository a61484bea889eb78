import Playthrough.Cost
import Playthrough.Ledger.Basic
import Playthrough.Script.Statement
import Playthrough.Story.Graph
import Playthrough.Text.Blank

/-!
# Reading a script into a ledger

Each line of a script changes the ledger. The blanks in front of it close the bodies that it ends; a
header then opens a body, a jump or a return closes the current block, and content goes into it.

* `Ledger.align`: closes the bodies that a line ends and takes its indentation off.
* `Ledger.openHeader`: what each kind of header does.
* `Ledger.feedAll`, `Ledger.finish`: what the lines of a script do, and the story they make.
-/

namespace Playthrough.Ledger

open Script Text

variable {κ : Type}

/-! ## Indentation -/

/-- The body around the innermost one. -/
def enclosing (ledger : Ledger κ) : OpenBody := ledger.stack.tail.headD ledger.root

/-- The first line of a body sets its indentation. -/
def establish (line : List Char) (ledger : Ledger κ) :
    Except IndentFault (Ledger κ × List Char) :=
  let outer := ledger.enclosing.margin
  match outer.isPrefixOf? line with
  | none => .error .dedentedBody
  | some rest =>
    if (leading rest).isEmpty then .error .unindentedBody
    else
      .ok (ledger.modifyTop fun body => { body with indent := some (outer ++ leading rest) },
        trimStart rest)

/-- Finds the body that a line stands in, closes the bodies that it ends, and takes its indentation
    off. Stands for `align` of the scope machine. -/
def align (line : List Char) (number : Nat) (ledger : Ledger κ) :
    Except (Fault κ) (Ledger κ × List Char) := do
  let fail := Fault.indentation number (String.ofList line)
  match ledger.top.indent with
  | none => (ledger.establish line).mapError fail
  | some _ =>
    let ledger ← ledger.closeWhile (!·.margin.isPrefixOf line) number ledger.stack.length
    let rest := (ledger.top.margin.isPrefixOf? line).getD line
    if (leading rest).isEmpty then return (ledger, rest)
    else if ledger.stack.isEmpty then throw (fail .indentedTopLevel)
    else throw (fail .unmatchedDedent)

/-! ## Names -/

/-- The innermost name that a relative name refers to. -/
def scope? (ledger : Ledger κ) : Option String :=
  (ledger.stack ++ [ledger.root]).findSome? (·.scope)

/-- The full name of a label. A name that starts with a dot continues the name in scope. Stands for
    `scope_name` of the scope machine. -/
def qualify (name : String) (line : Nat) (ledger : Ledger κ) : Except (Fault κ) String :=
  if name.toList.head? = some '.' then
    match ledger.scope? with
    | some scope => .ok (scope ++ name)
    | none => .error (.noLabelScope line name)
  else .ok name

/-- A declared name comes into scope, unless it is relative itself. -/
def declare (name : String) (ledger : Ledger κ) : Ledger κ :=
  if name.toList.head? = some '.' then ledger
  else ledger.modifyTop fun body => { body with scope := some name }

/-! ## Opening bodies -/

/-- Opens a body whose block has the given label, which must not be in the index. Play falls into it
    from the current block. -/
def enter (label : Label) (forking : Forking) (arms : Option Nat) (line : Nat)
    (ledger : Ledger κ) : Except (Fault κ) (Ledger κ) :=
  if (ledger.index.lookup label).isSome then .error (.duplicateLabel line label)
  else do
    let linked ← ledger.link ledger.top.block label false line
    return (linked.allocate label).push { block := linked.nextBlock, forking, arms }

/-- Opens a body under a minted label. -/
def enterFresh (forking : Forking) (arms : Option Nat) (line : Nat) (ledger : Ledger κ) :
    Except (Fault κ) (Ledger κ) :=
  ledger.countMint.enter (ledger.nextLabel .scope line) forking arms line

/-- Opens a chain of conditions and a collection for it. Its body has the indentation of the body it
    stands in, so that the further branches find it there. Stands for `open_chain` of the scope
    machine. -/
def openChain (line : Nat) (ledger : Ledger κ) : Except (Fault κ) (Ledger κ) := do
  let dispatch := ledger.nextLabel .cond line
  let linked ← ledger.countMint.link ledger.top.block dispatch true line
  return (linked.allocate dispatch).openArms.push
    { block := linked.nextBlock, indent := ledger.top.indent, forking := .chain true,
      arms := some linked.nextArms }

/-- The collection of a body that stands under a header which is neither named nor part of a chain:
    a choice if it stands directly in a menu. -/
def plainArms (body : OpenBody) : Option Nat :=
  match body.forking with
  | .menu => body.arms
  | _ => none

/-- Opens the body of a header. Stands for `open` of the scope machine. -/
def openHeader (header : Header) (line : Nat) (ledger : Ledger κ) :
    Except (Fault κ) (Ledger κ) :=
  match header with
  | .label name => do
    let ledger ← ledger.closeChain line
    let full ← ledger.qualify name line
    (ledger.declare name).enter (.named full) .plain none line
  | .menu => do
    let ledger ← ledger.closeChain line
    ledger.openArms.enterFresh .menu (some ledger.nextArms) line
  | .condition => do
    let ledger ← ledger.closeChain line
    let ledger ← ledger.openChain line
    ledger.enterFresh .plain ledger.top.arms line
  | .branch kind =>
    match ledger.top.forking with
    | .chain skippable =>
      let forking := Forking.chain (skippable && kind == .elif)
      (ledger.modifyTop fun body => { body with forking }).enterFresh .plain ledger.top.arms line
    | _ => .error (.misplacedBranch line kind)
  | .plain => do
    let ledger ← ledger.closeChain line
    ledger.enterFresh .plain (plainArms ledger.top) line

/-! ## Lines -/

/-- A jump out of the current block. Stands for `jump` of the scope machine. -/
def jump (target : String) (line : Nat) (ledger : Ledger κ) : Except (Fault κ) (Ledger κ) := do
  let full ← ledger.qualify target line
  ledger.link ledger.top.block (.named full) true line

/-- Carries out a statement. -/
def obey (reader : LineReader κ) (statement : Statement) (line : Nat) (ledger : Ledger κ) :
    Except (Fault κ) (Ledger κ) :=
  match statement with
  | .header header => ledger.openHeader header line
  | .jump target => do (← ledger.closeChain line).jump target line
  | .terminate dead => do
    return (← ledger.closeChain line).modifyCurrent (·.close dead)
  | .content text => do
    let ledger ← ledger.closeChain line
    match reader text with
    | some record => return ledger.modifyCurrent (·.say record)
    | none => return ledger

/-- Reads a line. Lines without code only count. Stands for `parse_line` of the graph builder. -/
def feed (reader : LineReader κ) (line : String) (number : Nat) (ledger : Ledger κ) :
    Except (Fault κ) (Ledger κ) := do
  let ledger := { ledger with lastLine := number }
  if isBlankLine line.toList then return ledger
  else
    let (ledger, rest) ← ledger.align line.toList number
    ledger.obey reader (statement (String.ofList rest)) number

/-- Reads numbered lines, up to the first fault. -/
def feedAll (reader : LineReader κ) (lines : List (String × Nat)) (ledger : Ledger κ) :
    Except (Fault κ) (Ledger κ) :=
  lines.foldlM (fun ledger line => ledger.feed reader line.1 line.2) ledger

/-- Closes all open bodies and returns the story. Stands for `finish` of the scope machine. -/
def finish (ledger : Ledger κ) : Except (Fault κ) (StoryGraph κ) := do
  let closed ← ledger.closeWhile (fun _ => true) ledger.lastLine ledger.stack.length
  return StoryGraph.ofBlocks closed.blocks

end Playthrough.Ledger
