import Mustache.Proofs.Program.Lowering
import Mustache.Proofs.Render.Routine
import Mustache.Proofs.Render.Sink

/-!
# Rendering trees

A tree of nodes can be rendered as it stands, node after node, without instructions and without
positions. Every tree lowers to a program, and running this program is rendering the tree: the
same output, the same result and the same changes to what the session remembers, wherever the
run starts and however it ends.
-/

namespace Mustache

namespace Node

variable {σ : Type} (host : Host) (loader : Loader σ) (depth : Nat)

mutual

/-- Renders a node in a scope, inside `depth` calls of templates. -/
def render (node : Node) (scope : Scope) : Rendering σ Unit :=
  match node with
  | .text content => Rendering.write content.toByteArray
  | .interpolation path escaped _ => do
    match ← Rendering.resolve host scope path with
    | .value value => Rendering.emit host value escaped
    | .empty | .absent => pure ()
  | .block .iterable path children _ _ => do
    let resolved ← Rendering.resolve host scope path
    resolved.frameHosts.forM fun inner => renderAll children (scope.child inner)
  | .block .inverted path children _ _ => do
    let resolved ← Rendering.resolve host scope path
    if resolved.frameHosts = [] then renderAll children scope else pure ()
  | .partialCall name _ =>
    if depth < Rendering.maxDepth then do
      let called ← Rendering.load loader name
      Rendering.execute host loader (depth + 1) called 0 called.instructions.size scope
    else throw (.tooDeep name depth)
  | .comment _ _ => pure ()

/-- Renders nodes one after another, without a `Program`. -/
def renderAll (nodes : List Node) (scope : Scope) : Rendering σ Unit :=
  match nodes with
  | [] => pure ()
  | node :: rest => do
    render node scope
    renderAll rest scope

end

end Node

namespace Rendering

variable {σ : Type} {host : Host} {loader : Loader σ} {depth : Nat}

/-- Literal text in front of a routine (`consLiteral`) is written before the routine runs. -/
theorem runRoutine_consLiteral (content : String) (routine : Routine) (scope : Scope) :
    runRoutine host loader depth (Routine.consLiteral content routine) scope = (do
      write content.toByteArray
      runRoutine host loader depth routine scope) := by
  unfold Routine.consLiteral
  split
  · next empty =>
    rw [String.isEmpty_iff] at empty
    rw [empty, String.toByteArray_empty, write_empty, pure_bind]
  · cases routine with
    | literal following next =>
      simp only [runRoutine]
      rw [String.toByteArray_append, write_append, bind_assoc]
    | done | interpolation | block | partialCall => rfl

mutual

theorem runRoutine_consNode (node : Node) (following : Routine) (scope : Scope) :
    runRoutine host loader depth (Routine.consNode node following) scope = (do
      node.render host loader depth scope
      runRoutine host loader depth following scope) := by
  cases node with
  | text content =>
    rw [Routine.consNode, Node.render, runRoutine_consLiteral]
  | interpolation path escaped line =>
    rw [Routine.consNode, runRoutine]
    rfl
  | block kind path children firstLine lastLine =>
    have body : runRoutine host loader depth (Routine.ofNodes children) =
        Node.renderAll host loader depth children := by
      funext inner
      exact runRoutine_ofNodes children inner
    rw [Routine.consNode, runRoutine, body, overFrames]
    cases kind with
    | iterable => rw [Node.render]
    | inverted => simp only [Node.render, List.isEmpty_iff]
  | partialCall name line =>
    rw [Routine.consNode, Node.render, runRoutine, invoke]
  | comment text line =>
    rw [Routine.consNode, Node.render, pure_bind]

/-- To `runRoutine` the routine of a tree is to render the tree (`renderAll`). -/
theorem runRoutine_ofNodes (nodes : List Node) (scope : Scope) :
    runRoutine host loader depth (Routine.ofNodes nodes) scope =
      Node.renderAll host loader depth nodes scope := by
  cases nodes with
  | nil => rw [Routine.ofNodes, Node.renderAll, runRoutine]
  | cons node rest =>
    rw [Routine.ofNodes, Node.renderAll, runRoutine_consNode node]
    simp only [runRoutine_ofNodes rest]

end

/-- To `execute` a program with the instructions of a tree is to render the tree (`renderAll`). -/
theorem execute_eq_renderAll {program : Program} {nodes : List Node}
    (same : program.instructions.toList = Instruction.ofNodes nodes) (scope : Scope) :
    execute host loader depth program 0 program.instructions.size scope =
      Node.renderAll host loader depth nodes scope := by
  rw [← Routine.flatten_ofNodes] at same
  rw [execute_eq_runRoutine (Routine.ofNodes nodes) same, runRoutine_ofNodes]

end Rendering

/-- Of every tree `Program.make` makes a program, and to `execute` the program is to render the tree
(`Node.renderAll`). -/
theorem exists_program_execute_eq_renderAll (nodes : List Node) :
    ∃ program, Program.make (Instruction.ofNodes nodes) = .ok program ∧
      program.instructions.toList = Instruction.ofNodes nodes ∧
      ∀ {σ : Type} (host : Host) (loader : Loader σ) (depth : Nat) (scope : Scope),
        Rendering.execute host loader depth program 0 program.instructions.size scope =
          Node.renderAll host loader depth nodes scope := by
  obtain ⟨program, made, same⟩ := Program.exists_make_ofNodes nodes
  refine ⟨program, made, same, ?_⟩
  intro σ host loader depth scope
  exact Rendering.execute_eq_renderAll same scope

end Mustache
