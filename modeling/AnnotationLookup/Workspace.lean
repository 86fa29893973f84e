import AnnotationLookup.Form.Tree
import AnnotationLookup.Resolver.Query
import AnnotationLookup.Tree.Edit

/-!
# Workspaces

Any number of trees are built and looked into, through any number of resolvers that outlive the
trees' growth.

* `Tree.copy?`: a tree made into a document and read back;
* `Workspace`: trees and resolvers by number, and the world of their loaders;
* `Command`, `Answer`, `Workspace.start`, `Workspace.step`, `Workspace.run`.

Every tree that comes into being, also as a copy, gets an identity of its own.
-/

namespace AnnotationLookup

/-- The tree that the document of a tree denotes. -/
def Tree.copy? (t : Tree) (id : TreeId) : Option Tree := Tree.ofJson? id t.toJson

/-- The trees and the resolvers that have been made, in a world. -/
structure Workspace (σ : Type) where
  trees : List Tree := []
  resolvers : List Resolver := []
  world : World σ

/-- A step in a workspace. Trees and resolvers are given by number. -/
inductive Command
  | newTree
  | cloneTree (tree : Nat)
  /-- Adds a copy of a tree by way of its document. -/
  | copyTree (tree : Nat)
  /-- Adds the tree that a document denotes. -/
  | decodeTree (document : Json)
  | edit (tree : Nat) (edit : Edit)
  | newResolver (provider : Provider) (settings : Settings)
  | lookup (resolver tree : Nat) (use : UseId) (key : String) (query : Query)

/-- The answer to a command. -/
inductive Answer
  /-- The number of a new tree or resolver. -/
  | added (number : Nat)
  | edited (outcome : Except Refusal Nat)
  | found (outcome : Except Failure Reply)
  /-- A document denotes no tree. -/
  | undecodable
  /-- There is no tree or no resolver of the number. -/
  | unknown

namespace Workspace

variable {σ : Type} (host : Host σ) (ws : Workspace σ)

/-- A workspace without trees and resolvers. -/
def start (w : World σ) : Workspace σ := { world := w }

/-- The identity of the next tree. -/
def nextId : TreeId := ⟨ws.trees.length⟩

/-- Adds a tree, and gives its number. -/
def addTree (t : Tree) : Answer × Workspace σ :=
  (.added ws.trees.length, { ws with trees := ws.trees ++ [t] })

/-- Adds a tree, if a document denotes one. -/
def addTree? : Option Tree → Answer × Workspace σ
  | some t => ws.addTree t
  | none => (.undecodable, ws)

/-- Adds a resolver, and gives its number. -/
def addResolver (r : Resolver) : Answer × Workspace σ :=
  (.added ws.resolvers.length, { ws with resolvers := ws.resolvers ++ [r] })

/-- What a command is answered with, and the workspace after it. -/
def step : Command → Answer × Workspace σ
  | .newTree => ws.addTree { id := ws.nextId }
  | .cloneTree tree =>
    match ws.trees[tree]? with
    | some t => ws.addTree { t with id := ws.nextId }
    | none => (.unknown, ws)
  | .copyTree tree =>
    match ws.trees[tree]? with
    | some t => ws.addTree? (t.copy? ws.nextId)
    | none => (.unknown, ws)
  | .decodeTree document => ws.addTree? (Tree.ofJson? ws.nextId document)
  | .edit tree edit =>
    match ws.trees[tree]? with
    | some t =>
      let (t, outcome) := edit.apply t
      (.edited outcome, { ws with trees := ws.trees.set tree t })
    | none => (.unknown, ws)
  | .newResolver provider settings => ws.addResolver { provider := provider, settings := settings }
  | .lookup resolver tree use key query =>
    match ws.resolvers[resolver]?, ws.trees[tree]? with
    | some r, some t =>
      let (outcome, r, world) := r.lookup host t use key query ws.world
      (.found outcome, { ws with resolvers := ws.resolvers.set resolver r, world })
    | _, _ => (.unknown, ws)

/-- The answers to commands, in order, and the workspace after them. -/
def run (ws : Workspace σ) : List Command → List Answer × Workspace σ
  | [] => ([], ws)
  | c :: cs =>
    let (answer, ws) := ws.step host c
    let (answers, ws) := ws.run cs
    (answer :: answers, ws)

end Workspace

end AnnotationLookup
