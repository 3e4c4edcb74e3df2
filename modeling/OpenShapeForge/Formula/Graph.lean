import OpenShapeForge.Js.Text
import OpenShapeForge.Library.OrderedMap
import Mathlib.Data.List.Basic

/-! The dependency graph over computed fields, as packages/formula/src/graph.ts
builds it. -/

namespace OpenShapeForge.Formula.Graph
open Js Library

structure DependencyNode where
  entity : Text
  field : Text
deriving DecidableEq

structure DependencyDefinition where
  node : DependencyNode
  dependsOn : List DependencyNode
deriving DecidableEq

/-- `JSON.stringify` of two strings tells any two pairs apart, so the key is kept as the pair. -/
abbrev NodeKey := Text × Text

def dependencyNodeKey (node : DependencyNode) : NodeKey := (node.entity, node.field)

def define (definitions : List DependencyDefinition) : OrderedMap NodeKey DependencyDefinition :=
  definitions.foldl (fun defined definition =>
    (defined.delete (dependencyNodeKey definition.node)).set (dependencyNodeKey definition.node) definition) .empty

/-- The three maps the graph is read from. -/
structure Tables where
  edges : OrderedMap NodeKey (List NodeKey)
  dependents : OrderedMap NodeKey (List NodeKey)
  nodes : OrderedMap NodeKey DependencyNode

def readsOf (definition : DependencyDefinition) : List NodeKey :=
  distinct (definition.dependsOn.map dependencyNodeKey)

def addNodes (nodes : OrderedMap NodeKey DependencyNode) (dependsOn : List DependencyNode) :
    OrderedMap NodeKey DependencyNode :=
  dependsOn.foldl (fun nodes node =>
    if nodes.has (dependencyNodeKey node) then nodes else nodes.set (dependencyNodeKey node) node) nodes

def addDependents (dependents : OrderedMap NodeKey (List NodeKey)) (key : NodeKey) (reads : List NodeKey) :
    OrderedMap NodeKey (List NodeKey) :=
  reads.foldl (fun dependents read => dependents.set read ((dependents.get? read).getD [] ++ [key])) dependents

def tabulate (defined : OrderedMap NodeKey DependencyDefinition) : Tables :=
  defined.entries.foldl (fun tables (key, definition) =>
    { nodes := addNodes (tables.nodes.set key definition.node) definition.dependsOn
      edges := tables.edges.set key (readsOf definition)
      dependents := addDependents tables.dependents key (readsOf definition) }) ⟨.empty, .empty, .empty⟩

section Search
variable {κ : Type*} [DecidableEq κ]

/-- What Tarjan's algorithm carries from node to node. The top of `stack` is its
head, and `lowLink` is only read where it was written. -/
structure Search (κ : Type*) where
  indexOf : κ → Option Nat
  lowLink : κ → Nat
  onStack : κ → Bool
  stack : List κ
  components : List (List κ)
  counter : Nat

def Search.start : Search κ := ⟨fun _ => none, fun _ => 0, fun _ => false, [], [], 0⟩

def Search.enter (search : Search κ) (key : κ) : Search κ where
  indexOf := Function.update search.indexOf key (some search.counter)
  lowLink := Function.update search.lowLink key search.counter
  onStack := Function.update search.onStack key true
  stack := key :: search.stack
  components := search.components
  counter := search.counter + 1

def Search.lower (search : Search κ) (key : κ) (link : Nat) : Search κ :=
  { search with lowLink := Function.update search.lowLink key (min (search.lowLink key) link) }

/-- The members popped down to `key`, in the order they come off, and what is left. -/
def popUntil (key : κ) : List κ → List κ × List κ
  | [] => ([], [])
  | member :: rest =>
    if member = key then ([member], rest)
    else (member :: (popUntil key rest).1, (popUntil key rest).2)

def Search.popComponent (search : Search κ) (key : κ) : Search κ :=
  { search with
    stack := (popUntil key search.stack).2
    onStack := fun member => search.onStack member && decide (member ∉ (popUntil key search.stack).1)
    components := search.components ++ [(popUntil key search.stack).1] }

/-- One read of the loop in `connect`; `inner` is the recursive call. -/
def followRead (defined : κ → Bool) (inner : κ → Search κ → Search κ) (key : κ) (search : Search κ) (read : κ) :
    Search κ :=
  if defined read then
    match search.indexOf read with
    | none => (inner read search).lower key ((inner read search).lowLink read)
    | some index => if search.onStack read then search.lower key index else search
  else search

/-- `fuel` bounds the depth of the recursion; as many units as there are nodes suffice. -/
def connect (edges : κ → List κ) (defined : κ → Bool) : Nat → κ → Search κ → Search κ
  | 0, _, search => search
  | fuel + 1, key, search =>
    let scanned := (edges key).foldl (followRead defined (connect edges defined fuel) key) (search.enter key)
    if scanned.indexOf key = some (scanned.lowLink key) then scanned.popComponent key else scanned

def connectAll (edges : κ → List κ) (defined : κ → Bool) (keys : List κ) : Search κ :=
  keys.foldl (fun search key =>
    if search.indexOf key = none then connect edges defined keys.length key search else search) .start

/-- The post-order walk: the nodes visited, and those `ordered` holds already. -/
structure Visit (κ : Type*) where
  visited : List κ
  ordered : List κ

def visit (edges : κ → List κ) (allowed : κ → Bool) : Nat → κ → Visit κ → Visit κ
  | 0, _, walk => walk
  | fuel + 1, key, walk =>
    if key ∈ walk.visited then walk
    else
      let entered := { walk with visited := key :: walk.visited }
      let inner := (edges key).foldl (fun walk read =>
        if allowed read then visit edges allowed fuel read walk else walk) entered
      { inner with ordered := inner.ordered ++ [key] }

def visitAll (edges : κ → List κ) (allowed : κ → Bool) (keys : List κ) : List κ :=
  (keys.foldl (fun walk key =>
    if allowed key then visit edges allowed (keys.length + 1) key walk else walk) ⟨[], []⟩).ordered

/-- Sorted by the place each key has in `order`. -/
def sortBy (order : List κ) (keys : List κ) : List κ :=
  keys.insertionSort fun a b => order.idxOf a ≤ order.idxOf b

/-- A component of one node only counts when the node reads itself. -/
def isCyclic (edges : κ → List κ) (component : List κ) : Bool :=
  match component with
  | [key] => decide (key ∈ edges key)
  | _ => decide (2 ≤ component.length)

end Search

structure DependencyGraph where
  /-- Every definition outside a cycle, each after every definition it reads. -/
  order : List DependencyNode
  /-- Each group of definitions that reads itself, in input order. -/
  cycles : List (List DependencyNode)
  tables : Tables
  ordered : List NodeKey

def edgesOf (tables : Tables) (key : NodeKey) : List NodeKey := (tables.edges.get? key).getD []

def nodesOf (tables : Tables) (keys : List NodeKey) : List DependencyNode := keys.filterMap tables.nodes.get?

def cyclicComponents (defined : OrderedMap NodeKey DependencyDefinition) (tables : Tables) : List (List NodeKey) :=
  ((connectAll (edgesOf tables) defined.has defined.keys).components.filter (isCyclic (edgesOf tables))).map
    (sortBy defined.keys)

def buildDependencyGraph (definitions : List DependencyDefinition) : DependencyGraph :=
  let defined := define definitions
  let tables := tabulate defined
  let components := cyclicComponents defined tables
  let cyclic := components.flatten
  let ordered := visitAll (edgesOf tables) (fun key => defined.has key && decide (key ∉ cyclic)) defined.keys
  { order := nodesOf tables ordered
    cycles := (components.map (nodesOf tables)).insertionSort fun a b =>
      (a.head?.map fun node => defined.keys.idxOf (dependencyNodeKey node)).getD 0 ≤
        (b.head?.map fun node => defined.keys.idxOf (dependencyNodeKey node)).getD 0
    tables
    ordered }

/-- The breadth-first loop of `affectedBy`; every turn takes one key off the queue. -/
def affectedLoop (dependents : NodeKey → List NodeKey) : Nat → List NodeKey → List NodeKey → List NodeKey
  | 0, _, reached => reached
  | _ + 1, [], reached => reached
  | fuel + 1, key :: queue, reached =>
    let fresh := (distinct (dependents key)).filter (· ∉ reached)
    affectedLoop dependents fuel (queue ++ fresh) (reached ++ fresh)

def dependentsOf (tables : Tables) (key : NodeKey) : List NodeKey := (tables.dependents.get? key).getD []

/-- The definitions to recompute when `changed` changes, transitively, in evaluation order. -/
def DependencyGraph.affectedBy (graph : DependencyGraph) (changed : List DependencyNode) : List DependencyNode :=
  let reached := affectedLoop (dependentsOf graph.tables) (changed.length + graph.tables.edges.keys.length + 1)
    (changed.map dependencyNodeKey) []
  nodesOf graph.tables (sortBy graph.ordered (reached.filter (· ∈ graph.ordered)))

/-- The depth-first search of `path`: the trail found, and the keys seen on the way. -/
def pathWalk (edges : NodeKey → List NodeKey) (target : NodeKey) :
    Nat → NodeKey → List NodeKey → List NodeKey → Option (List NodeKey) × List NodeKey
  | 0, _, _, seen => (none, seen)
  | fuel + 1, key, trail, seen =>
    if key ∈ seen then (none, seen)
    else (edges key).foldl (fun (found, seen) read =>
      match found with
      | some trail => (some trail, seen)
      | none =>
        if read = target then (some (trail ++ [read]), seen)
        else pathWalk edges target fuel read (trail ++ [read]) seen) (none, key :: seen)

/-- A chain of reads from `source` to `target`, both included. -/
def DependencyGraph.path (graph : DependencyGraph) (source target : DependencyNode) : Option (List DependencyNode) :=
  (pathWalk (edgesOf graph.tables) (dependencyNodeKey target) (graph.tables.nodes.keys.length + 2)
    (dependencyNodeKey source) [dependencyNodeKey source] []).1.map (nodesOf graph.tables)

end OpenShapeForge.Formula.Graph
