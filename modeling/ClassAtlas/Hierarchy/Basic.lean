import ClassAtlas.Finder

/-! Graphs of classes and their direct ancestors. Nodes are classes by their own names, in the order
they were added; an edge leads from a class to an ancestor. -/

namespace ClassAtlas

/-- Source and target are slashed names. -/
structure Edge where
  source : String
  target : String
  relation : Relation
  deriving DecidableEq

/-- Edges are in the order they were added. -/
structure ClassGraph where
  nodes : NameMap FoundClass
  edges : List Edge

namespace ClassGraph

def empty : ClassGraph :=
  ⟨.empty, []⟩

def contains (g : ClassGraph) (name : QualifiedName) : Bool :=
  g.nodes.contains (.owned name)

def addNode (g : ClassGraph) (name : QualifiedName) (c : FoundClass) : ClassGraph :=
  { g with nodes := g.nodes.put (.owned name) c }

/-- Two classes have at most one edge of a kind. -/
def addEdge (g : ClassGraph) (e : Edge) : Except Error ClassGraph :=
  if e ∈ g.edges then .error (.repeatedEdge e.source e.target e.relation)
  else .ok { g with edges := g.edges ++ [e] }

/-- The edges out of a class; the ones to the target linked first come first. -/
def edgesFrom (g : ClassGraph) (source : String) : List Edge :=
  let edges := g.edges.filter fun e => e.source = source
  (edges.map Edge.target).eraseDups.flatMap fun target => edges.filter fun e => e.target = target

/-- All edges, the ones out of the first node first. -/
def edgeList (g : ClassGraph) : List Edge :=
  g.nodes.keys.flatMap fun name => g.edgesFrom name.key

end ClassGraph

/-- A graph and the class it was built for. -/
structure Hierarchy where
  graph : ClassGraph
  root : QualifiedName
  rooted : graph.contains root = true

namespace Hierarchy

def ofGraph (graph : ClassGraph) (root : QualifiedName) : Except Error Hierarchy :=
  if h : graph.contains root = true then .ok ⟨graph, root, h⟩ else .error (.noRoot root.text)

/-- The name of a node. What is no qualified name is the name of none. -/
def nodeName (h : Hierarchy) (name : NameLike) : Except Error QualifiedName :=
  match name.toSpan with
  | .error _ => .error (.notFound name.text)
  | .ok span =>
    if h.graph.contains span.toOwned then .ok span.toOwned
    else .error (.notFound span.toOwned.normalized)

def get (h : Hierarchy) (name : NameLike) : Except Error FoundClass := do
  let name ← h.nodeName name
  match h.graph.nodes.get? (.owned name) with
  | some c => return c
  | none => throw (.notFound name.normalized)

def contains (h : Hierarchy) (name : NameLike) : Bool :=
  match name.toSpan with
  | .error _ => false
  | .ok span => h.graph.contains span.toOwned

/-- The classes, the root first. -/
def classes (h : Hierarchy) : List FoundClass :=
  h.graph.nodes.entries.map Prod.snd

def display (h : Hierarchy) : String :=
  s!"InheritanceGraph(root={quoted h.root.normalized}, nodes={h.graph.nodes.size}, " ++
    s!"edges={h.graph.edges.length})"

end Hierarchy

end ClassAtlas
