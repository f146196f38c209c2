import ClassAtlas.Hierarchy.Basic

/-! The ancestors of a class, nearer ones first. -/

namespace ClassAtlas

/-- Ancestors met so far, each with the relation of the edge that led to it, and the names whose own
edges are still to be followed. -/
structure Search where
  start : String
  pending : List String
  met : List (String × Relation)

namespace Search

def knows (s : Search) (name : String) : Bool :=
  name = s.start || s.met.any fun m => m.1 = name

/-- A name is noted down at the first edge to it. -/
def follow (s : Search) (e : Edge) : Search :=
  if s.knows e.target then s
  else ⟨s.start, s.pending ++ [e.target], s.met ++ [(e.target, e.relation)]⟩

def run (g : ClassGraph) : (fuel : Nat) → Search → Search
  | 0, s => s
  | fuel + 1, s =>
    match s.pending with
    | [] => s
    | name :: pending => run g fuel ((g.edgesFrom name).foldl follow { s with pending })

end Search

/-- The names reached from a start, breadth first. All but the start are targets of edges. -/
def ClassGraph.reach (g : ClassGraph) (start : String) : List (String × Relation) :=
  (Search.run g (g.edges.length + 1) ⟨start, [start], []⟩).met

/-- The ancestors of a class, each with the relation of the edge it was first reached by. -/
def Hierarchy.ancestors (h : Hierarchy) (name : NameLike) :
    Except Error (List (FoundClass × Relation)) := do
  let name ← h.nodeName name
  return (h.graph.reach name.normalized).filterMap fun (name, relation) =>
    (h.graph.nodes.get? (.plain name)).map fun c => (c, relation)

end ClassAtlas
