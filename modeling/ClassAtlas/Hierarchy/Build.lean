import ClassAtlas.Hierarchy.Basic

/-! Building the hierarchy of a class: every ancestor that is found is added once and then has its
own ancestors looked up. Ancestors that are not found are left out. -/

namespace ClassAtlas

/-- The graph so far, and the classes whose ancestors are still to be looked up, the next one
first. -/
structure Growth where
  graph : ClassGraph
  pending : List (QualifiedName × FoundClass)

namespace Growth

def ofRoot (name : QualifiedName) (c : FoundClass) : Growth :=
  ⟨ClassGraph.empty.addNode name c, [(name, c)]⟩

/-- Adds a class unless there is one of its name. -/
def add (g : Growth) (name : QualifiedName) (c : FoundClass) : Growth :=
  if g.graph.contains name then g else ⟨g.graph.addNode name c, (name, c) :: g.pending⟩

/-- Adds an ancestor of a class and the edge to it. -/
def link (source : QualifiedName) (relation : Relation) (g : Growth) (ancestor : FoundClass) :
    Except Error Growth := do
  match ancestor.qualifiedName with
  | .error e => throw (.badName e)
  | .ok target =>
    let g := g.add target ancestor
    let graph ← g.graph.addEdge ⟨source.normalized, target.normalized, relation⟩
    return { g with graph }

/-- The superclass comes before the interfaces. -/
def expand (fs : FileSystem) (name : QualifiedName) (c : FoundClass) (g : Growth) :
    Finding Growth := do
  let parent ← Finder.optional (Finder.findSuper fs c.toClass)
  let g ← liftExcept (parent.toList.foldlM (link name .superclass) g)
  let interfaces ← Finder.findInterfaces fs c.toClass
  liftExcept (interfaces.foldlM (link name .interface) g)

def run (fs : FileSystem) : (fuel : Nat) → Growth → Finding ClassGraph
  | 0, g => return g.graph
  | fuel + 1, g =>
    match g.pending with
    | [] => return g.graph
    | (name, c) :: pending => do run fs fuel (← expand fs name c { g with pending })

end Growth

/-- The hierarchy of a class. -/
def Hierarchy.build (fs : FileSystem) (root : FoundClass) : Finding Hierarchy := do
  match root.qualifiedName with
  | .error e => throw (.badName e)
  | .ok name =>
    let fuel := (← getThe Finder).capacity fs + 1
    let graph ← Finder.timed s!"inheritance graph for {name.normalized}"
      (Growth.run fs fuel (.ofRoot name root))
    Finder.report Log.info (.text (s!"Inheritance graph for {name.normalized}: " ++
      s!"{graph.nodes.size} classes, {graph.edges.length} edges")) []
    liftExcept (Hierarchy.ofGraph graph name)

end ClassAtlas
