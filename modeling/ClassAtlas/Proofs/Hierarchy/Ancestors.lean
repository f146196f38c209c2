import ClassAtlas.Proofs.Hierarchy.Lineage
import ClassAtlas.Proofs.Hierarchy.Nearest

/-! The ancestors of a class of a finished hierarchy, nearer ones first and each listed once. -/

namespace ClassAtlas

namespace ClassGraph

variable {g : ClassGraph} {start : String} {reached : List (String × Relation)}

def namesOf (listed : List (FoundClass × Relation)) : List String :=
  listed.map fun l => l.1.key

/-- Everything that can be reached from a class over one edge or more, in the order of distance and,
among classes of one distance, of their earliest parents and the edges of these. -/
structure NearestFirst (g : ClassGraph) (start : String) (listed : List (FoundClass × Relation)) :
    Prop where
  carried : ∀ l ∈ listed, g.nodes.get? (.plain l.1.key) = some l.1
  nodup : (namesOf listed).Nodup
  mem_iff : ∀ name, name ∈ namesOf listed ↔ name ≠ start ∧ ∃ k, g.Walk start (k + 1) name
  nearer : (namesOf listed).Pairwise fun t u => g.distance start t ≤ g.distance start u
  ties : (namesOf listed).Pairwise (g.LinkedBefore (start :: namesOf listed))
  first_edge : ∀ l ∈ listed, ∃ p e,
    (start :: namesOf listed)[g.parentIdx (start :: namesOf listed) l.1.key]? = some p ∧
      (g.edgesOut p).find? (fun d => d.target = l.1.key) = some e ∧ e.relation = l.2

def carriedBy (g : ClassGraph) (reached : List (String × Relation)) :
    List (FoundClass × Relation) :=
  reached.filterMap fun l => (g.nodes.get? (.plain l.1)).map fun c => (c, l.2)

theorem map_carriedBy
    (h : ∀ l ∈ reached, ∃ c, g.nodes.get? (.plain l.1) = some c ∧ c.key = l.1) :
    (g.carriedBy reached).map (fun l => (l.1.key, l.2)) = reached := by
  induction reached with
  | nil => rfl
  | cons l reached ih =>
    obtain ⟨c, hc, hkey⟩ := h l List.mem_cons_self
    have hrest := ih fun l hl => h l (List.mem_cons_of_mem _ hl)
    rw [carriedBy] at hrest ⊢
    rw [List.filterMap_cons, hc]
    dsimp only [Option.map_some]
    rw [List.map_cons, hrest, hkey]

theorem nearestFirst_carriedBy
    (h : ∀ l ∈ g.reach start, ∃ c, g.nodes.get? (.plain l.1) = some c ∧ c.key = l.1) :
    g.NearestFirst start (g.carriedBy (g.reach start)) := by
  have hreach := map_carriedBy h
  have hnames : namesOf (g.carriedBy (g.reach start)) = (g.reach start).map Prod.fst := by
    conv_rhs => rw [← hreach]
    rw [namesOf, List.map_map]
    rfl
  have horder : start :: (g.reach start).map Prod.fst = g.order start := rfl
  constructor
  case carried =>
    intro l hl
    obtain ⟨⟨name, relation⟩, hmem, hcarried⟩ := List.mem_filterMap.mp hl
    obtain ⟨c, hc, hkey⟩ := h _ hmem
    rw [hc] at hcarried
    obtain rfl := Option.some.inj hcarried
    rwa [hkey]
  case nodup =>
    rw [hnames]
    exact (List.nodup_cons.mp (order_nodup g start)).2
  case mem_iff =>
    rw [hnames]
    exact fun name => mem_reach_iff
  case nearer =>
    rw [hnames]
    exact pairwise_distance g start
  case ties =>
    rw [hnames]
    exact pairwise_linkedBefore g start
  case first_edge =>
    rw [hnames, horder]
    intro l hl
    have hmem : (l.1.key, l.2) ∈ g.reach start := by
      rw [← hreach]
      exact List.mem_map_of_mem hl
    have hfirst := exists_first_edge hmem
    exact hfirst

end ClassGraph

namespace Growth

open Finder

variable {fs : FileSystem} {f : Finder} {root c : FoundClass} {graph : ClassGraph}

theorem Sound.edgesOut_eq (h : Sound fs f root ⟨graph, []⟩) (hc : c ∈ graph.classes) :
    ∃ interfaces, c.interfaces = .ok interfaces ∧ graph.edgesOut c.key =
      ((answer (findSuper fs c.toClass) f).toOption.toList.map fun d =>
        ⟨c.key, d.key, .superclass⟩) ++
      (interfaces.filterMap fun name => (answer (find fs (.plain name)) f).toOption).map fun d =>
        ⟨c.key, d.key, .interface⟩ := by
  obtain ⟨ls, hls, hedges⟩ := h.links_of_mem hc
  obtain ⟨parent, interfaces, hparent, hinterfaces, rfl⟩ := exists_of_links hls
  rw [findInterfaces] at hinterfaces
  rcases hnames : c.interfaces with e | names
  · simp [hnames] at hinterfaces
  · rw [hnames] at hinterfaces
    refine ⟨names, rfl, ?_⟩
    rw [hedges, eq_toOption_of_optional hparent, findPresent_eq_filterMap hinterfaces,
      List.map_append, List.map_map, List.map_map]
    rfl

theorem Sound.reached_carried (h : Sound fs f root ⟨graph, []⟩) {start : String}
    {l : String × Relation} (hl : l ∈ graph.reach start) :
    ∃ c, graph.nodes.get? (.plain l.1) = some c ∧ c.key = l.1 := by
  rw [ClassGraph.reach_eq] at hl
  obtain ⟨e, he, rfl⟩ := List.mem_map.mp hl
  obtain ⟨p, -, hout⟩ := List.mem_flatMap.mp ((ClassGraph.firstEdges_sublist _ _).subset he)
  obtain ⟨c, hc, hkey⟩ := h.class_of_name (h.targets e (ClassGraph.mem_edgesOut.mp hout).1)
  exact ⟨c, h.get?_iff.mpr ⟨hc, hkey⟩, hkey⟩

theorem Sound.superclass_first (h : Sound fs f root ⟨graph, []⟩) {p t : String} {e : Edge}
    (hedge : ⟨p, t, .superclass⟩ ∈ graph.edges)
    (hfirst : (graph.edgesOut p).find? (fun d => d.target = t) = some e) :
    e.relation = .superclass := by
  obtain ⟨c, hc, rfl⟩ := h.class_of_name (h.sources _ hedge)
  obtain ⟨interfaces, -, hedges⟩ := h.edgesOut_eq hc
  have hout : (⟨c.key, t, .superclass⟩ : Edge) ∈ graph.edgesOut c.key :=
    ClassGraph.mem_edgesOut.mpr ⟨hedge, rfl⟩
  rw [hedges] at hout hfirst
  cases hsuper : (answer (findSuper fs c.toClass) f).toOption with
  | none => simp [hsuper] at hout
  | some d =>
    have htarget : t = d.key := by simpa [hsuper] using hout
    rw [hsuper, Option.toList_some, List.map_singleton, List.singleton_append,
      List.find?_cons_of_pos (by simp [htarget])] at hfirst
    rw [← Option.some.inj hfirst]

end Growth

namespace Hierarchy

variable {fs : FileSystem} {f : Finder} {root : FoundClass} {h : Hierarchy} {name : NameLike}

theorem nodeName_of_contains (hname : h.contains name = true) :
    ∃ n, h.nodeName name = .ok n ∧ n.normalized = slashes name.text := by
  rw [contains] at hname
  obtain ⟨span, hspan, htext⟩ | ⟨⟨e, he⟩, -⟩ := name.toSpan_owned
  · rw [hspan] at hname
    refine ⟨span.toOwned, ?_, by rw [QualifiedName.normalized_eq, htext]⟩
    rw [nodeName, hspan]
    exact if_pos hname
  · simp [he] at hname

theorem ancestors_eq (hname : h.contains name = true) :
    h.ancestors name = .ok (h.graph.carriedBy (h.graph.reach (slashes name.text))) := by
  obtain ⟨n, hn, hkey⟩ := nodeName_of_contains hname
  rw [ancestors, hn, ← hkey]
  rfl

/-- For each class of a hierarchy, all its ancestors are listed, nearer ones before others, and
where distances are equal in the order of the classes they are direct ancestors of. The edges out of
one class are those to its superclass and then to its interfaces in declared order, so a superclass
that is also an interface counts as superclass. -/
theorem ancestors_nearestFirst (hbuild : answer (Hierarchy.build fs root) f = .ok h)
    (hname : h.contains name = true) :
    ∃ listed, h.ancestors name = .ok listed ∧
      h.graph.NearestFirst (slashes name.text) listed ∧
      (∀ c ∈ h.graph.classes, ∃ interfaces, c.interfaces = .ok interfaces ∧
        h.graph.edgesOut c.key =
          ((answer (Finder.findSuper fs c.toClass) f).toOption.toList.map fun d =>
            ⟨c.key, d.key, .superclass⟩) ++
          (interfaces.filterMap fun i => (answer (Finder.find fs (.plain i)) f).toOption).map
            fun d => ⟨c.key, d.key, .interface⟩) ∧
      ∀ l ∈ listed, ∀ p, (slashes name.text :: ClassGraph.namesOf listed)[h.graph.parentIdx
        (slashes name.text :: ClassGraph.namesOf listed) l.1.key]? = some p →
          ⟨p, l.1.key, .superclass⟩ ∈ h.graph.edges → l.2 = .superclass := by
  obtain ⟨-, hsound⟩ := Growth.Sound.of_build hbuild
  have hnearest : h.graph.NearestFirst (slashes name.text)
      (h.graph.carriedBy (h.graph.reach (slashes name.text))) :=
    ClassGraph.nearestFirst_carriedBy fun _ hl => hsound.reached_carried hl
  refine ⟨_, ancestors_eq hname, hnearest, fun c hc => hsound.edgesOut_eq hc, ?_⟩
  intro l hl p hp hedge
  obtain ⟨q, e, hq, hfirst, hrelation⟩ := hnearest.first_edge l hl
  obtain rfl := Option.some.inj (hp.symm.trans hq)
  exact hrelation.symm.trans (hsound.superclass_first hedge hfirst)

/-- `R` extends `A` and implements `B`, and both of these extend `C` and implement it as well. -/
def crownFiles : FileSystem :=
  ⟨.folder [("A.class", .file (pairFile 0x41 0x43)), ("B.class", .file (pairFile 0x42 0x43)),
    ("C.class", .file (pairFile 0x43 0x44)),
    ("R.class", .file [0xCA, 0xFE, 0xBA, 0xBE, 0, 0, 0, 52, 0, 7, 1, 0, 1, 0x52, 7, 0, 1, 1, 0, 1,
      0x41, 7, 0, 3, 1, 0, 1, 0x42, 7, 0, 5, 0, 0x21, 0, 2, 0, 4, 0, 1, 0, 6, 0, 0, 0, 0, 0, 0])],
    [], []⟩

def crownFinder : Finder :=
  .new ⟨[⟨.single, []⟩]⟩ (.silent "engine")

def crownAncestors : List (String × Relation) :=
  [("A", .superclass), ("B", .interface), ("C", .superclass)]

theorem build_crown : ∃ root h, answer (Hierarchy.build crownFiles root) crownFinder = .ok h ∧
    h.contains (.plain "R") = true ∧ (h.ancestors (.plain "R")).toOption.map
      (List.map fun l => (l.1.thisName, l.2)) = some crownAncestors := by
  have hbuilt :
      ((answer (Finder.find crownFiles (.plain "R")) crownFinder).toOption.bind fun root =>
        (answer (Hierarchy.build crownFiles root) crownFinder).toOption.map fun h =>
          (h.contains (.plain "R"), (h.ancestors (.plain "R")).toOption.map
            (List.map fun l => (l.1.thisName, l.2)))) = some (true, some crownAncestors) := by
    decide +kernel
  obtain ⟨root, -, hbuilt⟩ := Option.bind_eq_some_iff.mp hbuilt
  obtain ⟨h, hh, hlisted⟩ := Option.map_eq_some_iff.mp hbuilt
  exact ⟨root, h, Finder.toOption_eq_some_iff.mp hh, Prod.mk.inj hlisted⟩

/-- Two ancestors are as near as each other, and one is further away. -/
theorem ancestors_nearestFirst_crown : ∃ root h listed,
    answer (Hierarchy.build crownFiles root) crownFinder = .ok h ∧
      h.contains (.plain "R") = true ∧ h.ancestors (.plain "R") = .ok listed ∧
      listed.map (fun l => (l.1.thisName, l.2)) = crownAncestors ∧
      h.graph.NearestFirst (slashes "R") listed := by
  obtain ⟨root, h, hbuild, hname, hshown⟩ := build_crown
  obtain ⟨listed, hlisted, hnearest, -⟩ := ancestors_nearestFirst hbuild hname
  rw [hlisted] at hshown
  exact ⟨root, h, listed, hbuild, hname, hlisted, Option.some.inj hshown, hnearest⟩

end Hierarchy

end ClassAtlas
