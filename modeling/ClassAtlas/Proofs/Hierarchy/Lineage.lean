import ClassAtlas.Proofs.Finder.Declared
import ClassAtlas.Proofs.Hierarchy.Growth

/-! What a finished hierarchy consists of, where classes are found under the names they declare: the
lineage of the root, and the edges from each class of it to its direct ancestors. -/

namespace ClassAtlas

namespace Finder

/-- The direct ancestors of a class that are found. -/
inductive DirectAncestor (fs : FileSystem) (f : Finder) (c : Class) :
    Relation → FoundClass → Prop where
  | superclass {d : FoundClass} (hd : answer (findSuper fs c) f = .ok d) :
    DirectAncestor fs f c .superclass d
  | interface {ds : List FoundClass} {d : FoundClass}
    (hds : answer (findInterfaces fs c) f = .ok ds) (hd : d ∈ ds) :
    DirectAncestor fs f c .interface d

/-- The class of a name: the root under its own, under any other the one that is found. -/
def classNamed (fs : FileSystem) (f : Finder) (root : FoundClass) (key : String) :
    Except Error FoundClass :=
  if key = root.key then .ok root else answer (find fs (.plain key)) f

/-- The least set of names that holds the root's and, with the name of a class, the names of the
direct ancestors of that class. -/
inductive Lineage (fs : FileSystem) (f : Finder) (root : FoundClass) : String → Prop where
  | root : Lineage fs f root root.key
  | ancestor {key : String} {c d : FoundClass} {relation : Relation} (hkey : Lineage fs f root key)
    (hc : classNamed fs f root key = .ok c) (hd : DirectAncestor fs f c.toClass relation d) :
    Lineage fs f root d.key

variable {fs : FileSystem} {f : Finder} {root c d : FoundClass} {relation : Relation}

theorem directAncestor_iff {ls : List (Relation × FoundClass)}
    (h : links fs f c.toClass = .ok ls) :
    DirectAncestor fs f c.toClass relation d ↔ (relation, d) ∈ ls := by
  constructor
  · intro hd
    cases hd with
    | superclass hd => exact (superclass_mem_links_iff h).mpr hd
    | interface hds hd => exact (interface_mem_links_iff h).mpr ⟨_, hds, hd⟩
  · intro hl
    cases relation with
    | superclass => exact .superclass ((superclass_mem_links_iff h).mp hl)
    | interface =>
      obtain ⟨ds, hds, hd⟩ := (interface_mem_links_iff h).mp hl
      exact .interface hds hd

theorem classNamed_of_kin (hdeclared : FindsDeclared fs f) (h : Growth.Kin fs f root c) :
    classNamed fs f root c.key = .ok c := by
  rw [classNamed]
  rcases h.eq_or_find with rfl | ⟨hne, name, hfind⟩
  · rw [if_pos rfl]
  · rw [if_neg hne]
    exact hdeclared.find_key hfind

theorem Lineage.of_kin (hdeclared : FindsDeclared fs f) (h : Growth.Kin fs f root c) :
    Lineage fs f root c.key := by
  induction h with
  | root => exact .root
  | ancestor hc hls hd _ ih =>
    exact .ancestor ih (classNamed_of_kin hdeclared hc) ((directAncestor_iff hls).mpr hd)

end Finder

namespace Growth

open Finder

variable {fs : FileSystem} {f : Finder} {root c : FoundClass} {graph : ClassGraph} {key : String}

theorem Sound.edge_of_directAncestor (h : Sound fs f root ⟨graph, []⟩) (hc : c ∈ graph.classes)
    {relation : Relation} {d : FoundClass} (hd : DirectAncestor fs f c.toClass relation d) :
    Edge.toAncestor c.key (relation, d) ∈ graph.edges := by
  obtain ⟨ls, hls, -⟩ := h.links_of_mem hc
  exact h.edge_of_link hc hls ((directAncestor_iff hls).mp hd)

theorem Sound.mem_names_iff (hdeclared : FindsDeclared fs f) (h : Sound fs f root ⟨graph, []⟩) :
    key ∈ graph.nodes.names ↔ Lineage fs f root key := by
  constructor
  · intro hkey
    obtain ⟨c, hc, rfl⟩ := h.class_of_name hkey
    exact .of_kin hdeclared (h.kin c hc)
  · intro hkey
    induction hkey with
    | root => exact h.key_mem h.root_mem
    | @ancestor key c d relation _ hc hd ih =>
      obtain ⟨c', hc', rfl⟩ := h.class_of_name ih
      rw [classNamed_of_kin hdeclared (h.kin c' hc')] at hc
      obtain rfl := Except.ok.inj hc
      exact h.targets _ (h.edge_of_directAncestor hc' hd)

theorem Sound.mem_edges_iff (hdeclared : FindsDeclared fs f) (h : Sound fs f root ⟨graph, []⟩)
    {e : Edge} :
    e ∈ graph.edges ↔ Lineage fs f root e.source ∧ ∃ c d, classNamed fs f root e.source = .ok c ∧
      DirectAncestor fs f c.toClass e.relation d ∧ d.key = e.target := by
  constructor
  · intro he
    have hsource := h.sources e he
    obtain ⟨c, hc, hkey⟩ := h.class_of_name hsource
    obtain ⟨ls, hls, hedges⟩ := h.links_of_mem hc
    have hout : e ∈ graph.edgesOut c.key := List.mem_filter.mpr ⟨he, by simp [hkey]⟩
    rw [hedges] at hout
    obtain ⟨⟨relation, d⟩, hl, rfl⟩ := List.mem_map.mp hout
    exact ⟨(h.mem_names_iff hdeclared).mp hsource, c, d, classNamed_of_kin hdeclared (h.kin c hc),
      (directAncestor_iff hls).mpr hl, rfl⟩
  · obtain ⟨source, target, relation⟩ := e
    rintro ⟨hsource, c, d, hc, hd, rfl⟩
    obtain ⟨c', hc', rfl⟩ := h.class_of_name ((h.mem_names_iff hdeclared).mpr hsource)
    rw [classNamed_of_kin hdeclared (h.kin c' hc')] at hc
    obtain rfl := Except.ok.inj hc
    exact h.edge_of_directAncestor hc' hd

theorem Sound.carries_iff (hdeclared : FindsDeclared fs f) (h : Sound fs f root ⟨graph, []⟩) :
    graph.nodes.get? (.plain key) = some c ↔
      Lineage fs f root key ∧ classNamed fs f root key = .ok c := by
  rw [h.get?_iff]
  constructor
  · rintro ⟨hc, rfl⟩
    exact ⟨.of_kin hdeclared (h.kin c hc), classNamed_of_kin hdeclared (h.kin c hc)⟩
  · rintro ⟨hkey, hc⟩
    obtain ⟨c', hc', rfl⟩ := h.class_of_name ((h.mem_names_iff hdeclared).mpr hkey)
    rw [classNamed_of_kin hdeclared (h.kin c' hc')] at hc
    obtain rfl := Except.ok.inj hc
    exact ⟨hc', rfl⟩

end Growth

/-- The nodes of a hierarchy are the lineage of its root, each with its own class, and the edges
lead from every class to its direct ancestors, one for each relation. -/
theorem Hierarchy.build_lineage {fs : FileSystem} {f : Finder} {root : FoundClass} {h : Hierarchy}
    (hdeclared : Finder.FindsDeclared fs f)
    (hbuild : answer (Hierarchy.build fs root) f = .ok h) :
    h.graph.nodes.names.Nodup ∧
    (∀ key, key ∈ h.graph.nodes.names ↔ Finder.Lineage fs f root key) ∧
    (∀ key c, h.graph.nodes.get? (.plain key) = some c ↔
      Finder.Lineage fs f root key ∧ Finder.classNamed fs f root key = .ok c) ∧
    h.graph.edges.Nodup ∧
    ∀ e, e ∈ h.graph.edges ↔ Finder.Lineage fs f root e.source ∧
      ∃ c d, Finder.classNamed fs f root e.source = .ok c ∧
        Finder.DirectAncestor fs f c.toClass e.relation d ∧ d.key = e.target := by
  obtain ⟨-, hsound⟩ := Growth.Sound.of_build hbuild
  exact ⟨hsound.names_nodup, fun _ => hsound.mem_names_iff hdeclared,
    fun _ _ => hsound.carries_iff hdeclared, hsound.edges_nodup,
    fun _ => hsound.mem_edges_iff hdeclared⟩

/-- A class file of a class that both extends and implements another; each name is one letter. -/
def pairFile (name ancestor : UInt8) : List UInt8 :=
  [0xCA, 0xFE, 0xBA, 0xBE, 0, 0, 0, 52, 0, 5, 1, 0, 1, name, 7, 0, 1, 1, 0, 1, ancestor, 7, 0, 3,
    0, 0x21, 0, 2, 0, 4, 0, 1, 0, 4, 0, 0, 0, 0, 0, 0]

def pairFiles : FileSystem :=
  ⟨.folder [("A.class", .file (pairFile 0x41 0x42)), ("B.class", .file (pairFile 0x42 0x41))], [],
    []⟩

def pairFinder : Finder :=
  .new ⟨[⟨.single, ["A.class"]⟩, ⟨.single, ["B.class"]⟩]⟩ (.silent "engine")

def pairRoot : FoundClass :=
  ⟨⟨⟨0, 52, ⟨[some (.utf8 [0x41] "A"), some (.classRef 1), some (.utf8 [0x42] "B"),
    some (.classRef 3)]⟩, 0x21, 2, 4, [4], [], [], []⟩, "A", some "B"⟩, none⟩

theorem findsDeclared_pair : Finder.FindsDeclared pairFiles pairFinder :=
  Finder.findsDeclared_of_classFiles (by decide +kernel) _

theorem build_pair : ∃ h, answer (Hierarchy.build pairFiles pairRoot) pairFinder = .ok h ∧
    h.graph.nodes.names = ["A", "B"] ∧ h.contains (.plain "A") = true := by
  have hbuilt : (answer (Hierarchy.build pairFiles pairRoot) pairFinder).toOption.map
      (fun h => (h.graph.nodes.names, h.contains (.plain "A"))) = some (["A", "B"], true) := by
    decide +kernel
  obtain ⟨h, hh, hnames⟩ := Option.map_eq_some_iff.mp hbuilt
  exact ⟨h, Finder.toOption_eq_some_iff.mp hh, Prod.mk.inj hnames⟩

theorem build_lineage_pair : Finder.FindsDeclared pairFiles pairFinder ∧
    ∃ h, answer (Hierarchy.build pairFiles pairRoot) pairFinder = .ok h ∧
      (∀ key, key ∈ ["A", "B"] ↔ Finder.Lineage pairFiles pairFinder pairRoot key) ∧
      h.graph.edges.Nodup := by
  obtain ⟨h, hbuild, hnames, -⟩ := build_pair
  obtain ⟨-, hlineage, -, hedges, -⟩ := Hierarchy.build_lineage findsDeclared_pair hbuild
  exact ⟨findsDeclared_pair, h, hbuild, fun key => hnames ▸ hlineage key, hedges⟩

end ClassAtlas
