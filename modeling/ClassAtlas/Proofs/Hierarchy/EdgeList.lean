import ClassAtlas.Proofs.Hierarchy.Expansions
import ClassAtlas.Proofs.Hierarchy.Search
import ClassAtlas.Proofs.History.Calls

/-! The order of the edges of a hierarchy. They are added class by class in the order of the
expansions and listed class by class in the order of the nodes, where those of one class are grouped
by target. -/

namespace ClassAtlas

namespace ClassGraph

variable {g : ClassGraph} {edges : List Edge} {keys keys' : List String}
  {blocks blocks' : String → List Edge}

/-- The names of those classes that have edges to ancestors. -/
def sources (g : ClassGraph) (cs : List FoundClass) : List String :=
  (cs.map fun c => c.key).filter fun key => g.edgesOut key ≠ []

theorem perm_grouped (edges : List Edge) : (grouped edges).Perm edges := by
  induction hn : edges.length using Nat.strong_induction_on generalizing edges with
  | _ n ih =>
    cases edges with
    | nil => rfl
    | cons e es =>
      have hlt : (es.filter fun d => d.target ≠ e.target).length < n := by
        have hle := List.length_filter_le (fun d => decide (d.target ≠ e.target)) es
        rw [List.length_cons] at hn
        omega
      have hothers := ih _ hlt _ rfl
      have hsplit : (es.filter (fun d => d.target = e.target) ++
          es.filter fun d => d.target ≠ e.target).Perm es := by
        simpa using List.filter_append_perm (fun d => decide (d.target = e.target)) es
      rw [grouped_cons, List.cons_append]
      exact ((hothers.append_left _).trans hsplit).cons e

theorem grouped_eq_nil_iff : grouped edges = [] ↔ edges = [] := by
  rw [← List.length_eq_zero_iff, (perm_grouped edges).length_eq, List.length_eq_zero_iff]

theorem source_of_mem_edgesOut {key : String} {e : Edge} (h : e ∈ g.edgesOut key) :
    e.source = key := by
  simpa using (List.mem_filter.mp h).2

theorem source_of_mem_grouped {key : String} {e : Edge} (h : e ∈ grouped (g.edgesOut key)) :
    e.source = key :=
  source_of_mem_edgesOut ((perm_grouped _).mem_iff.mp h)

theorem filter_flatMap_of_not_mem {key : String} (hblocks : ∀ k, ∀ e ∈ blocks k, e.source = k)
    (hkey : key ∉ keys) : (keys.flatMap blocks).filter (fun e => e.source = key) = [] := by
  refine List.filter_eq_nil_iff.mpr fun e he => ?_
  obtain ⟨k, hk, hmem⟩ := List.mem_flatMap.mp he
  have hne : k ≠ key := fun h => hkey (h ▸ hk)
  simpa [hblocks k e hmem] using hne

theorem filter_block (hblocks : ∀ k, ∀ e ∈ blocks k, e.source = k) (key : String) :
    (blocks key).filter (fun e => e.source = key) = blocks key :=
  List.filter_eq_self.mpr fun e he => by simpa using hblocks key e he

/-- Edges put one behind the other class by class give back the classes and the edges of each. -/
theorem flatMap_blocks_inj (hblocks : ∀ k, ∀ e ∈ blocks k, e.source = k)
    (hblocks' : ∀ k, ∀ e ∈ blocks' k, e.source = k) (hnodup : keys.Nodup) (hnodup' : keys'.Nodup)
    (hne : ∀ k ∈ keys, blocks k ≠ []) (hne' : ∀ k ∈ keys', blocks' k ≠ [])
    (h : keys.flatMap blocks = keys'.flatMap blocks') :
    keys = keys' ∧ ∀ k ∈ keys, blocks k = blocks' k := by
  induction keys generalizing keys' with
  | nil =>
    cases keys' with
    | nil => simp
    | cons k' keys' =>
      have hnil : blocks' k' = [] := (List.append_eq_nil_iff.mp h.symm).1
      exact absurd hnil (hne' k' List.mem_cons_self)
  | cons k keys ih =>
    obtain ⟨hk, hkeys⟩ := List.nodup_cons.mp hnodup
    obtain ⟨e, es, hblock⟩ := List.exists_cons_of_ne_nil (hne k List.mem_cons_self)
    have hsource : e.source = k := hblocks k e (by simp [hblock])
    cases keys' with
    | nil =>
      have hnil : blocks k = [] := (List.append_eq_nil_iff.mp h).1
      exact absurd hnil (hne k List.mem_cons_self)
    | cons k' keys' =>
      obtain ⟨hk', hkeys'⟩ := List.nodup_cons.mp hnodup'
      obtain ⟨e', es', hblock'⟩ := List.exists_cons_of_ne_nil (hne' k' List.mem_cons_self)
      have hsource' : e'.source = k' := hblocks' k' e' (by simp [hblock'])
      rw [List.flatMap_cons, List.flatMap_cons] at h
      have hfirst : e = e' := by
        rw [hblock, hblock'] at h
        exact (List.cons.inj h).1
      obtain rfl : k = k' := by rw [← hsource, ← hsource', hfirst]
      have hsame : blocks k = blocks' k := by
        have hfilter := congrArg (List.filter fun e => decide (e.source = k)) h
        rw [List.filter_append, List.filter_append, filter_block hblocks, filter_block hblocks',
          filter_flatMap_of_not_mem hblocks hk, filter_flatMap_of_not_mem hblocks' hk'] at hfilter
        simpa using hfilter
      rw [hsame] at h
      obtain ⟨rfl, hrest⟩ := ih hkeys hkeys' (fun k hk => hne k (List.mem_cons_of_mem _ hk))
        (fun k hk => hne' k (List.mem_cons_of_mem _ hk)) (List.append_cancel_left h)
      exact ⟨rfl, List.forall_mem_cons.mpr ⟨hsame, hrest⟩⟩

theorem flatMap_sources (h : ∀ key, g.edgesOut key = [] → blocks key = []) (cs : List FoundClass) :
    (g.sources cs).flatMap blocks = cs.flatMap fun c => blocks c.key := by
  induction cs with
  | nil => rfl
  | cons c cs ih =>
    rw [sources] at ih ⊢
    by_cases hc : g.edgesOut c.key = []
    · rw [List.map_cons, List.filter_cons_of_neg (by simp [hc]), ih, List.flatMap_cons, h _ hc,
        List.nil_append]
    · rw [List.map_cons, List.filter_cons_of_pos (by simp [hc]), List.flatMap_cons, ih,
        List.flatMap_cons]

theorem mem_sources_iff {cs : List FoundClass} {key : String} :
    key ∈ g.sources cs ↔ g.edgesOut key ≠ [] ∧ ∃ c ∈ cs, c.key = key := by
  simp [sources, and_comm]

end ClassGraph

namespace Growth

variable {fs : FileSystem} {f : Finder} {root : FoundClass} {g : Growth}
  {graph : ClassGraph} {fuel : Nat}

/-- Each expansion adds the edges of its class, and no later one adds any to them. -/
theorem Sound.edges_of_run (h : Sound fs f root g)
    (hrun : answer (Growth.run fs fuel g) f = .ok graph)
    (hend : ∀ c ∈ expansions fs f fuel g, ∀ ls, Finder.links fs f c.toClass = .ok ls →
      graph.edgesOut c.key = ls.map (Edge.toAncestor c.key)) :
    graph.edges = g.graph.edges ++ (expansions fs f fuel g).flatMap fun c =>
      graph.edgesOut c.key := by
  induction fuel generalizing g with
  | zero =>
    obtain rfl := Except.ok.inj hrun
    simp [expansions]
  | succ fuel ih =>
    rcases hp : g.pending with _ | ⟨⟨name, c⟩, pending⟩
    · rw [run_of_no_pending hp] at hrun
      obtain rfl := Except.ok.inj hrun
      simp [expansions_of_no_pending hp]
    · rw [run_of_pending hp] at hrun
      obtain ⟨g₁, hexpand, hrun⟩ := bind_eq_ok_iff.mp hrun
      obtain ⟨ls, added, hls, hgrown⟩ := exists_grown_of_expand hexpand
      rw [expansions_of_pending hp, hexpand] at hend ⊢
      dsimp only at hend ⊢
      obtain ⟨hfirst, hrest⟩ := List.forall_mem_cons.mp hend
      have hname : name.normalized = c.key := normalized_eq_key (h.front hp).1
      rw [ih (h.step hp hls hgrown) hrun hrest, hgrown.edges, List.flatMap_cons,
        hfirst ls hls, hname, List.append_assoc]

end Growth

namespace Hierarchy

variable {fs : FileSystem} {f : Finder} {root : FoundClass} {h : Hierarchy}

theorem edges_eq (hbuild : answer (build fs root) f = .ok h) :
    h.graph.edges = (expansions fs f root).flatMap fun c => h.graph.edgesOut c.key := by
  obtain ⟨-, hend⟩ := Growth.Sound.of_build hbuild
  obtain ⟨name, hname, hrun⟩ := exists_run_of_build hbuild
  have hsound : Growth.Sound fs f root (.ofRoot name root) :=
    Growth.sound_ofRoot (QualifiedName.ofText_eq_ok_iff.mp hname)
  have hlinks : ∀ c ∈ expansions fs f root, ∀ ls, Finder.links fs f c.toClass = .ok ls →
      h.graph.edgesOut c.key = ls.map (Edge.toAncestor c.key) := by
    intro c hc ls hls
    obtain ⟨ls', hls', hedges⟩ := hend.links_of_mem ((perm_expansions hbuild).mem_iff.mp hc)
    obtain rfl := Except.ok.inj (hls'.symm.trans hls)
    exact hedges
  rw [expansions_eq hname] at hlinks ⊢
  exact hsound.edges_of_run hrun hlinks

theorem edgeList_eq (hbuild : answer (build fs root) f = .ok h) : h.graph.edgeList =
    h.classes.flatMap fun c => ClassGraph.grouped (h.graph.edgesOut c.key) := by
  obtain ⟨-, hend⟩ := Growth.Sound.of_build hbuild
  have hnames : h.graph.nodes.names = h.classes.map fun c => c.key := hend.names_eq
  have hlist : h.graph.edgeList =
      h.graph.nodes.names.flatMap fun key => ClassGraph.grouped (h.graph.edgesOut key) := by
    simp only [ClassGraph.edgeList, NameMap.keys, NameMap.names, List.flatMap_map,
      ClassGraph.edgesFrom_eq_grouped]
  rw [hlist, hnames, List.flatMap_map]

theorem perm_edgeList (hbuild : answer (build fs root) f = .ok h) :
    h.graph.edgeList.Perm h.graph.edges := by
  have hgrouped : (h.classes.flatMap fun c => ClassGraph.grouped (h.graph.edgesOut c.key)).Perm
      (h.classes.flatMap fun c => h.graph.edgesOut c.key) :=
    List.Perm.flatMap_left _ fun c _ => ClassGraph.perm_grouped _
  rw [edgeList_eq hbuild, edges_eq hbuild]
  exact hgrouped.trans ((perm_expansions hbuild).symm.flatMap_right _)

theorem nodup_sources (hbuild : answer (build fs root) f = .ok h) :
    (h.graph.sources h.classes).Nodup := by
  obtain ⟨-, hend⟩ := Growth.Sound.of_build hbuild
  have hnodup := hend.names_nodup
  rw [hend.names_eq] at hnodup
  exact hnodup.filter _

/-- The edges are listed in the order they were added only where two things come together: the
classes that have any were expanded in the order in which they became nodes, and no class has an
edge to another target between two to the same one. -/
theorem edgeList_eq_edges_iff (hbuild : answer (build fs root) f = .ok h) :
    h.graph.edgeList = h.graph.edges ↔
      h.graph.sources h.classes = h.graph.sources (expansions fs f root) ∧
      ∀ c ∈ h.classes, ClassGraph.grouped (h.graph.edgesOut c.key) = h.graph.edgesOut c.key := by
  have hlisted : (h.graph.sources h.classes).flatMap
      (fun key => ClassGraph.grouped (h.graph.edgesOut key)) = h.graph.edgeList := by
    rw [edgeList_eq hbuild]
    exact ClassGraph.flatMap_sources (fun key hkey => ClassGraph.grouped_eq_nil_iff.mpr hkey) _
  have hadded :
      (h.graph.sources (expansions fs f root)).flatMap h.graph.edgesOut = h.graph.edges := by
    rw [edges_eq hbuild]
    exact ClassGraph.flatMap_sources (fun key hkey => hkey) _
  rw [← hlisted, ← hadded]
  constructor
  · intro heq
    obtain ⟨horder, hblocks⟩ := ClassGraph.flatMap_blocks_inj
      (fun key e he => ClassGraph.source_of_mem_grouped he)
      (fun key e he => ClassGraph.source_of_mem_edgesOut he) (nodup_sources hbuild)
      ((nodup_expansions fs f root).filter _)
      (fun key hkey => mt ClassGraph.grouped_eq_nil_iff.mp (ClassGraph.mem_sources_iff.mp hkey).1)
      (fun key hkey => (ClassGraph.mem_sources_iff.mp hkey).1) heq
    refine ⟨horder, fun c hc => ?_⟩
    by_cases hnone : h.graph.edgesOut c.key = []
    · rw [ClassGraph.grouped_eq_nil_iff.mpr hnone, hnone]
    · exact hblocks _ (ClassGraph.mem_sources_iff.mpr ⟨hnone, c, hc, rfl⟩)
  · rintro ⟨horder, hblocks⟩
    rw [← horder]
    refine List.flatMap_congr fun key hkey => ?_
    obtain ⟨-, c, hc, rfl⟩ := ClassGraph.mem_sources_iff.mp hkey
    exact hblocks c hc

/-- Every edge is listed once. The edges were added class by class in the order of the expansions,
but are listed class by class in the order of the nodes, those of one class grouped by target. -/
theorem edgeList_order (hbuild : answer (build fs root) f = .ok h) :
    h.graph.edgeList.Nodup ∧ h.graph.edgeList.Perm h.graph.edges ∧
    h.graph.edges = ((expansions fs f root).flatMap fun c => h.graph.edgesOut c.key) ∧
    h.graph.edgeList = (h.classes.flatMap fun c => ClassGraph.grouped (h.graph.edgesOut c.key)) ∧
    (h.graph.edgeList = h.graph.edges ↔
      h.graph.sources h.classes = h.graph.sources (expansions fs f root) ∧
      ∀ c ∈ h.classes, ClassGraph.grouped (h.graph.edgesOut c.key) = h.graph.edgesOut c.key) := by
  obtain ⟨-, hend⟩ := Growth.Sound.of_build hbuild
  have hperm := perm_edgeList hbuild
  have hnodup : h.graph.edgeList.Nodup := hperm.nodup_iff.mpr hend.edges_nodup
  exact ⟨hnodup, hperm, edges_eq hbuild, edgeList_eq hbuild, edgeList_eq_edges_iff hbuild⟩

def prongFile (name : UInt8) : List UInt8 :=
  [0xCA, 0xFE, 0xBA, 0xBE, 0, 0, 0, 52, 0, 5, 1, 0, 1, name, 7, 0, 1, 1, 0, 1, 0x52, 7, 0, 3,
    0, 0x21, 0, 2, 0, 4, 0, 0, 0, 0, 0, 0, 0, 0]

/-- Two classes that extend `R`, and `R`, which implements both. -/
def forkFiles : FileSystem :=
  ⟨.folder [("A.class", .file (prongFile 0x41)), ("B.class", .file (prongFile 0x42)),
    ("R.class",
      .file [0xCA, 0xFE, 0xBA, 0xBE, 0, 0, 0, 52, 0, 7, 1, 0, 1, 0x52, 7, 0, 1, 1, 0, 1, 0x41, 7,
      0, 3, 1, 0, 1, 0x42, 7, 0, 5, 0, 0x21, 0, 2, 0, 0, 0, 2, 0, 4, 0, 6, 0, 0, 0, 0, 0, 0])], [],
        []⟩

def forkFinder : Finder :=
  .new ⟨[⟨.single, []⟩]⟩ (.silent "engine")

theorem build_fork : ∃ root h, answer (Finder.find forkFiles (.plain "R")) forkFinder = .ok root ∧
    answer (build forkFiles root) forkFinder = .ok h ∧
    h.graph.edgeList = [⟨"R", "A", .interface⟩, ⟨"R", "B", .interface⟩, ⟨"A", "R", .superclass⟩,
      ⟨"B", "R", .superclass⟩] ∧
    h.graph.edges = [⟨"R", "A", .interface⟩, ⟨"R", "B", .interface⟩, ⟨"B", "R", .superclass⟩,
      ⟨"A", "R", .superclass⟩] := by
  have hbuilt : (answer (Finder.buildNamed forkFiles (.plain "R")) forkFinder).toOption.map
      (fun h => (h.graph.edgeList, h.graph.edges)) =
      some ([⟨"R", "A", .interface⟩, ⟨"R", "B", .interface⟩, ⟨"A", "R", .superclass⟩,
        ⟨"B", "R", .superclass⟩], [⟨"R", "A", .interface⟩, ⟨"R", "B", .interface⟩,
        ⟨"B", "R", .superclass⟩, ⟨"A", "R", .superclass⟩]) := by
    decide +kernel
  obtain ⟨h, hh, hlists⟩ := Option.map_eq_some_iff.mp hbuilt
  have hnamed := Finder.toOption_eq_some_iff.mp hh
  rw [Finder.buildNamed, (Finder.steady_find _).answer_bind steady_build] at hnamed
  obtain ⟨root, hroot, hbuild⟩ := bind_eq_ok_iff.mp hnamed
  exact ⟨root, h, hroot, hbuild, Prod.mk.inj hlists⟩

theorem edgeList_order_fork : ∃ root h, answer (build forkFiles root) forkFinder = .ok h ∧
    h.graph.edgeList.Nodup ∧ h.graph.edgeList.Perm h.graph.edges ∧
    ¬ (h.graph.sources h.classes = h.graph.sources (expansions forkFiles forkFinder root) ∧
      ∀ c ∈ h.classes, ClassGraph.grouped (h.graph.edgesOut c.key) = h.graph.edgesOut c.key) := by
  obtain ⟨root, h, -, hbuild, hlisted, hadded⟩ := build_fork
  obtain ⟨hnodup, hperm, -, -, hagree⟩ := edgeList_order hbuild
  have hdiffer : h.graph.edgeList ≠ h.graph.edges := by
    rw [hlisted, hadded]
    decide
  exact ⟨root, h, hbuild, hnodup, hperm, mt hagree.mpr hdiffer⟩

theorem edgeList_not_as_added :
    ¬ ∀ (fs : FileSystem) (f : Finder) (root : FoundClass) (h : Hierarchy),
    answer (build fs root) f = .ok h → h.graph.edgeList = h.graph.edges := by
  intro hall
  obtain ⟨root, h, -, hbuild, hlisted, hadded⟩ := build_fork
  have heq := hall _ _ _ _ hbuild
  rw [hlisted, hadded] at heq
  revert heq
  decide

end Hierarchy

end ClassAtlas
