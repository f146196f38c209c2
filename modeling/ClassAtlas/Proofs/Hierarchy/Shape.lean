import ClassAtlas.Proofs.Hierarchy.Ancestors
import ClassAtlas.Proofs.Hierarchy.Expansions
import ClassAtlas.Proofs.Hierarchy.Rebuild

/-! The shape of a finished hierarchy, whatever the files declare. Everything in it is reached from
the root, and all that can be asked of it by name goes by the same names. -/

namespace ClassAtlas

theorem ClassGraph.Walk.mono {g g' : ClassGraph} {start key : String} {k : Nat}
    (hsub : g.edges ⊆ g'.edges) (h : g.Walk start k key) : g'.Walk start k key := by
  induction h with
  | start => exact .start
  | edge _ he ih => exact ih.edge (hsub he)

theorem ClassGraph.Walk.eq_of_zero {g : ClassGraph} {start key : String}
    (h : g.Walk start 0 key) : key = start := by
  generalize hk : 0 = k at h
  cases h with
  | start => rfl
  | edge => cases hk

namespace Growth

open Finder

variable {fs : FileSystem} {f : Finder} {root c : FoundClass} {name : QualifiedName}
  {ls : List (Relation × FoundClass)} {added pending : List (QualifiedName × FoundClass)}
  {g g' : Growth} {graph : ClassGraph} {key : String}

/-- Every node so far has been reached from the root. -/
def Rooted (root : FoundClass) (g : Growth) : Prop :=
  ∀ key ∈ g.graph.nodes.names, ∃ k, g.graph.Walk root.key k key

theorem rooted_ofRoot (h : name.text = root.thisName) : Rooted root (ofRoot name root) := by
  intro key hkey
  have hroot : key = root.key := (List.mem_singleton.mp hkey).trans (normalized_eq_key h)
  rw [hroot]
  exact ⟨0, .start⟩

theorem Rooted.step (h : Rooted root g) (hsound : Sound fs f root g)
    (hp : g.pending = (name, c) :: pending)
    (hgrown : Grown name.normalized ls added { g with pending } g') : Rooted root g' := by
  have hsub : g.graph.edges ⊆ g'.graph.edges := fun e he => hgrown.mem_edges_iff.mpr (.inl he)
  have hfront := hsound.front hp
  have hsource : name.normalized ∈ g.graph.nodes.names :=
    normalized_eq_key hfront.1 ▸ hsound.key_mem hfront.2
  intro key hkey
  rw [hgrown.names] at hkey
  rcases List.mem_append.mp hkey with hkey | hkey
  · obtain ⟨k, hk⟩ := h key hkey
    exact ⟨k, hk.mono hsub⟩
  -- What is added is linked to the class in front.
  · obtain ⟨p, hmem, rfl⟩ := List.mem_map.mp hkey
    obtain ⟨relation, hl⟩ := hgrown.linked p hmem
    have hedge : Edge.toAncestor name.normalized (relation, p.2) ∈ g'.graph.edges :=
      hgrown.mem_edges_iff.mpr (.inr ⟨_, hl, rfl⟩)
    obtain ⟨k, hk⟩ := h _ hsource
    rw [normalized_eq_key (hgrown.named p hmem)]
    exact ⟨k + 1, .edge (hk.mono hsub) hedge⟩

theorem Sound.one_superclass (h : Sound fs f root ⟨graph, []⟩) (source : String) :
    ((graph.edgesOut source).filter fun e => e.relation = .superclass).length ≤ 1 := by
  by_cases hsource : source ∈ graph.nodes.names
  · obtain ⟨c, hc, rfl⟩ := h.class_of_name hsource
    obtain ⟨names, -, hedges⟩ := h.edgesOut_eq hc
    rw [hedges, List.filter_append, List.filter_map, List.filter_map]
    simp only [Function.comp_def]
    cases (answer (findSuper fs c.toClass) f).toOption with
    | none => simp
    | some d => simp
  · have hnone : graph.edgesOut source = [] :=
      edgesOut_eq_nil fun e he hsame => hsource (hsame ▸ h.sources e he)
    simp [hnone]

theorem Sound.classes_nodup (h : Sound fs f root g) : g.graph.classes.Nodup := by
  have hnames := h.names_nodup
  rw [h.names_eq] at hnames
  exact hnames.of_map

/-- The root and its ancestors are all the classes there are. -/
theorem Sound.perm_classes (h : Sound fs f root ⟨graph, []⟩) (hrooted : Rooted root ⟨graph, []⟩) :
    (root :: (graph.carriedBy (graph.reach root.key)).map Prod.fst).Perm graph.classes := by
  have hnearest : graph.NearestFirst root.key (graph.carriedBy (graph.reach root.key)) :=
    ClassGraph.nearestFirst_carriedBy fun _ hl => h.reached_carried hl
  set listed := graph.carriedBy (graph.reach root.key)
  have hlisted : ∀ l ∈ listed, l.1 ∈ graph.classes := fun l hl =>
    (h.get?_iff.mp (hnearest.carried l hl)).1
  have hkeys : (root :: listed.map Prod.fst).map (fun c => c.key) =
      root.key :: ClassGraph.namesOf listed := by
    simp [ClassGraph.namesOf]
  have hnodup : (root :: listed.map Prod.fst).Nodup := by
    refine List.Nodup.of_map (fun c => c.key) ?_
    rw [hkeys]
    exact List.nodup_cons.mpr ⟨fun hmem => ((hnearest.mem_iff _).mp hmem).1 rfl, hnearest.nodup⟩
  refine (List.perm_ext_iff_of_nodup hnodup h.classes_nodup).mpr fun c => ?_
  constructor
  · intro hc
    rcases List.mem_cons.mp hc with rfl | hc
    · exact h.root_mem
    · obtain ⟨l, hl, rfl⟩ := List.mem_map.mp hc
      exact hlisted l hl
  · intro hc
    by_cases hroot : c.key = root.key
    · rw [h.eq_of_key hc h.root_mem hroot]
      exact List.mem_cons_self
    · obtain ⟨k, hk⟩ := hrooted c.key (h.key_mem hc)
      obtain ⟨k, rfl⟩ : ∃ l, k = l + 1 := Nat.exists_eq_succ_of_ne_zero fun hzero =>
        hroot (hzero ▸ hk).eq_of_zero
      obtain ⟨l, hl, hkey⟩ := List.mem_map.mp ((hnearest.mem_iff c.key).mpr ⟨hroot, k, hk⟩)
      rw [← h.eq_of_key (hlisted l hl) hc hkey]
      exact List.mem_cons_of_mem _ (List.mem_map_of_mem hl)

end Growth

namespace Hierarchy

open Finder

variable {fs : FileSystem} {f : Finder} {root c : FoundClass} {h : Hierarchy} {name : NameLike}
  {e : Error}

structure Shaped (h : Hierarchy) (root : FoundClass) : Prop where
  root_carried : h.get (.owned h.root) = .ok root
  keyed : ∀ entry ∈ h.graph.nodes.entries, entry.1.key = entry.2.key
  names_nodup : h.graph.nodes.names.Nodup
  sources : ∀ edge ∈ h.graph.edges, edge.source ∈ h.graph.nodes.names
  targets : ∀ edge ∈ h.graph.edges, edge.target ∈ h.graph.nodes.names
  edges_nodup : h.graph.edges.Nodup
  one_superclass : ∀ source,
    ((h.graph.edgesOut source).filter fun edge => edge.relation = .superclass).length ≤ 1
  reached : ∀ key ∈ h.graph.nodes.names, ∃ k, h.graph.Walk h.root.normalized k key
  ancestors_perm : ∃ listed, h.ancestors (.owned h.root) = .ok listed ∧
    (root :: listed.map Prod.fst).Perm h.classes

/-- All that can be asked by a name goes by the same nodes, and fails only where there is none. -/
structure Answers (h : Hierarchy) (name : NameLike) : Prop where
  get_iff : (∃ c, h.get name = .ok c) ↔ h.contains name = true
  ancestors_iff : (∃ listed, h.ancestors name = .ok listed) ↔ h.contains name = true
  get_error : ∀ e, h.get name = .error e → ∃ text, e = .notFound text
  ancestors_error : ∀ e, h.ancestors name = .error e → ∃ text, e = .notFound text
  key_eq : ∀ c, h.get name = .ok c → c ∈ h.classes ∧ c.key = slashes name.text

theorem nodeName_of_not_contains (hname : h.contains name = false) :
    ∃ text, h.nodeName name = .error (.notFound text) := by
  rw [contains] at hname
  rw [nodeName]
  cases hspan : name.toSpan with
  | error n => exact ⟨_, rfl⟩
  | ok span =>
    rw [hspan] at hname
    exact ⟨_, if_neg (by simpa using hname)⟩

theorem get_of_contains (hsound : Growth.Sound fs f root ⟨h.graph, []⟩)
    (hname : h.contains name = true) :
    ∃ c ∈ h.graph.classes, c.key = slashes name.text ∧ h.get name = .ok c := by
  obtain ⟨c, hc, hkey⟩ := hsound.class_of_name (contains_iff.mp hname).2
  obtain ⟨n, hn, hslashes⟩ := nodeName_of_contains hname
  have hsame : h.graph.nodes.get? (.owned n) = h.graph.nodes.get? (.plain c.key) :=
    NameMap.get?_eq_of_key (hslashes.trans hkey.symm)
  have hcarried : h.graph.nodes.get? (.plain c.key) = some c := hsound.get?_iff.mpr ⟨hc, rfl⟩
  have hget : h.graph.nodes.get? (.owned n) = some c := hsame.trans hcarried
  refine ⟨c, hc, hkey, ?_⟩
  rw [get, hn]
  simp [bind, Except.bind, pure, Except.pure, hget]

theorem answers (hsound : Growth.Sound fs f root ⟨h.graph, []⟩) (name : NameLike) :
    h.Answers name := by
  by_cases hname : h.contains name = true
  · obtain ⟨c, hc, hkey, hget⟩ := get_of_contains hsound hname
    have hlisted := ancestors_eq hname
    constructor
    case get_iff => exact iff_of_true ⟨c, hget⟩ hname
    case ancestors_iff => exact iff_of_true ⟨_, hlisted⟩ hname
    case get_error => simp [hget]
    case ancestors_error => simp [hlisted]
    case key_eq =>
      intro d hd
      obtain rfl := Except.ok.inj (hget.symm.trans hd)
      exact ⟨hc, hkey⟩
  · obtain ⟨text, hnode⟩ := nodeName_of_not_contains (by simpa using hname)
    have hget : h.get name = .error (.notFound text) := by
      rw [get, hnode]
      rfl
    have hlisted : h.ancestors name = .error (.notFound text) := by
      rw [ancestors, hnode]
      rfl
    constructor
    case get_iff => simp [hget, hname]
    case ancestors_iff => simp [hlisted, hname]
    case get_error =>
      intro e he
      exact ⟨text, Except.error.inj (he.symm.trans hget)⟩
    case ancestors_error =>
      intro e he
      exact ⟨text, Except.error.inj (he.symm.trans hlisted)⟩
    case key_eq => simp [hget]

theorem rooted_of_build (hbuild : answer (build fs root) f = .ok h) :
    Growth.Rooted root ⟨h.graph, []⟩ := by
  obtain ⟨name, hname, hrun⟩ := exists_run_of_build hbuild
  have htext : name.text = root.thisName := QualifiedName.ofText_eq_ok_iff.mp hname
  obtain ⟨g, ⟨-, hrooted⟩, hgraph⟩ := Growth.exists_of_run
    (motive := fun g => Growth.Sound fs f root g ∧ Growth.Rooted root g)
    (fun hg hp hls hgrown => ⟨hg.1.step hp hls hgrown, hg.2.step hg.1 hp hgrown⟩)
    ⟨Growth.sound_ofRoot htext, Growth.rooted_ofRoot htext⟩ hrun
  rw [← hgraph]
  exact hrooted

theorem shaped_of_build (hbuild : answer (build fs root) f = .ok h) : h.Shaped root := by
  obtain ⟨htext, hsound⟩ := Growth.Sound.of_build hbuild
  have hrooted := rooted_of_build hbuild
  have hroot : slashes (NameLike.owned h.root).text = root.key := congrArg slashes htext
  have hcontains : h.contains (.owned h.root) = true :=
    contains_iff.mpr ⟨h.root.valid, hroot ▸ hsound.key_mem hsound.root_mem⟩
  constructor
  case root_carried =>
    obtain ⟨c, hc, hkey, hget⟩ := get_of_contains hsound hcontains
    rw [hget, hsound.eq_of_key hc hsound.root_mem (hkey.trans hroot)]
  case keyed => exact hsound.keyed
  case names_nodup => exact hsound.names_nodup
  case sources => exact hsound.sources
  case targets => exact hsound.targets
  case edges_nodup => exact hsound.edges_nodup
  case one_superclass => exact hsound.one_superclass
  case reached =>
    have hstart : h.root.normalized = root.key := hroot
    rw [hstart]
    exact hrooted
  case ancestors_perm =>
    refine ⟨_, ancestors_eq hcontains, ?_⟩
    rw [hroot]
    exact hsound.perm_classes hrooted

/-- Whatever the files declare, a hierarchy that is built has its root and under each name the class
that declares it; its edges join nodes, one for each relation and one superclass for each class; all
of it is reached from the root; and all questions by name agree on the names there are. -/
theorem build_shaped (fs : FileSystem) (f : Finder) :
    (∀ root h, answer (build fs root) f = .ok h → h.Shaped root ∧ ∀ name, h.Answers name) ∧
      ∀ start h, answer (buildNamed fs start) f = .ok h →
        ∃ root, answer (find fs start) f = .ok root ∧ h.Shaped root ∧ ∀ name, h.Answers name := by
  have hbuilt (root : FoundClass) (h : Hierarchy) (hbuild : answer (build fs root) f = .ok h) :
      h.Shaped root ∧ ∀ name, h.Answers name :=
    ⟨shaped_of_build hbuild, answers (Growth.Sound.of_build hbuild).2⟩
  refine ⟨hbuilt, fun start h hbuild => ?_⟩
  obtain ⟨root, hroot, hbuild⟩ := build_of_buildNamed hbuild
  exact ⟨root, hroot, hbuilt root h hbuild⟩

/-- Both files declare the same class. -/
def misfiledFiles : FileSystem :=
  ⟨.folder [("A.class", .file (pairFile 0x41 0x42)), ("B.class", .file (pairFile 0x41 0x42))], [],
    []⟩

def misfiledFinder : Finder :=
  .new ⟨[⟨.single, []⟩]⟩ (.silent "engine")

theorem build_shaped_misfiled :
    (∃ h, answer (build pairFiles pairRoot) pairFinder = .ok h ∧ h.Shaped pairRoot) ∧
      ∃ h root, answer (buildNamed misfiledFiles (.plain "B")) misfiledFinder = .ok h ∧
        answer (find misfiledFiles (.plain "B")) misfiledFinder = .ok root ∧ h.Shaped root ∧
        (h.graph.edges.map fun e => (e.source, e.target)) = [("A", "A"), ("A", "A")] ∧
          h.Answers (.plain "B") ∧
        h.contains (.plain "B") = false := by
  obtain ⟨h, hbuild, -, -⟩ := build_pair
  have hshaped := ((build_shaped pairFiles pairFinder).1 pairRoot h hbuild).1
  refine ⟨⟨h, hbuild, hshaped⟩, ?_⟩
  have hmisfiled : ((answer (buildNamed misfiledFiles (.plain "B")) misfiledFinder).toOption.map
      fun h => (h.graph.edges.map fun e => (e.source, e.target), h.contains (.plain "B"))) =
        some ([("A", "A"), ("A", "A")], false) := by
    decide +kernel
  obtain ⟨h', hh', hends⟩ := Option.map_eq_some_iff.mp hmisfiled
  have hbuild' := toOption_eq_some_iff.mp hh'
  obtain ⟨root, hroot, hshaped', hanswers⟩ :=
    (build_shaped misfiledFiles misfiledFinder).2 (.plain "B") h' hbuild'
  exact ⟨h', root, hbuild', hroot, hshaped', (Prod.mk.inj hends).1, hanswers _,
    (Prod.mk.inj hends).2⟩

end Hierarchy

end ClassAtlas
