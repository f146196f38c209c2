import ClassAtlas.Proofs.Hierarchy.Failures
import ClassAtlas.Proofs.Hierarchy.Rebuild

/-! Edges that a build comes to a second time. Each class is expanded once and has no edges before,
so the only edges that can repeat are those of one class to two interfaces which declare the same
name. -/

namespace ClassAtlas

namespace Finder

/-- Two of the direct interfaces that are found for a class declare the same name. -/
def RepeatsInterface (fs : FileSystem) (f : Finder) (c : Class) (key : String) : Prop :=
  ∃ ds, answer (findInterfaces fs c) f = .ok ds ∧ List.Duplicate key (ds.map fun d => d.key)

/-- On the way up from the root, names are qualified and lookups fail only where nothing is
found. -/
structure MissesOnly (fs : FileSystem) (f : Finder) (root : FoundClass) : Prop where
  qualified : ∀ c, Reached fs f root c → isQualifiedName c.thisName.toList = true
  superclass : ∀ c, Reached fs f root c → ∀ e,
    answer (findSuper fs c.toClass) f = .error e → ∃ text, e = .notFound text
  interfaces : ∀ c, Reached fs f root c → ∀ e,
    answer (findInterfaces fs c.toClass) f = .error e → ∃ text, e = .notFound text

variable {fs : FileSystem} {f : Finder} {source target text : String} {relation : Relation}

theorem find_ne_repeatedEdge (name : NameLike) :
    answer (find fs name) f ≠ .error (.repeatedEdge source target relation) := by
  intro h
  rcases error_of_find h with hfiles | ⟨text, he⟩ | ⟨fault, he⟩
  · cases hfiles
  · cases he
  · cases he

theorem optional_findSuper_ne_repeatedEdge (c : Class) :
    answer (optional (findSuper fs c)) f ≠ .error (.repeatedEdge source target relation) := by
  intro h
  rcases error_of_findSuper (error_of_optional h).1 with ⟨name, hfind⟩ | ⟨text, he⟩
  · exact find_ne_repeatedEdge name hfind
  · cases he

theorem findInterfaces_ne_repeatedEdge (c : Class) :
    answer (findInterfaces fs c) f ≠ .error (.repeatedEdge source target relation) := by
  intro h
  rcases error_of_findInterfaces h with ⟨fault, he⟩ | ⟨name, hfind, -⟩
  · cases he
  · exact find_ne_repeatedEdge name hfind

theorem findInterfaces_ne_notFound (c : Class) :
    answer (findInterfaces fs c) f ≠ .error (.notFound text) := by
  intro h
  rcases error_of_findInterfaces h with ⟨fault, he⟩ | ⟨name, -, hne⟩
  · cases he
  · exact hne text rfl

end Finder

namespace Growth

open Finder

variable {fs : FileSystem} {f : Finder} {root c d : FoundClass} {name : QualifiedName}
  {source target : String} {relation relation' : Relation} {ls : List (Relation × FoundClass)}
  {pending : List (QualifiedName × FoundClass)} {g : Growth}

theorem repeated_of_link
    (h : link name relation g d = .error (.repeatedEdge source target relation')) :
    source = name.normalized ∧ target = d.key ∧ relation' = relation ∧
      Edge.toAncestor name.normalized (relation, d) ∈ g.graph.edges := by
  rw [link] at h
  cases hname : d.qualifiedName with
  | error n =>
    rw [hname] at h
    cases h
  | ok n =>
    have hkey : n.normalized = d.key := normalized_eq_key (QualifiedName.ofText_eq_ok_iff.mp hname)
    rw [hname] at h
    rcases bind_eq_error_iff.mp h with hadd | ⟨graph, -, hend⟩
    · rw [ClassGraph.addEdge, edges_add] at hadd
      split_ifs at hadd with hmem
      cases hadd
      exact ⟨rfl, hkey, rfl, by rwa [hkey] at hmem⟩
    · cases hend

theorem repeated_of_foldlM_link (h : ls.foldlM (fun g l => link name l.1 g l.2) g =
      .error (.repeatedEdge source target relation)) :
    source = name.normalized ∧ ∃ front l back, ls = front ++ l :: back ∧ l.1 = relation ∧
      l.2.key = target ∧ Edge.toAncestor name.normalized l ∈
        g.graph.edges ++ front.map (Edge.toAncestor name.normalized) := by
  induction ls generalizing g with
  | nil => cases h
  | cons l ls ih =>
    rw [List.foldlM_cons] at h
    rcases bind_eq_error_iff.mp h with hlink | ⟨g₁, hlink, hrest⟩
    · obtain ⟨hsource, htarget, hrelation, hmem⟩ := repeated_of_link hlink
      exact ⟨hsource, [], l, ls, rfl, hrelation.symm, htarget.symm, by simpa using hmem⟩
    · obtain ⟨added, hgrown⟩ := exists_grown_of_link hlink
      obtain ⟨hsource, front, l', back, rfl, hrelation, htarget, hmem⟩ := ih hrest
      rw [hgrown.edges, List.append_assoc] at hmem
      exact ⟨hsource, l :: front, l', back, rfl, hrelation, htarget, hmem⟩

theorem duplicate_of_split {α : Type} {front back : List α} {a : α} (h : a ∈ front) :
    List.Duplicate a (front ++ a :: back) := by
  have hfront : [a].Sublist front := List.singleton_sublist.mpr h
  have hback : [a].Sublist (a :: back) := List.singleton_sublist.mpr List.mem_cons_self
  exact List.duplicate_iff_sublist.mpr (hfront.append hback)

theorem Sound.repeated_of_expand (h : Sound fs f root g) (hp : g.pending = (name, c) :: pending)
    (hexpand : answer (expand fs name c { g with pending }) f =
      .error (.repeatedEdge source target relation)) :
    source = c.key ∧ relation = .interface ∧ RepeatsInterface fs f c.toClass target := by
  have hname : name.normalized = c.key := normalized_eq_key (h.front hp).1
  have hnone := h.no_edge_of_front hp
  rw [answer_expand] at hexpand
  rcases bind_eq_error_iff.mp hexpand with hsuper | ⟨parent, -, hexpand⟩
  · exact absurd hsuper (optional_findSuper_ne_repeatedEdge _)
  rcases bind_eq_error_iff.mp hexpand with hlink | ⟨g₁, hlink, hexpand⟩
  -- There is only one superclass.
  · rw [← foldlM_map_mk] at hlink
    obtain ⟨-, front, l, back, hsplit, -, -, hmem⟩ := repeated_of_foldlM_link hlink
    have hfront : front = [] := by
      cases parent with
      | none => simp at hsplit
      | some d => cases front <;> simp_all
    rw [hfront, List.map_nil, List.append_nil] at hmem
    exact absurd hmem (hnone l)
  rcases bind_eq_error_iff.mp hexpand with hinterfaces | ⟨ds, hds, hrest⟩
  · exact absurd hinterfaces (findInterfaces_ne_repeatedEdge _)
  · rw [← foldlM_map_mk] at hlink hrest
    obtain ⟨added, hgrown⟩ := exists_grown hlink
    obtain ⟨hsource, front, l, back, hsplit, hrelation, htarget, hmem⟩ :=
      repeated_of_foldlM_link hrest
    have hmapped : ∀ l ∈ ds.map (Prod.mk Relation.interface), l.1 = .interface := by simp
    have hinterface : l.1 = .interface := hmapped l (hsplit ▸ by simp)
    rw [hgrown.edges, List.mem_append, List.mem_append] at hmem
    rcases hmem with (hmem | hmem) | hmem
    · exact absurd hmem (hnone l)
    · obtain ⟨l', hl', he⟩ := List.mem_map.mp hmem
      obtain ⟨d, -, rfl⟩ := List.mem_map.mp hl'
      have hsame : Relation.superclass = l.1 := congrArg Edge.relation he
      rw [hinterface] at hsame
      cases hsame
    · obtain ⟨l', hl', he⟩ := List.mem_map.mp hmem
      have hkeys : ds.map (fun d => d.key) =
          front.map (fun l => l.2.key) ++ target :: back.map fun l => l.2.key := by
        have hsnd := congrArg (List.map fun l => l.2.key) hsplit
        rw [List.map_map] at hsnd
        simpa [Function.comp_def, htarget] using hsnd
      have hagain : target ∈ front.map fun l => l.2.key := by
        rw [← htarget]
        exact List.mem_map.mpr ⟨l', hl', congrArg Edge.target he⟩
      refine ⟨hsource.trans hname, hrelation.symm.trans hinterface, ds, hds, ?_⟩
      rw [hkeys]
      exact duplicate_of_split hagain

end Growth

namespace Hierarchy

open Finder

variable {fs : FileSystem} {f : Finder} {root c : FoundClass} {h : Hierarchy} {key : String}
  {source target : String} {relation : Relation} {e : Error}

theorem repeated_of_build
    (hbuild : answer (build fs root) f = .error (.repeatedEdge source target relation)) :
    relation = .interface ∧ ∃ c, (expansions fs f root).getLast? = some c ∧ c.key = source ∧
      RepeatsInterface fs f c.toClass target := by
  rcases run_of_build_error hbuild with ⟨n, -, he⟩ | ⟨name, hname, hrun⟩
  · cases he
  · have hsound : Growth.Sound fs f root (.ofRoot name root) :=
      Growth.sound_ofRoot (QualifiedName.ofText_eq_ok_iff.mp hname)
    obtain ⟨g, name', c, pending, hg, hp, hexpand, hlast⟩ :=
      Growth.exists_of_run_error (fun hg hp hls hgrown => hg.step hp hls hgrown) hsound hrun
    obtain ⟨rfl, rfl, hrepeats⟩ := hg.repeated_of_expand hp hexpand
    rw [← expansions_eq hname] at hlast
    exact ⟨rfl, c, hlast, rfl, hrepeats⟩

theorem reached_of_mem_expansions (hc : c ∈ expansions fs f root) : Reached fs f root c := by
  cases hname : root.qualifiedName with
  | error n => simp [expansions, hname] at hc
  | ok name =>
    rw [expansions_eq hname] at hc
    obtain ⟨g, name', pending, hg, hp⟩ := Growth.exists_of_mem_expansions
      (fun hg hp hls hgrown => Growth.reached_step hg hp hls hgrown)
      (Growth.reached_ofRoot name root) hc
    exact hg (name', c) (by simp [hp])

/-- A finished hierarchy has no class whose interfaces repeat a name. -/
theorem not_repeats_of_build (hbuild : answer (build fs root) f = .ok h) (hc : c ∈ h.classes) :
    ¬ RepeatsInterface fs f c.toClass key := by
  rintro ⟨ds, hds, hduplicate⟩
  obtain ⟨-, hsound⟩ := Growth.Sound.of_build hbuild
  obtain ⟨ls, hls, hedges⟩ := hsound.links_of_mem hc
  obtain ⟨parent, interfaces, -, hinterfaces, rfl⟩ := exists_of_links hls
  obtain rfl := Except.ok.inj (hds.symm.trans hinterfaces)
  have hnodup : (h.graph.edgesOut c.key).Nodup := hsound.edges_nodup.filter _
  rw [hedges, List.map_append] at hnodup
  have hinterfaceEdges := (List.nodup_append.mp hnodup).2.1
  have hkeys : (ds.map fun d => d.key).Nodup := by
    refine List.Nodup.of_map (fun key => (⟨c.key, key, .interface⟩ : Edge)) ?_
    rwa [List.map_map] at hinterfaceEdges ⊢
  exact hduplicate.not_nodup hkeys

/-- Where nothing else can be wrong, a build goes through or comes to an edge a second time. -/
theorem build_of_missesOnly (hmisses : MissesOnly fs f root) :
    (∃ h, answer (build fs root) f = .ok h) ∨
      ∃ source target, answer (build fs root) f =
        .error (.repeatedEdge source target .interface) := by
  cases hbuild : answer (build fs root) f with
  | ok h => exact .inl ⟨h, rfl⟩
  | error e =>
    refine .inr ?_
    have hqualified : ∀ c, Reached fs f root c → ¬ Misnamed c e := by
      intro c hc hname
      have hvalid := hmisses.qualified c hc
      simp [hname.1] at hvalid
    rcases failsAt_of_build hbuild with hname | ⟨c, hc, hfails⟩
    · exact absurd hname (hqualified root .root)
    · cases hfails with
      | superclass hsuper =>
        obtain ⟨hsuper, hne⟩ := error_of_optional hsuper
        obtain ⟨text, rfl⟩ := hmisses.superclass c hc e hsuper
        exact absurd rfl (hne text)
      | interfaces hinterfaces =>
        obtain ⟨text, rfl⟩ := hmisses.interfaces c hc e hinterfaces
        exact absurd hinterfaces (findInterfaces_ne_notFound _)
      | repeatedEdge source target relation =>
        obtain ⟨rfl, -⟩ := repeated_of_build hbuild
        exact ⟨source, target, rfl⟩
      | misnamed hd hname => exact absurd hname (hqualified _ (hc.ancestor hd))

theorem mem_classes_of_reached (hbuild : answer (build fs root) f = .ok h)
    (hnames : ∀ c d, Reached fs f root c → Reached fs f root d → c.key = d.key → c = d)
    (hc : Reached fs f root c) : c ∈ h.classes := by
  have hclasses : ∀ d ∈ h.classes, Reached fs f root d := fun d hd =>
    reached_of_mem_expansions ((perm_expansions hbuild).mem_iff.mpr hd)
  obtain ⟨-, hsound⟩ := Growth.Sound.of_build hbuild
  induction hc with
  | root => exact hsound.root_mem
  | @ancestor c d relation hc hd ih =>
    obtain ⟨d', hd', hkey⟩ :=
      hsound.class_of_name (hsound.targets _ (hsound.edge_of_directAncestor ih hd))
    rw [← hnames d' d (hclasses d' hd') (hc.ancestor hd) hkey]
    exact hd'

/-- A build fails for a repeated edge only at a class of which two interfaces declare the same name,
and then names both and the relation. Where lookups fail only since nothing is found and names are
qualified, it does so for every such class that it comes to, which are all classes on the way up
unless some of them share a name. No class is expanded twice, and those of a finished hierarchy are
expanded once each. -/
theorem build_repeatedEdge (fs : FileSystem) (f : Finder) (root : FoundClass) :
    (∀ source target relation,
      answer (build fs root) f = .error (.repeatedEdge source target relation) →
        relation = .interface ∧ ∃ c, (expansions fs f root).getLast? = some c ∧ c.key = source ∧
          RepeatsInterface fs f c.toClass target) ∧
    (∀ start source target relation,
      answer (buildNamed fs start) f = .error (.repeatedEdge source target relation) ↔
        ∃ root, answer (find fs start) f = .ok root ∧
          answer (build fs root) f = .error (.repeatedEdge source target relation)) ∧
    (MissesOnly fs f root →
      (∀ c ∈ expansions fs f root, ∀ key, RepeatsInterface fs f c.toClass key →
        ∃ source target,
          answer (build fs root) f = .error (.repeatedEdge source target .interface)) ∧
      ((∀ c d, Reached fs f root c → Reached fs f root d → c.key = d.key → c = d) →
        ∀ c, Reached fs f root c → ∀ key, RepeatsInterface fs f c.toClass key →
          ∃ source target,
            answer (build fs root) f = .error (.repeatedEdge source target .interface))) ∧
    ((expansions fs f root).map fun c => c.key).Nodup ∧
    (∀ c ∈ expansions fs f root, Reached fs f root c) ∧
    ∀ h, answer (build fs root) f = .ok h → (expansions fs f root).Perm h.classes := by
  refine ⟨fun _ _ _ => repeated_of_build, ?named, fun hmisses => ⟨?expanded, ?reached⟩,
    nodup_expansions fs f root, fun _ => reached_of_mem_expansions, fun _ => perm_expansions⟩
  case named =>
    intro start source target relation
    rw [buildNamed, (steady_find start).answer_bind steady_build, bind_eq_error_iff]
    exact or_iff_right (find_ne_repeatedEdge start)
  case expanded =>
    intro c hc key hrepeats
    refine (build_of_missesOnly hmisses).resolve_left ?_
    rintro ⟨h, hbuild⟩
    exact not_repeats_of_build hbuild ((perm_expansions hbuild).mem_iff.mp hc) hrepeats
  case reached =>
    intro hnames c hc key hrepeats
    refine (build_of_missesOnly hmisses).resolve_left ?_
    rintro ⟨h, hbuild⟩
    exact not_repeats_of_build hbuild (mem_classes_of_reached hbuild hnames hc) hrepeats

/-- A class file of a class that names itself twice among its interfaces. -/
def twiceFile : List UInt8 :=
  [0xCA, 0xFE, 0xBA, 0xBE, 0, 0, 0, 52, 0, 3, 1, 0, 1, 0x41, 7, 0, 1, 0, 0x21, 0, 2, 0,
    0, 0, 2, 0, 2, 0, 2, 0, 0, 0, 0, 0, 0]

def twiceFiles : FileSystem :=
  ⟨.folder [("A.class", .file twiceFile)], [], []⟩

def twiceFinder : Finder :=
  .new ⟨[⟨.single, []⟩]⟩ (.silent "engine")

theorem exists_twiceRoot : ∃ root, answer (find twiceFiles (.plain "A")) twiceFinder = .ok root ∧
    root.key = "A" ∧ (∃ text, answer (findSuper twiceFiles root.toClass) twiceFinder =
      .error (.notFound text)) ∧
    answer (findInterfaces twiceFiles root.toClass) twiceFinder = .ok [root, root] := by
  have hparts : (answer (find twiceFiles (.plain "A")) twiceFinder).toOption.map
      (fun c => (c.key, c.superName, c.interfaces.toOption)) =
        some ("A", none, some ["A", "A"]) := by
    decide +kernel
  obtain ⟨root, hroot, hparts⟩ := Option.map_eq_some_iff.mp hparts
  obtain ⟨hkey, hsuper, hinterfaces⟩ : root.key = "A" ∧ root.superName = none ∧
      root.interfaces.toOption = some ["A", "A"] := by simpa using hparts
  have hfind := toOption_eq_some_iff.mp hroot
  have hoptional : answer (optional (find twiceFiles (.plain "A"))) twiceFinder = .ok (some root) :=
    answer_optional_eq_some_iff.mpr hfind
  refine ⟨root, hfind, hkey, ⟨_, by rw [findSuper, hsuper]; rfl⟩, ?_⟩
  rw [findInterfaces, toOption_eq_some_iff.mp hinterfaces]
  dsimp only
  rw [answer_findPresent_cons, answer_findPresent_cons, hoptional]
  rfl

theorem build_repeatedEdge_twice :
    (∃ root, answer (find twiceFiles (.plain "A")) twiceFinder = .ok root ∧
      MissesOnly twiceFiles twiceFinder root ∧
      RepeatsInterface twiceFiles twiceFinder root.toClass "A" ∧
      root ∈ expansions twiceFiles twiceFinder root ∧
      answer (build twiceFiles root) twiceFinder = .error (.repeatedEdge "A" "A" .interface) ∧
      answer (buildNamed twiceFiles (.plain "A")) twiceFinder =
        .error (.repeatedEdge "A" "A" .interface)) ∧
    ∃ h, answer (build pairFiles pairRoot) pairFinder = .ok h ∧
      (expansions pairFiles pairFinder pairRoot).Perm h.classes := by
  obtain ⟨root, hfind, hkey, ⟨text, hsuper⟩, hinterfaces⟩ := exists_twiceRoot
  obtain ⟨honly, hnamed, hmisses, -, hexpanded, -⟩ := build_repeatedEdge twiceFiles twiceFinder root
  have hreached : ∀ c, Reached twiceFiles twiceFinder root c → c = root := by
    intro c hc
    induction hc with
    | root => rfl
    | ancestor _ hd ih =>
      subst ih
      cases hd with
      | superclass hd => simp [hsuper] at hd
      | interface hds hd =>
        obtain rfl := Except.ok.inj (hinterfaces.symm.trans hds)
        simpa using hd
  have hmissesOnly : MissesOnly twiceFiles twiceFinder root := by
    constructor
    case qualified =>
      intro c hc
      rw [hreached c hc, ← isQualifiedName_slashes]
      have hvalid : isQualifiedName "A".toList = true := by decide
      rwa [← hkey] at hvalid
    case superclass =>
      intro c hc e he
      rw [hreached c hc, hsuper] at he
      exact ⟨text, (Except.error.inj he).symm⟩
    case interfaces =>
      intro c hc e he
      rw [hreached c hc, hinterfaces] at he
      cases he
  have hrepeats : RepeatsInterface twiceFiles twiceFinder root.toClass "A" :=
    ⟨[root, root], hinterfaces, by simp only [List.map_cons, List.map_nil, hkey]; decide⟩
  obtain ⟨source, target, hbuild⟩ := (hmisses hmissesOnly).2
    (fun c d hc hd _ => (hreached c hc).trans (hreached d hd).symm) root .root "A" hrepeats
  obtain ⟨-, c, hlast, rfl, ds, hds, hduplicate⟩ := honly _ _ _ hbuild
  have hc : c ∈ expansions twiceFiles twiceFinder root := List.mem_of_mem_getLast? hlast
  obtain rfl := hreached c (hexpanded c hc)
  obtain rfl := Except.ok.inj (hinterfaces.symm.trans hds)
  have htarget : target = "A" := by simpa [hkey] using hduplicate.mem
  rw [hkey, htarget] at hbuild
  obtain ⟨h, hpair, -, -⟩ := build_pair
  have hperm := (build_repeatedEdge pairFiles pairFinder pairRoot).2.2.2.2.2 h hpair
  exact ⟨⟨c, hfind, hmissesOnly, hrepeats, hc, hbuild, (hnamed _ _ _ _).mpr ⟨c, hfind, hbuild⟩⟩, h,
    hpair, hperm⟩

end Hierarchy

end ClassAtlas
