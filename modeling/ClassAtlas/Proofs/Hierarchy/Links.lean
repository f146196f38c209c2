import ClassAtlas.Hierarchy.Build
import ClassAtlas.Proofs.Finder.FindSteady

/-! One expansion of a growing hierarchy: what the direct ancestors of a class add to it. -/

namespace ClassAtlas

/-- The direct ancestors of a class that are found: its superclass, then its interfaces in declared
order. -/
def Finder.links (fs : FileSystem) (f : Finder) (c : Class) :
    Except Error (List (Relation × FoundClass)) := do
  let parent ← answer (optional (findSuper fs c)) f
  let interfaces ← answer (findInterfaces fs c) f
  return parent.toList.map (Prod.mk .superclass) ++ interfaces.map (Prod.mk .interface)

namespace Finder

variable {fs : FileSystem} {f : Finder} {c : Class} {d : FoundClass}
  {ls : List (Relation × FoundClass)}

theorem exists_of_links (h : links fs f c = .ok ls) :
    ∃ parent interfaces, answer (optional (findSuper fs c)) f = .ok parent ∧
      answer (findInterfaces fs c) f = .ok interfaces ∧
      ls = parent.toList.map (Prod.mk .superclass) ++ interfaces.map (Prod.mk .interface) := by
  obtain ⟨parent, hparent, h⟩ := bind_eq_ok_iff.mp h
  obtain ⟨interfaces, hinterfaces, h⟩ := bind_eq_ok_iff.mp h
  exact ⟨parent, interfaces, hparent, hinterfaces, (Except.ok.inj h).symm⟩

theorem superclass_mem_links_iff (h : links fs f c = .ok ls) :
    (.superclass, d) ∈ ls ↔ answer (findSuper fs c) f = .ok d := by
  obtain ⟨parent, interfaces, hparent, -, rfl⟩ := exists_of_links h
  rw [← answer_optional_eq_some_iff, hparent]
  simp

theorem interface_mem_links_iff (h : links fs f c = .ok ls) :
    (.interface, d) ∈ ls ↔ ∃ ds, answer (findInterfaces fs c) f = .ok ds ∧ d ∈ ds := by
  obtain ⟨parent, interfaces, -, hinterfaces, rfl⟩ := exists_of_links h
  simp [hinterfaces]

theorem find_of_findSuper (h : answer (findSuper fs c) f = .ok d) :
    ∃ name, answer (find fs (.plain name)) f = .ok d := by
  unfold findSuper at h
  cases hname : c.superName with
  | some name => exact ⟨name, by rwa [hname] at h⟩
  | none => simp [hname] at h

theorem find_of_mem_findInterfaces {ds : List FoundClass}
    (h : answer (findInterfaces fs c) f = .ok ds) (hd : d ∈ ds) :
    ∃ name, answer (find fs (.plain name)) f = .ok d := by
  unfold findInterfaces at h
  rcases hnames : c.interfaces with e | names
  · simp [hnames] at h
  · rw [hnames] at h
    obtain ⟨name, -, hfind⟩ := find_of_mem_findPresent h hd
    exact ⟨name, hfind⟩

theorem find_of_mem_links (h : links fs f c = .ok ls) {l : Relation × FoundClass} (hl : l ∈ ls) :
    ∃ name, answer (find fs (.plain name)) f = .ok l.2 := by
  obtain ⟨relation, d⟩ := l
  cases relation with
  | superclass => exact find_of_findSuper ((superclass_mem_links_iff h).mp hl)
  | interface =>
    obtain ⟨ds, hds, hd⟩ := (interface_mem_links_iff h).mp hl
    exact find_of_mem_findInterfaces hds hd

end Finder

def Edge.toAncestor (source : String) (l : Relation × FoundClass) : Edge :=
  ⟨source, l.2.key, l.1⟩

def ClassGraph.classes (g : ClassGraph) : List FoundClass :=
  g.nodes.entries.map Prod.snd

/-- The edges out of a class in the order they were added. -/
def ClassGraph.edgesOut (g : ClassGraph) (source : String) : List Edge :=
  g.edges.filter fun e => e.source = source

namespace Growth

variable {fs : FileSystem} {f : Finder} {name : QualifiedName} {c a : FoundClass}
  {l : Relation × FoundClass} {ls : List (Relation × FoundClass)} {g g' : Growth}

/-- What a growth becomes by edges from one class to some ancestors: the ancestors without a node
get one, and wait for their own expansion in front of the others. -/
structure Grown (source : String) (ls : List (Relation × FoundClass))
    (added : List (QualifiedName × FoundClass)) (g g' : Growth) : Prop where
  entries : g'.graph.nodes.entries =
    g.graph.nodes.entries ++ added.map fun p => (NameLike.owned p.1, p.2)
  pending : g'.pending = added.reverse ++ g.pending
  edges : g'.graph.edges = g.graph.edges ++ ls.map (Edge.toAncestor source)
  edges_nodup : g.graph.edges.Nodup → g'.graph.edges.Nodup
  names_nodup : g.graph.nodes.names.Nodup → g'.graph.nodes.names.Nodup
  named : ∀ p ∈ added, p.1.text = p.2.thisName
  linked : ∀ p ∈ added, ∃ relation, (relation, p.2) ∈ ls
  targets : ∀ l ∈ ls, l.2.key ∈ g'.graph.nodes.names

theorem grown_nil (source : String) (g : Growth) : Grown source [] [] g g where
  entries := by simp
  pending := rfl
  edges := by simp
  edges_nodup := id
  names_nodup := id
  named := by simp
  linked := by simp
  targets := by simp

theorem names_append_entries {entries : List (NameLike × FoundClass)}
    {added : List (QualifiedName × FoundClass)} {nodes : NameMap FoundClass}
    (h : nodes.entries = entries ++ added.map fun p => (NameLike.owned p.1, p.2)) :
    nodes.names = entries.map (fun e => e.1.key) ++ added.map fun p => p.1.normalized := by
  simp only [NameMap.names, h, List.map_append, List.map_map]
  rfl

theorem Grown.names {source : String} {added : List (QualifiedName × FoundClass)}
    (h : Grown source ls added g g') :
    g'.graph.nodes.names = g.graph.nodes.names ++ added.map fun p => p.1.normalized :=
  names_append_entries h.entries

theorem Grown.classes {source : String} {added : List (QualifiedName × FoundClass)}
    (h : Grown source ls added g g') :
      g'.graph.classes = g.graph.classes ++ added.map Prod.snd := by
  simp only [ClassGraph.classes, h.entries, List.map_append, List.map_map]
  rfl

theorem Grown.mem_names {source key : String} {added : List (QualifiedName × FoundClass)}
    (h : Grown source ls added g g') (hkey : key ∈ g.graph.nodes.names) :
    key ∈ g'.graph.nodes.names := by
  rw [h.names]
  exact List.mem_append_left _ hkey

theorem Grown.mem_classes_iff {source : String} {added : List (QualifiedName × FoundClass)}
    {d : FoundClass} (h : Grown source ls added g g') :
    d ∈ g'.graph.classes ↔ d ∈ g.graph.classes ∨ ∃ p ∈ added, p.2 = d := by
  rw [h.classes, List.mem_append, List.mem_map]

theorem Grown.mem_pending_iff {source : String} {added : List (QualifiedName × FoundClass)}
    {p : QualifiedName × FoundClass} (h : Grown source ls added g g') :
    p ∈ g'.pending ↔ p ∈ added ∨ p ∈ g.pending := by
  rw [h.pending, List.mem_append, List.mem_reverse]

theorem Grown.mem_edges_iff {source : String} {added : List (QualifiedName × FoundClass)}
    {e : Edge} (h : Grown source ls added g g') :
    e ∈ g'.graph.edges ↔ e ∈ g.graph.edges ∨ ∃ l ∈ ls, Edge.toAncestor source l = e := by
  rw [h.edges, List.mem_append, List.mem_map]

theorem Grown.edgesOut_self {source : String} {added : List (QualifiedName × FoundClass)}
    (h : Grown source ls added g g') :
    g'.graph.edgesOut source = g.graph.edgesOut source ++ ls.map (Edge.toAncestor source) := by
  have hown : (ls.map (Edge.toAncestor source)).filter (fun e => e.source = source) =
      ls.map (Edge.toAncestor source) := by
    simp [List.filter_map, Function.comp_def, Edge.toAncestor]
  rw [ClassGraph.edgesOut, h.edges, List.filter_append, hown]
  rfl

theorem Grown.edgesOut_other {source other : String} {added : List (QualifiedName × FoundClass)}
    (h : Grown source ls added g g') (hne : other ≠ source) :
    g'.graph.edgesOut other = g.graph.edgesOut other := by
  have hnone : (ls.map (Edge.toAncestor source)).filter (fun e => e.source = other) = [] := by
    simp [List.filter_map, Function.comp_def, Edge.toAncestor, hne.symm]
  rw [ClassGraph.edgesOut, h.edges, List.filter_append, hnone, List.append_nil]
  rfl

theorem Grown.trans {source : String} {ls ls' : List (Relation × FoundClass)}
    {added added' : List (QualifiedName × FoundClass)} {g'' : Growth}
    (h : Grown source ls added g g') (h' : Grown source ls' added' g' g'') :
    Grown source (ls ++ ls') (added ++ added') g g'' where
  entries := by simp [h'.entries, h.entries]
  pending := by simp [h'.pending, h.pending]
  edges := by simp [h'.edges, h.edges]
  edges_nodup := h'.edges_nodup ∘ h.edges_nodup
  names_nodup := h'.names_nodup ∘ h.names_nodup
  named p hp := (List.mem_append.mp hp).elim (h.named p) (h'.named p)
  linked p hp := by
    rcases List.mem_append.mp hp with hp | hp
    · obtain ⟨relation, hl⟩ := h.linked p hp
      exact ⟨relation, List.mem_append_left _ hl⟩
    · obtain ⟨relation, hl⟩ := h'.linked p hp
      exact ⟨relation, List.mem_append_right _ hl⟩
  targets l hl := by
    rcases List.mem_append.mp hl with hl | hl
    · exact h'.mem_names (h.targets l hl)
    · exact h'.targets l hl

theorem grown_edge {source : String} {e : Edge} (he : e = Edge.toAncestor source l)
    (hnew : e ∉ g.graph.edges) (nodes : NameMap FoundClass)
    (added : List (QualifiedName × FoundClass))
    (hentries : nodes.entries =
      g.graph.nodes.entries ++ added.map fun p => (NameLike.owned p.1, p.2))
    (hnodup : g.graph.nodes.names.Nodup → nodes.names.Nodup)
    (hadded : ∀ p ∈ added, p.1.text = p.2.thisName ∧ p.2 = l.2) (htarget : l.2.key ∈ nodes.names) :
    Grown source [l] added g ⟨⟨nodes, g.graph.edges ++ [e]⟩, added.reverse ++ g.pending⟩ where
  entries := hentries
  pending := rfl
  edges := by simp [he]
  edges_nodup h := by
    refine List.nodup_append.mpr ⟨h, List.nodup_singleton e, ?_⟩
    rintro e' he' _ hmem rfl
    exact hnew (List.mem_singleton.mp hmem ▸ he')
  names_nodup := hnodup
  named p hp := (hadded p hp).1
  linked p hp := ⟨l.1, by simp [(hadded p hp).2]⟩
  targets l' hl' := List.mem_singleton.mp hl' ▸ htarget

theorem exists_grown_of_link (h : link name l.1 g l.2 = .ok g') :
    ∃ added, Grown name.normalized [l] added g g' := by
  rw [link] at h
  rcases hq : l.2.qualifiedName with e | target
  · simp [hq] at h
  rw [hq] at h
  have htext : target.text = l.2.thisName := QualifiedName.ofText_eq_ok_iff.mp hq
  have hkey : target.normalized = l.2.key := by
    rw [QualifiedName.normalized_eq, htext]
    rfl
  obtain ⟨graph, hadd, h⟩ := bind_eq_ok_iff.mp h
  obtain rfl := Except.ok.inj h
  rw [ClassGraph.addEdge] at hadd
  split_ifs at hadd with hnew
  obtain rfl := Except.ok.inj hadd
  by_cases hc : g.graph.contains target = true
  · have hmem : target.normalized ∈ g.graph.nodes.names := NameMap.contains_iff.mp hc
    rw [add, if_pos hc] at hnew ⊢
    exact ⟨[], grown_edge (by rw [hkey]; rfl) hnew _ [] (by simp) id (by simp) (hkey ▸ hmem)⟩
  · have hmem : target.normalized ∉ g.graph.nodes.names := fun h => hc (NameMap.contains_iff.mpr h)
    rw [add, if_neg hc] at hnew ⊢
    have hentries : (g.graph.nodes.put (.owned target) l.2).entries =
        g.graph.nodes.entries ++ [(target, l.2)].map fun p => (NameLike.owned p.1, p.2) :=
      NameMap.put_of_not_contains (Bool.eq_false_iff.mpr hc)
    have hnames : (g.graph.nodes.put (.owned target) l.2).names =
        g.graph.nodes.names ++ [target.normalized] := names_append_entries hentries
    refine ⟨[(target, l.2)], grown_edge (g := g) (by rw [hkey]; rfl) hnew
      (g.graph.nodes.put (.owned target) l.2) [(target, l.2)] hentries (fun hnodup => ?_)
      (by simpa using htext) (by simp [hnames, hkey])⟩
    rw [hnames]
    refine List.nodup_append.mpr ⟨hnodup, List.nodup_singleton _, ?_⟩
    rintro key hkey' _ hsingle rfl
    exact hmem (List.mem_singleton.mp hsingle ▸ hkey')

theorem exists_grown (h : ls.foldlM (fun g l => link name l.1 g l.2) g = .ok g') :
    ∃ added, Grown name.normalized ls added g g' := by
  induction ls generalizing g with
  | nil =>
    obtain rfl := Except.ok.inj h
    exact ⟨[], grown_nil _ g⟩
  | cons l ls ih =>
    rw [List.foldlM_cons] at h
    obtain ⟨g₁, hlink, hrest⟩ := bind_eq_ok_iff.mp h
    obtain ⟨added, hg⟩ := exists_grown_of_link hlink
    obtain ⟨added', hg'⟩ := ih hrest
    exact ⟨added ++ added', hg.trans hg'⟩

theorem foldlM_map_mk (relation : Relation) (ancestors : List FoundClass) (g : Growth) :
    (ancestors.map (Prod.mk relation)).foldlM (fun g l => link name l.1 g l.2) g =
      ancestors.foldlM (link name relation) g := by
  rw [List.foldlM_map]

/-- All ancestors are looked up as they were found at the start. -/
theorem answer_expand (name : QualifiedName) (c : FoundClass) (g : Growth) (f : Finder) :
    answer (expand fs name c g) f =
      answer (Finder.optional (Finder.findSuper fs c.toClass)) f >>= fun parent =>
        parent.toList.foldlM (link name .superclass) g >>= fun g =>
          answer (Finder.findInterfaces fs c.toClass) f >>= fun interfaces =>
            interfaces.foldlM (link name .interface) g := by
  have hlast (g : Growth) : Steady (Finder.alike fs) (Finder.findInterfaces fs c.toClass >>=
      fun interfaces => liftExcept (interfaces.foldlM (link name .interface) g)) :=
    (Finder.steady_findInterfaces c.toClass).bind fun _ => .liftExcept _ _
  have hrest (parent : Option FoundClass) : Steady (Finder.alike fs)
      (liftExcept (parent.toList.foldlM (link name .superclass) g) >>= fun g =>
        Finder.findInterfaces fs c.toClass >>= fun interfaces =>
          liftExcept (interfaces.foldlM (link name .interface) g)) :=
    (Steady.liftExcept _ _).bind hlast
  rw [expand, (Finder.steady_optional (Finder.steady_findSuper c.toClass)).answer_bind hrest]
  congr 1
  funext parent
  rw [(Steady.liftExcept _ _).answer_bind hlast, answer_liftExcept]
  congr 1
  funext g
  rw [(Finder.steady_findInterfaces c.toClass).answer_bind fun _ => .liftExcept _ _]
  congr 1
  funext interfaces
  rw [answer_liftExcept]

theorem exists_grown_of_expand (h : answer (expand fs name c g) f = .ok g') :
    ∃ ls added, Finder.links fs f c.toClass = .ok ls ∧ Grown name.normalized ls added g g' := by
  rw [answer_expand] at h
  obtain ⟨parent, hparent, h⟩ := bind_eq_ok_iff.mp h
  obtain ⟨g₁, hg₁, h⟩ := bind_eq_ok_iff.mp h
  obtain ⟨interfaces, hinterfaces, h⟩ := bind_eq_ok_iff.mp h
  rw [← foldlM_map_mk] at hg₁ h
  obtain ⟨added, hgrown⟩ := exists_grown hg₁
  obtain ⟨added', hgrown'⟩ := exists_grown h
  exact ⟨_, _, by rw [Finder.links, hparent, hinterfaces]; rfl, hgrown.trans hgrown'⟩

end Growth

end ClassAtlas
