import ClassAtlas.Proofs.Finder.Capacity
import ClassAtlas.Proofs.Hierarchy.Links

/-! The invariant of a growing hierarchy. A class has no edges while it waits, and exactly those to
its direct ancestors once it has been expanded; there is fuel for every class that can be found, so
in the end no class waits. -/

namespace ClassAtlas.Growth

/-- Classes found on the way up from the root. One of the root's own name is not counted, since the
root itself stands for it. -/
inductive Kin (fs : FileSystem) (f : Finder) (root : FoundClass) : FoundClass → Prop where
  | root : Kin fs f root root
  | ancestor {c d : FoundClass} {relation : Relation} {ls : List (Relation × FoundClass)}
    (hc : Kin fs f root c) (hls : Finder.links fs f c.toClass = .ok ls) (hd : (relation, d) ∈ ls)
    (hne : d.key ≠ root.key) : Kin fs f root d

structure Sound (fs : FileSystem) (f : Finder) (root : FoundClass) (g : Growth) : Prop where
  keyed : ∀ e ∈ g.graph.nodes.entries, e.1.key = e.2.key
  names_nodup : g.graph.nodes.names.Nodup
  root_mem : root ∈ g.graph.classes
  kin : ∀ c ∈ g.graph.classes, Kin fs f root c
  pending_mem : ∀ p ∈ g.pending, p.1.text = p.2.thisName ∧ p.2 ∈ g.graph.classes
  pending_nodup : (g.pending.map fun p => p.2.key).Nodup
  waiting : ∀ p ∈ g.pending, g.graph.edgesOut p.2.key = []
  expanded : ∀ c ∈ g.graph.classes, c.key ∉ g.pending.map (fun p => p.2.key) →
    ∃ ls, Finder.links fs f c.toClass = .ok ls ∧
      g.graph.edgesOut c.key = ls.map (Edge.toAncestor c.key)
  edges_nodup : g.graph.edges.Nodup
  sources : ∀ e ∈ g.graph.edges, e.source ∈ g.graph.nodes.names
  targets : ∀ e ∈ g.graph.edges, e.target ∈ g.graph.nodes.names

variable {fs : FileSystem} {f : Finder} {root c d : FoundClass} {name : QualifiedName}
  {ls : List (Relation × FoundClass)} {added pending : List (QualifiedName × FoundClass)}
  {g g' : Growth}

theorem normalized_eq_key (h : name.text = c.thisName) : name.normalized = c.key := by
  rw [QualifiedName.normalized_eq, h]
  rfl

theorem Sound.names_eq (h : Sound fs f root g) :
    g.graph.nodes.names = g.graph.classes.map fun c => c.key := by
  rw [NameMap.names, ClassGraph.classes, List.map_map]
  exact List.map_congr_left h.keyed

theorem Sound.key_mem (h : Sound fs f root g) (hc : c ∈ g.graph.classes) :
    c.key ∈ g.graph.nodes.names := by
  rw [h.names_eq]
  exact List.mem_map_of_mem hc

theorem Sound.rooted (h : Sound fs f root g) (hname : name.text = root.thisName) :
    g.graph.contains name = true := by
  have hkey : (NameLike.owned name).key = root.key := normalized_eq_key hname
  rw [ClassGraph.contains, NameMap.contains_iff, hkey]
  exact h.key_mem h.root_mem

theorem Sound.eq_of_key (h : Sound fs f root g) (hc : c ∈ g.graph.classes)
    (hd : d ∈ g.graph.classes) (hkey : c.key = d.key) : c = d :=
  List.inj_on_of_nodup_map (h.names_eq ▸ h.names_nodup) hc hd hkey

theorem sound_ofRoot (h : name.text = root.thisName) : Sound fs f root (ofRoot name root) where
  keyed e he := by
    obtain rfl := List.mem_singleton.mp he
    exact normalized_eq_key h
  names_nodup := List.nodup_singleton _
  root_mem := List.mem_singleton_self root
  kin c hc := List.mem_singleton.mp hc ▸ .root
  pending_mem p hp := by
    obtain rfl := List.mem_singleton.mp hp
    exact ⟨h, List.mem_singleton_self root⟩
  pending_nodup := List.nodup_singleton _
  waiting _ _ := rfl
  expanded c hc hp := by
    obtain rfl := List.mem_singleton.mp hc
    exact absurd (List.mem_singleton_self _) hp
  edges_nodup := .nil
  sources _ he := by cases he
  targets _ he := by cases he

theorem Grown.added_keys {source : String} (h : Grown source ls added g g') :
    (added.map fun p => p.1.normalized) = added.map fun p => p.2.key :=
  List.map_congr_left fun p hp => normalized_eq_key (h.named p hp)

theorem Grown.nodup_keys {source : String} (h : Grown source ls added g g')
    (hnodup : g.graph.nodes.names.Nodup) :
    (g.graph.nodes.names ++ added.map fun p => p.2.key).Nodup := by
  rw [← h.added_keys, ← h.names]
  exact h.names_nodup hnodup

theorem Grown.key_not_mem {source : String} (h : Grown source ls added g g')
    (hnodup : g.graph.nodes.names.Nodup) {p : QualifiedName × FoundClass} (hp : p ∈ added) :
    p.2.key ∉ g.graph.nodes.names := fun hmem =>
  List.disjoint_of_nodup_append (h.nodup_keys hnodup) hmem (List.mem_map_of_mem hp)

theorem edgesOut_eq_nil {graph : ClassGraph} {source : String}
    (h : ∀ e ∈ graph.edges, e.source ≠ source) : graph.edgesOut source = [] :=
  List.filter_eq_nil_iff.mpr fun e he => by simpa using h e he

theorem Sound.front (h : Sound fs f root g) (hp : g.pending = (name, c) :: pending) :
    name.text = c.thisName ∧ c ∈ g.graph.classes :=
  h.pending_mem (name, c) (by simp [hp])

/-- There are no edges yet out of the class that is expanded next. -/
theorem Sound.no_edge_of_front (h : Sound fs f root g) (hp : g.pending = (name, c) :: pending)
    (l : Relation × FoundClass) : Edge.toAncestor name.normalized l ∉ g.graph.edges := by
  intro hl
  have hout : g.graph.edgesOut c.key = [] := h.waiting (name, c) (by simp [hp])
  have hsource := List.filter_eq_nil_iff.mp hout _ hl
  simp [Edge.toAncestor, normalized_eq_key (h.front hp).1] at hsource

theorem Sound.step (h : Sound fs f root g) (hp : g.pending = (name, c) :: pending)
    (hls : Finder.links fs f c.toClass = .ok ls)
    (hgrown : Grown name.normalized ls added { g with pending } g') : Sound fs f root g' := by
  have hfront := h.front hp
  rw [normalized_eq_key hfront.1] at hgrown
  have hnew : ∀ p ∈ added, p.2.key ∉ g.graph.nodes.names := fun p hp =>
    hgrown.key_not_mem h.names_nodup hp
  have hnodup := h.pending_nodup
  rw [hp, List.map_cons, List.nodup_cons] at hnodup
  have hpending : ∀ p ∈ pending, p.2.key ≠ c.key := fun p hp he =>
    hnodup.1 (he ▸ List.mem_map_of_mem hp)
  have hold : ∀ p ∈ pending, p ∈ g.pending := fun p hmem => by simp [hp, hmem]
  constructor
  case keyed =>
    intro e he
    rw [hgrown.entries] at he
    rcases List.mem_append.mp he with he | he
    · exact h.keyed e he
    · obtain ⟨p, hp, rfl⟩ := List.mem_map.mp he
      exact normalized_eq_key (hgrown.named p hp)
  case names_nodup => exact hgrown.names_nodup h.names_nodup
  case root_mem => exact hgrown.mem_classes_iff.mpr (.inl h.root_mem)
  case kin =>
    intro d hd
    obtain hd | ⟨p, hp, rfl⟩ := hgrown.mem_classes_iff.mp hd
    · exact h.kin d hd
    · obtain ⟨relation, hl⟩ := hgrown.linked p hp
      exact .ancestor (h.kin c hfront.2) hls hl fun he => hnew p hp (he ▸ h.key_mem h.root_mem)
  case pending_mem =>
    intro p hp
    obtain hp | hp := hgrown.mem_pending_iff.mp hp
    · exact ⟨hgrown.named p hp, hgrown.mem_classes_iff.mpr (.inr ⟨p, hp, rfl⟩)⟩
    · have hwaits := h.pending_mem p (hold p hp)
      exact ⟨hwaits.1, hgrown.mem_classes_iff.mpr (.inl hwaits.2)⟩
  case pending_nodup =>
    rw [hgrown.pending, List.map_append, List.map_reverse]
    refine List.nodup_append.mpr ⟨List.nodup_reverse.mpr ?_, hnodup.2, ?_⟩
    · exact (List.nodup_append.mp (hgrown.nodup_keys h.names_nodup)).2.1
    · rintro key hkey _ hkey' rfl
      obtain ⟨p, hp, rfl⟩ := List.mem_map.mp (List.mem_reverse.mp hkey)
      obtain ⟨q, hq, he⟩ := List.mem_map.mp hkey'
      exact hnew p hp (he ▸ h.key_mem (h.pending_mem q (hold q hq)).2)
  case waiting =>
    intro p hp
    obtain hp | hp := hgrown.mem_pending_iff.mp hp
    -- An edge out of an added class would have needed a node of its name before.
    · have hne : p.2.key ≠ c.key := fun he => hnew p hp (he ▸ h.key_mem hfront.2)
      rw [hgrown.edgesOut_other hne]
      exact edgesOut_eq_nil fun e he hs => hnew p hp (hs ▸ h.sources e he)
    · rw [hgrown.edgesOut_other (hpending p hp)]
      exact h.waiting p (hold p hp)
  case expanded =>
    intro d hd hdone
    rw [hgrown.pending, List.map_append, List.mem_append, not_or, List.map_reverse,
      List.mem_reverse] at hdone
    obtain hd | ⟨p, hp, rfl⟩ := hgrown.mem_classes_iff.mp hd
    · by_cases he : d.key = c.key
      -- The class in front had no edges, so it has those of its expansion only.
      · obtain rfl := h.eq_of_key hd hfront.2 he
        refine ⟨ls, hls, ?_⟩
        rw [hgrown.edgesOut_self]
        show g.graph.edgesOut d.key ++ _ = _
        rw [h.waiting (name, d) (by simp [hp]), List.nil_append]
      · rw [hgrown.edgesOut_other he]
        refine h.expanded d hd ?_
        rw [hp, List.map_cons, List.mem_cons, not_or]
        exact ⟨he, hdone.2⟩
    · exact absurd (List.mem_map_of_mem hp) hdone.1
  case edges_nodup => exact hgrown.edges_nodup h.edges_nodup
  case sources =>
    intro e he
    obtain he | ⟨l, -, rfl⟩ := hgrown.mem_edges_iff.mp he
    · exact hgrown.mem_names (h.sources e he)
    · exact hgrown.mem_names (h.key_mem hfront.2)
  case targets =>
    intro e he
    obtain he | ⟨l, hl, rfl⟩ := hgrown.mem_edges_iff.mp he
    · exact hgrown.mem_names (h.targets e he)
    · exact hgrown.targets l hl

theorem steady_expand (name : QualifiedName) (c : FoundClass) (g : Growth) :
    Steady (Finder.alike fs) (expand fs name c g) :=
  (Finder.steady_optional (Finder.steady_findSuper c.toClass)).bind fun _ =>
    (Steady.liftExcept _ _).bind fun _ =>
      (Finder.steady_findInterfaces c.toClass).bind fun _ => .liftExcept _ _

theorem steady_run (fuel : Nat) (g : Growth) : Steady (Finder.alike fs) (run fs fuel g) := by
  induction fuel generalizing g with
  | zero => exact .pure _ _
  | succ fuel ih =>
    rw [run]
    rcases g.pending with _ | ⟨⟨name, c⟩, pending⟩
    · exact .pure _ _
    · exact (steady_expand name c _).bind ih

theorem Sound.run {fuel : Nat} {graph : ClassGraph} (h : Sound fs f root g)
    (hrun : answer (run fs fuel g) f = .ok graph) :
    ∃ g', Sound fs f root g' ∧ g'.graph = graph ∧ (g'.pending = [] ∨
      g'.graph.nodes.size + g.pending.length =
        g.graph.nodes.size + g'.pending.length + fuel) := by
  induction fuel generalizing g with
  | zero =>
    obtain rfl := Except.ok.inj hrun
    exact ⟨g, h, rfl, .inr rfl⟩
  | succ fuel ih =>
    rw [Growth.run] at hrun
    rcases hp : g.pending with _ | ⟨⟨name, c⟩, pending⟩
    · rw [hp] at hrun
      obtain rfl := Except.ok.inj hrun
      exact ⟨g, h, rfl, .inl hp⟩
    · rw [hp] at hrun
      obtain ⟨g₁, hexpand, hrun⟩ := answer_bind_eq_ok_iff.mp hrun
      -- What the expansion left in the finder does not change the answers of later rounds.
      rw [(steady_run fuel g₁).answer_eq ((steady_expand name c _).after_alike f)] at hrun
      obtain ⟨ls, added, hls, hgrown⟩ := exists_grown_of_expand hexpand
      obtain ⟨g', hg', rfl, hend⟩ := ih (h.step hp hls hgrown) hrun
      refine ⟨g', hg', rfl, hend.imp_right fun hend => ?_⟩
      have hsize : g₁.graph.nodes.size = g.graph.nodes.size + added.length := by
        simp [NameMap.size, hgrown.entries]
      have hlength : g₁.pending.length = added.length + pending.length := by
        simp [hgrown.pending]
      rw [List.length_cons]
      omega

theorem Kin.eq_or_find (h : Kin fs f root c) :
    c = root ∨ c.key ≠ root.key ∧ ∃ name, answer (Finder.find fs (.plain name)) f = .ok c := by
  cases h with
  | root => exact .inl rfl
  | ancestor _ hls hd hne => exact .inr ⟨hne, Finder.find_of_mem_links hls hd⟩

/-- No hierarchy outgrows the capacity of the finder. -/
theorem Sound.size_le_capacity (h : Sound fs f root g) :
    g.graph.nodes.size ≤ f.capacity fs + 1 := by
  have hsub : g.graph.nodes.names ⊆ root.key :: (Finder.available fs f).map Class.key := by
    intro key hkey
    rw [h.names_eq] at hkey
    obtain ⟨c, hc, rfl⟩ := List.mem_map.mp hkey
    rcases (h.kin c hc).eq_or_find with rfl | ⟨-, name, hfind⟩
    · exact List.mem_cons_self
    · exact List.mem_cons_of_mem _ (List.mem_map_of_mem (Finder.mem_available_of_find hfind))
  have hle := (h.names_nodup.subperm hsub).length_le
  rw [List.length_cons, List.length_map, NameMap.names, List.length_map] at hle
  exact hle.trans (Nat.succ_le_succ (Finder.length_available_le fs f))

/-- The root is a node at the start, and waits. -/
theorem fuel_ofRoot (name : QualifiedName) (root : FoundClass) {n fuel : Nat} (h : n ≤ fuel) :
    n + (ofRoot name root).pending.length ≤ (ofRoot name root).graph.nodes.size + fuel := by
  have hsize : (ofRoot name root).graph.nodes.size = 1 := rfl
  have hlength : (ofRoot name root).pending.length = 1 := rfl
  omega

theorem Sound.of_run {graph : ClassGraph} (hname : name.text = root.thisName)
    (hrun : answer (Growth.run fs (f.capacity fs + 1) (ofRoot name root)) f = .ok graph) :
    Sound fs f root ⟨graph, []⟩ := by
  obtain ⟨g, hg, rfl, hend⟩ := (sound_ofRoot hname).run hrun
  -- Used up fuel would mean more nodes than there are classes.
  have hpending : g.pending = [] := by
    refine hend.elim id fun hend => ?_
    have hsize : (ofRoot name root).graph.nodes.size = 1 := rfl
    have hlength : (ofRoot name root).pending.length = 1 := rfl
    have hle := hg.size_le_capacity
    rw [← List.length_eq_zero_iff]
    omega
  rw [← hpending]
  exact hg

theorem Sound.of_build {h : Hierarchy} (hbuild : answer (Hierarchy.build fs root) f = .ok h) :
    h.root.text = root.thisName ∧ Sound fs f root ⟨h.graph, []⟩ := by
  rw [Hierarchy.build] at hbuild
  rcases hq : root.qualifiedName with e | name
  · simp [hq] at hbuild
  · rw [hq] at hbuild
    have hname : name.text = root.thisName := QualifiedName.ofText_eq_ok_iff.mp hq
    change answer (get >>= _) f = _ at hbuild
    rw [answer_get_bind] at hbuild
    obtain ⟨graph, hrun, hbuild⟩ := answer_bind_eq_ok_iff.mp hbuild
    obtain ⟨_, -, hbuild⟩ := answer_bind_eq_ok_iff.mp hbuild
    rw [Finder.answer_timed (steady_run _ _)] at hrun
    rw [answer_liftExcept, Hierarchy.ofGraph] at hbuild
    split_ifs at hbuild
    obtain rfl := Except.ok.inj hbuild
    exact ⟨hname, .of_run hname hrun⟩

variable {graph : ClassGraph} {key : String}

theorem Sound.get?_iff {g : Growth} (h : Sound fs f root g) :
    g.graph.nodes.get? (.plain key) = some c ↔ c ∈ g.graph.classes ∧ c.key = key := by
  rw [NameMap.get?_eq_some_iff h.names_nodup]
  constructor
  · rintro ⟨e, he, hkey, rfl⟩
    exact ⟨List.mem_map_of_mem he, (h.keyed e he).symm.trans hkey⟩
  · rintro ⟨hc, hkey⟩
    obtain ⟨e, he, rfl⟩ := List.mem_map.mp hc
    exact ⟨e, he, (h.keyed e he).trans hkey, rfl⟩

theorem Sound.links_of_mem (h : Sound fs f root ⟨graph, []⟩) (hc : c ∈ graph.classes) :
    ∃ ls, Finder.links fs f c.toClass = .ok ls ∧
      graph.edgesOut c.key = ls.map (Edge.toAncestor c.key) :=
  h.expanded c hc (by simp)

theorem Sound.edge_of_link (h : Sound fs f root ⟨graph, []⟩) (hc : c ∈ graph.classes)
    (hls : Finder.links fs f c.toClass = .ok ls) {l : Relation × FoundClass} (hl : l ∈ ls) :
    Edge.toAncestor c.key l ∈ graph.edges := by
  obtain ⟨ls', hls', hedges⟩ := h.links_of_mem hc
  obtain rfl := Except.ok.inj (hls'.symm.trans hls)
  have hout : Edge.toAncestor c.key l ∈ graph.edgesOut c.key := by
    rw [hedges]
    exact List.mem_map_of_mem hl
  exact List.mem_of_mem_filter hout

theorem Sound.class_of_name (h : Sound fs f root ⟨graph, []⟩) (hkey : key ∈ graph.nodes.names) :
    ∃ c ∈ graph.classes, c.key = key := by
  rw [h.names_eq] at hkey
  exact List.mem_map.mp hkey

end ClassAtlas.Growth
