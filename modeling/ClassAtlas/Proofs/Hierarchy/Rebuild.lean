import ClassAtlas.Proofs.Hierarchy.Agreement
import ClassAtlas.Proofs.History.Calls

/-! Hierarchies built anew from a class of another one. Nothing is met there but what was met
before, so the build goes through as well and lists the same ancestors for the class. -/

namespace ClassAtlas

namespace Growth

open Finder

variable {fs : FileSystem} {f : Finder} {root c : FoundClass} {name : QualifiedName}
  {relation : Relation} {ls : List (Relation × FoundClass)} {g : Growth} {graph : ClassGraph}
  {pending : List (QualifiedName × FoundClass)}

theorem answer_expand_of_links (h : links fs f c.toClass = .ok ls) :
    answer (expand fs name c g) f = ls.foldlM (fun g l => link name l.1 g l.2) g := by
  obtain ⟨parent, interfaces, hparent, hinterfaces, rfl⟩ := exists_of_links h
  rw [answer_expand, hparent, hinterfaces, List.foldlM_append]
  simp only [foldlM_map_mk]
  rfl

theorem edges_add (g : Growth) (name : QualifiedName) (c : FoundClass) :
    (g.add name c).graph.edges = g.graph.edges := by
  rw [add]
  split_ifs
  · rfl
  · rfl

theorem exists_link (hvalid : isQualifiedName c.thisName.toList = true)
    (hnew : Edge.toAncestor name.normalized (relation, c) ∉ g.graph.edges) :
    ∃ g', link name relation g c = .ok g' := by
  have hname : c.qualifiedName = .ok ⟨c.thisName, hvalid⟩ := QualifiedName.ofText_eq_ok_iff.mpr rfl
  have hedge : (⟨name.normalized, QualifiedName.normalized ⟨c.thisName, hvalid⟩, relation⟩ : Edge) ∉
      (g.add ⟨c.thisName, hvalid⟩ c).graph.edges := by
    rw [edges_add]
    exact hnew
  rw [link, hname]
  dsimp only
  rw [ClassGraph.addEdge, if_neg hedge]
  exact ⟨_, rfl⟩

theorem exists_foldlM_link (hvalid : ∀ l ∈ ls, isQualifiedName l.2.thisName.toList = true)
    (hnew : (g.graph.edges ++ ls.map (Edge.toAncestor name.normalized)).Nodup) :
    ∃ g', ls.foldlM (fun g l => link name l.1 g l.2) g = .ok g' := by
  induction ls generalizing g with
  | nil => exact ⟨g, rfl⟩
  | cons l ls ih =>
    have hfirst : Edge.toAncestor name.normalized l ∉ g.graph.edges := fun hmem =>
      List.disjoint_of_nodup_append hnew hmem (by simp)
    obtain ⟨g₁, hlink⟩ := exists_link (hvalid l List.mem_cons_self) hfirst
    obtain ⟨added, hgrown⟩ := exists_grown_of_link hlink
    have hrest : (g₁.graph.edges ++ ls.map (Edge.toAncestor name.normalized)).Nodup := by
      rwa [hgrown.edges, List.append_assoc]
    obtain ⟨g', hg'⟩ := ih (fun l hl => hvalid l (List.mem_cons_of_mem _ hl)) hrest
    exact ⟨g', by rw [List.foldlM_cons, hlink]; exact hg'⟩

/-- Classes whose direct ancestors can all be linked and are such classes again. -/
def Closed (fs : FileSystem) (f : Finder) (classes : FoundClass → Prop) : Prop :=
  ∀ c, classes c → ∃ ls, links fs f c.toClass = .ok ls ∧
    (ls.map (Edge.toAncestor c.key)).Nodup ∧
    ∀ l ∈ ls, isQualifiedName l.2.thisName.toList = true ∧ classes l.2

variable {classes : FoundClass → Prop}

theorem Sound.exists_expand (h : Sound fs f root g) (hp : g.pending = (name, c) :: pending)
    (hclosed : Closed fs f classes) (hc : classes c) :
    ∃ ls added g', answer (expand fs name c { g with pending }) f = .ok g' ∧
      links fs f c.toClass = .ok ls ∧ Grown name.normalized ls added { g with pending } g' ∧
      ∀ l ∈ ls, classes l.2 := by
  obtain ⟨ls, hls, hnodup, htargets⟩ := hclosed c hc
  have hwaits : name.normalized = c.key := normalized_eq_key (h.front hp).1
  have hnew : (g.graph.edges ++ ls.map (Edge.toAncestor name.normalized)).Nodup := by
    refine List.nodup_append.mpr ⟨h.edges_nodup, hwaits ▸ hnodup, ?_⟩
    rintro e he _ hl rfl
    obtain ⟨l, -, rfl⟩ := List.mem_map.mp hl
    exact h.no_edge_of_front hp l he
  obtain ⟨g', hg'⟩ := exists_foldlM_link (g := { g with pending })
    (fun l hl => (htargets l hl).1) hnew
  obtain ⟨added, hgrown⟩ := exists_grown hg'
  exact ⟨ls, added, g', (answer_expand_of_links hls).trans hg', hls, hgrown,
    fun l hl => (htargets l hl).2⟩

theorem Sound.exists_run (h : Sound fs f root g) (hclosed : Closed fs f classes)
    (hg : ∀ c ∈ g.graph.classes, classes c) (fuel : Nat) :
    ∃ graph, answer (Growth.run fs fuel g) f = .ok graph ∧ ∀ c ∈ graph.classes, classes c := by
  induction fuel generalizing g with
  | zero => exact ⟨g.graph, rfl, hg⟩
  | succ fuel ih =>
    rcases hp : g.pending with _ | ⟨⟨name, c⟩, pending⟩
    · exact ⟨g.graph, by rw [run_of_no_pending hp]; rfl, hg⟩
    · have hc : classes c := hg c (h.front hp).2
      obtain ⟨ls, added, g₁, hexpand, hls, hgrown, htargets⟩ := h.exists_expand hp hclosed hc
      have hg₁ : ∀ d ∈ g₁.graph.classes, classes d := by
        intro d hd
        obtain hd | ⟨p, hp, rfl⟩ := hgrown.mem_classes_iff.mp hd
        · exact hg d hd
        · obtain ⟨relation, hl⟩ := hgrown.linked p hp
          exact htargets _ hl
      rw [run_of_pending hp, hexpand]
      exact ih (h.step hp hls hgrown) hg₁

theorem Sound.find_of_mem (hdeclared : FindsDeclared fs f) (h : Sound fs f root ⟨graph, []⟩)
    (hroot : answer (find fs (.plain root.key)) f = .ok root) (hc : c ∈ graph.classes) :
    answer (find fs (.plain c.key)) f = .ok c := by
  have hnamed := classNamed_of_kin hdeclared (h.kin c hc)
  rw [classNamed] at hnamed
  split_ifs at hnamed with hkey
  · obtain rfl := Except.ok.inj hnamed
    exact hroot
  · exact hnamed

theorem qualified_of_find (h : answer (find fs (.plain c.key)) f = .ok c) :
    isQualifiedName c.thisName.toList = true := by
  rw [answer_find] at h
  split_ifs at h with hvalid
  rwa [NameLike.text, Class.key, isQualifiedName_slashes] at hvalid

theorem Sound.mem_classes (hdeclared : FindsDeclared fs f) (h : Sound fs f root ⟨graph, []⟩)
    (hroot : answer (find fs (.plain root.key)) f = .ok root)
    (hc : answer (find fs (.plain c.key)) f = .ok c) (hkey : c.key ∈ graph.nodes.names) :
    c ∈ graph.classes := by
  obtain ⟨d, hd, hdkey⟩ := h.class_of_name hkey
  have hfind := h.find_of_mem hdeclared hroot hd
  rw [hdkey, hc] at hfind
  exact (Except.ok.inj hfind) ▸ hd

theorem Sound.closed (hdeclared : FindsDeclared fs f) (h : Sound fs f root ⟨graph, []⟩)
    (hroot : answer (find fs (.plain root.key)) f = .ok root) :
    Closed fs f (· ∈ graph.classes) := by
  intro c hc
  obtain ⟨ls, hls, hedges⟩ := h.links_of_mem hc
  have hnodup : (ls.map (Edge.toAncestor c.key)).Nodup := hedges ▸ h.edges_nodup.filter _
  refine ⟨ls, hls, hnodup, fun l hl => ?_⟩
  obtain ⟨name, hname⟩ := find_of_mem_links hls hl
  have hfind : answer (find fs (.plain l.2.key)) f = .ok l.2 := hdeclared.find_key hname
  have hkey : l.2.key ∈ graph.nodes.names := h.targets _ (h.edge_of_link hc hls hl)
  exact ⟨qualified_of_find hfind, h.mem_classes hdeclared hroot hfind hkey⟩

end Growth

namespace Hierarchy

open Finder

variable {fs : FileSystem} {f : Finder} {root : FoundClass} {h : Hierarchy} {name : NameLike}
  {classes : FoundClass → Prop}

theorem contains_iff : h.contains name = true ↔
    isQualifiedName name.text.toList = true ∧ slashes name.text ∈ h.graph.nodes.names := by
  rw [contains]
  obtain ⟨span, hspan, htext⟩ | ⟨⟨e, he⟩, hvalid⟩ := name.toSpan_owned
  · have hkey : span.toOwned.normalized = slashes name.text := by
      rw [QualifiedName.normalized_eq, htext]
    have hvalid : isQualifiedName name.text.toList = true := htext ▸ span.toOwned.valid
    rw [hspan, ← hkey]
    exact NameMap.contains_iff.trans (and_iff_right hvalid).symm
  · simp [he, hvalid]

theorem exists_build (hclosed : Growth.Closed fs f classes) (hroot : classes root)
    (hvalid : isQualifiedName root.thisName.toList = true) :
    ∃ h, answer (build fs root) f = .ok h ∧ ∀ c ∈ h.graph.classes, classes c := by
  let name : QualifiedName := ⟨root.thisName, hvalid⟩
  have hname : root.qualifiedName = .ok name := QualifiedName.ofText_eq_ok_iff.mpr rfl
  have hstart : Growth.Sound fs f root (.ofRoot name root) := Growth.sound_ofRoot rfl
  obtain ⟨graph, hrun, hgraph⟩ := hstart.exists_run hclosed
    (fun c hc => List.mem_singleton.mp hc ▸ hroot) (f.capacity fs + 1)
  have hsound : Growth.Sound fs f root ⟨graph, []⟩ := .of_run rfl hrun
  have hrooted : graph.contains name = true := hsound.rooted rfl
  refine ⟨⟨graph, name, hrooted⟩, ?_, hgraph⟩
  rw [answer_build hname, hrun]
  exact dif_pos hrooted

end Hierarchy

namespace Finder

variable {fs : FileSystem} {f : Finder} {root node : NameLike} {h : Hierarchy}

theorem build_of_buildNamed (hbuild : answer (buildNamed fs root) f = .ok h) :
    ∃ c, answer (find fs root) f = .ok c ∧ answer (Hierarchy.build fs c) f = .ok h := by
  obtain ⟨c, hc, hbuild⟩ := answer_bind_eq_ok_iff.mp hbuild
  rw [(Hierarchy.steady_build c).answer_eq ((steady_find root).after_alike f)] at hbuild
  exact ⟨c, hc, hbuild⟩

theorem buildNamed_of_build {c : FoundClass} (hc : answer (find fs root) f = .ok c)
    (hbuild : answer (Hierarchy.build fs c) f = .ok h) : answer (buildNamed fs root) f = .ok h := by
  rw [buildNamed, (steady_find root).answer_bind Hierarchy.steady_build, hc]
  exact hbuild

theorem exists_buildNamed (hdeclared : FindsDeclared fs f)
    (hbuild : answer (buildNamed fs root) f = .ok h) (hnode : h.contains node = true) :
    ∃ h' listed, answer (buildNamed fs node) f = .ok h' ∧ h.ancestors node = .ok listed ∧
      h'.ancestors node = .ok listed := by
  obtain ⟨c, hc, hbuild⟩ := build_of_buildNamed hbuild
  obtain ⟨-, hsound⟩ := Growth.Sound.of_build hbuild
  have hroot : answer (find fs (.plain c.key)) f = .ok c := hdeclared.find_key hc
  obtain ⟨hvalid, hkey⟩ := Hierarchy.contains_iff.mp hnode
  obtain ⟨d, hd, hdkey⟩ := hsound.class_of_name hkey
  have hfind := hsound.find_of_mem hdeclared hroot hd
  have hname : answer (find fs node) f = .ok d := by
    rw [answer_find, if_pos hvalid, ← hdkey]
    rw [answer_find] at hfind
    split_ifs at hfind
    rwa [NameLike.text, Class.key, slashes_slashes] at hfind
  obtain ⟨h', hbuild', hsub⟩ := Hierarchy.exists_build (hsound.closed hdeclared hroot) hd
    (Growth.qualified_of_find hfind)
  obtain ⟨-, hsound'⟩ := Growth.Sound.of_build hbuild'
  have hkey' : slashes node.text ∈ h'.graph.nodes.names := hdkey ▸ hsound'.key_mem hsound'.root_mem
  have hnode' : h'.contains node = true := Hierarchy.contains_iff.mpr ⟨hvalid, hkey'⟩
  refine ⟨h', _, buildNamed_of_build hname hbuild', Hierarchy.ancestors_eq hnode, ?_⟩
  rw [Hierarchy.ancestors_eq hnode', hsound.carriedBy_reach_congr hsound' hsub hkey']

/-- The ancestors of a class do not depend on the root that their hierarchy is built from: every
class of a hierarchy has one of its own, also when it is asked for after other calls, and both list
the same. -/
theorem ancestors_of_any_root {classpath : Classpath} {journal : Log.Journal}
    (hdeclared : FindsDeclared fs (new classpath journal)) (calls calls' : List Call)
    (hbuild : answer (buildNamed fs root)
      (live (calls.map (Prod.mk fs)) (new classpath journal)) = .ok h)
    (hnode : h.contains node = true) :
    ∃ h' listed, answer (buildNamed fs node)
        (live (calls'.map (Prod.mk fs)) (new classpath journal)) = .ok h' ∧
      h.ancestors node = .ok listed ∧ h'.ancestors node = .ok listed := by
  have hnew (calls : List Call) (name : NameLike) :
      answer (buildNamed fs name) (live (calls.map (Prod.mk fs)) (new classpath journal)) =
        answer (buildNamed fs name) (new classpath journal) :=
    (steady_buildNamed name).answer_eq (live_alike ((alike fs).refl _) calls)
  rw [hnew] at hbuild ⊢
  exact exists_buildNamed hdeclared hbuild hnode

theorem ancestors_of_any_root_pair : ∃ h h' listed,
    answer (buildNamed pairFiles (.plain "A")) (live [] pairFinder) = .ok h ∧
      h.contains (.plain "B") = true ∧
      answer (buildNamed pairFiles (.plain "B"))
        (live [(pairFiles, .find (.plain "B")), (pairFiles, .close)] pairFinder) = .ok h' ∧
      h.ancestors (.plain "B") = .ok listed ∧ h'.ancestors (.plain "B") = .ok listed := by
  have hbuilt : ((answer (buildNamed pairFiles (.plain "A")) pairFinder).toOption.map
      fun h => h.contains (.plain "B")) = some true := by
    decide +kernel
  obtain ⟨h, hh, hnode⟩ := Option.map_eq_some_iff.mp hbuilt
  have hbuild : answer (buildNamed pairFiles (.plain "A")) pairFinder = .ok h :=
    toOption_eq_some_iff.mp hh
  obtain ⟨h', listed, hbuild', hlisted, hlisted'⟩ :=
    ancestors_of_any_root findsDeclared_pair [] [.find (.plain "B"), .close] hbuild hnode
  exact ⟨h, h', listed, hbuild, hnode, hbuild', hlisted, hlisted'⟩

end Finder

end ClassAtlas
