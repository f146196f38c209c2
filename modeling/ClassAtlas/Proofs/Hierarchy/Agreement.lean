import ClassAtlas.Proofs.Hierarchy.Ancestors

/-! Searches from one class in two graphs. They list the same where the two graphs have the same
edges out of the classes that one of the searches goes through. -/

namespace ClassAtlas

namespace Search

open ClassGraph

variable {g g' : ClassGraph} {s : Search} {done : List String}

theorem run_of_no_pending (hp : s.pending = []) (fuel : Nat) : run g fuel s = s := by
  cases fuel with
  | zero => rfl
  | succ fuel => rw [run, hp]

theorem run_of_pending {name : String} {pending : List String} (hp : s.pending = name :: pending)
    (fuel : Nat) :
    run g (fuel + 1) s = run g fuel ((g.edgesFrom name).foldl follow { s with pending }) := by
  rw [run, hp]

theorem seen_subset_run (g : ClassGraph) (fuel : Nat) (s : Search) :
    s.seen ⊆ (run g fuel s).seen := by
  induction fuel generalizing s with
  | zero => exact List.Subset.refl _
  | succ fuel ih =>
    cases hp : s.pending with
    | nil =>
      rw [run_of_no_pending hp]
      exact List.Subset.refl _
    | cons name pending =>
      rw [run_of_pending hp]
      have hfollow : s.seen ⊆ ((g.edgesFrom name).foldl follow { s with pending }).seen := by
        rw [foldl_follow, seen, seen, List.map_append]
        exact List.cons_subset_cons _ (List.subset_append_left _ _)
      exact List.Subset.trans hfollow (ih _)

/-- Searches that are through with all names agree, however much fuel each of them has. -/
theorem Sound.run_congr {fuel fuel' : Nat} (h : Sound g done s)
    (hend : (Search.run g fuel s).pending = []) (hend' : (Search.run g' fuel' s).pending = [])
    (hsame : ∀ p ∈ (Search.run g fuel s).seen, g'.edgesFrom p = g.edgesFrom p) :
    Search.run g' fuel' s = Search.run g fuel s := by
  induction fuel generalizing s done fuel' with
  | zero =>
    have hp : s.pending = [] := hend
    rw [run_of_no_pending hp, run_of_no_pending hp]
  | succ fuel ih =>
    cases hp : s.pending with
    | nil => rw [run_of_no_pending hp, run_of_no_pending hp]
    | cons name pending =>
      cases fuel' with
      | zero =>
        have hnone : s.pending = [] := hend'
        simp [hp] at hnone
      | succ fuel' =>
        have hname : name ∈ s.seen := by simp [h.seen_eq, hp]
        have hedges := hsame name (seen_subset_run _ _ _ hname)
        rw [run_of_pending hp] at hend hend' hsame
        rw [run_of_pending hp, run_of_pending hp, hedges]
        rw [hedges] at hend'
        exact ih (h.step hp) hend hend' hsame

end Search

namespace ClassGraph

variable {g g' : ClassGraph} {start : String}

theorem reach_congr (hsame : ∀ p ∈ g.order start, g'.edgesOut p = g.edgesOut p) :
    g'.reach start = g.reach start := by
  have horder : (Search.run g (g.edges.length + 1) ⟨start, [start], []⟩).seen = g.order start := by
    rw [Search.seen, Search.start_run]
    rfl
  have hedges : ∀ p ∈ (Search.run g (g.edges.length + 1) ⟨start, [start], []⟩).seen,
      g'.edgesFrom p = g.edgesFrom p := by
    intro p hp
    rw [horder] at hp
    rw [edgesFrom_eq_grouped, edgesFrom_eq_grouped, hsame p hp]
  have hrun := (Search.sound_start g start).run_congr (Search.pending_run g start)
    (Search.pending_run g' start) hedges
  rw [reach, reach, hrun]

end ClassGraph

namespace Growth

variable {fs : FileSystem} {f : Finder} {root root' : FoundClass} {graph graph' : ClassGraph}
  {start : String}

theorem Sound.order_subset (h : Sound fs f root ⟨graph, []⟩) (hstart : start ∈ graph.nodes.names) :
    graph.order start ⊆ graph.nodes.names := by
  intro p hp
  rcases ClassGraph.mem_order_iff.mp hp with rfl | hp
  · exact hstart
  · obtain ⟨l, hl, rfl⟩ := List.mem_map.mp hp
    obtain ⟨c, hc, hkey⟩ := h.reached_carried hl
    exact hkey ▸ h.key_mem (h.get?_iff.mp hc).1

theorem Sound.edgesOut_congr {c : FoundClass} (h : Sound fs f root ⟨graph, []⟩)
    (h' : Sound fs f root' ⟨graph', []⟩) (hc : c ∈ graph.classes) (hc' : c ∈ graph'.classes) :
    graph.edgesOut c.key = graph'.edgesOut c.key := by
  obtain ⟨ls, hls, hedges⟩ := h.links_of_mem hc
  obtain ⟨ls', hls', hedges'⟩ := h'.links_of_mem hc'
  obtain rfl := Except.ok.inj (hls.symm.trans hls')
  rw [hedges, hedges']

/-- What a finished graph lists for a class it has in common with another one is the same in both,
if there are no classes but of the other graph in it. -/
theorem Sound.carriedBy_reach_congr (h : Sound fs f root ⟨graph, []⟩)
    (h' : Sound fs f root' ⟨graph', []⟩) (hsub : graph'.classes ⊆ graph.classes)
    (hstart : start ∈ graph'.nodes.names) :
    graph.carriedBy (graph.reach start) = graph'.carriedBy (graph'.reach start) := by
  have hreach : graph.reach start = graph'.reach start := by
    refine ClassGraph.reach_congr fun p hp => ?_
    obtain ⟨c, hc, rfl⟩ := h'.class_of_name (h'.order_subset hstart hp)
    exact h.edgesOut_congr h' (hsub hc) hc
  rw [hreach]
  refine List.filterMap_congr fun l hl => ?_
  obtain ⟨c, hc, hkey⟩ := h'.reached_carried hl
  have hcarried : graph.nodes.get? (.plain l.1) = some c :=
    h.get?_iff.mpr ⟨hsub (h'.get?_iff.mp hc).1, hkey⟩
  rw [hcarried, hc]

end Growth

end ClassAtlas
