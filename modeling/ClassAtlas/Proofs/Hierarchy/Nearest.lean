import ClassAtlas.Proofs.Hierarchy.Search

/-! The order of what a search lists: by distance from the start, and where distances are equal by
the earliest class listed before that has an edge there. -/

namespace ClassAtlas.ClassGraph

/-- What can be reached from a start along a number of edges. -/
inductive Walk (g : ClassGraph) (start : String) : Nat → String → Prop where
  | start : Walk g start 0 start
  | edge {k : Nat} {e : Edge} (hk : Walk g start k e.source) (he : e ∈ g.edges) :
    Walk g start (k + 1) e.target

/-- The length of a shortest walk. -/
noncomputable def distance (g : ClassGraph) (start name : String) : Nat :=
  sInf {k | g.Walk start k name}

/-- The position of the earliest class that has an edge to a target. -/
def parentIdx (g : ClassGraph) (order : List String) (target : String) : Nat :=
  order.findIdx fun p => (g.edgesOut p).any fun e => e.target = target

/-- Whether an earlier class has an edge to the one target than to the other, or the earliest
classes are the same and its edge to the one target comes first. -/
def LinkedBefore (g : ClassGraph) (order : List String) (t u : String) : Prop :=
  g.parentIdx order t < g.parentIdx order u ∨ g.parentIdx order t = g.parentIdx order u ∧
    ∃ p, order[g.parentIdx order t]? = some p ∧
      firstTo (g.edgesOut p) t < firstTo (g.edgesOut p) u

variable {g : ClassGraph} {start t u p : String} {order : List String} {front back : List Edge}
  {e : Edge} {i j k : Nat}

theorem any_target_iff : ((g.edgesOut p).any fun e => e.target = t) = true ↔
    t ∈ (g.edgesOut p).map Edge.target := by
  simp only [List.any_eq_true, decide_eq_true_eq, List.mem_map]

theorem firstTo_lt_length (h : t ∈ front.map Edge.target) : firstTo front t < front.length := by
  obtain ⟨e, he, rfl⟩ := List.mem_map.mp h
  exact List.findIdx_lt_length_of_exists ⟨e, he, by simp⟩

theorem firstTo_append_of_mem (h : t ∈ front.map Edge.target) :
    firstTo (front ++ back) t = firstTo front t := by
  have hlt := firstTo_lt_length h
  rw [firstTo] at hlt ⊢
  rw [List.findIdx_append, if_pos hlt, firstTo]

theorem firstTo_append_of_not_mem (h : t ∉ front.map Edge.target) :
    firstTo (front ++ back) t = firstTo back t + front.length := by
  have hlength : front.findIdx (fun e => e.target = t) = front.length := by
    refine List.findIdx_eq_length_of_false fun e he => ?_
    have hne : e.target ≠ t := fun heq => h (heq ▸ List.mem_map_of_mem he)
    simpa using hne
  rw [firstTo, List.findIdx_append, hlength, if_neg (lt_irrefl _), firstTo]

theorem parentIdx_cons_of_mem (h : t ∈ (g.edgesOut p).map Edge.target) :
    g.parentIdx (p :: order) t = 0 := by
  rw [parentIdx, List.findIdx_cons, any_target_iff.mpr h]
  rfl

theorem parentIdx_cons_of_not_mem (h : t ∉ (g.edgesOut p).map Edge.target) :
    g.parentIdx (p :: order) t = g.parentIdx order t + 1 := by
  rw [parentIdx, List.findIdx_cons, Bool.eq_false_iff.mpr (mt any_target_iff.mp h)]
  rfl

theorem linkedBefore_of_firstTo_lt
    (h : firstTo (order.flatMap g.edgesOut) t < firstTo (order.flatMap g.edgesOut) u) :
    g.LinkedBefore order t u := by
  induction order with
  | nil => cases h
  | cons p order ih =>
    rw [List.flatMap_cons] at h
    by_cases ht : t ∈ (g.edgesOut p).map Edge.target
    · rw [firstTo_append_of_mem ht] at h
      by_cases hu : u ∈ (g.edgesOut p).map Edge.target
      · rw [firstTo_append_of_mem hu] at h
        right
        rw [parentIdx_cons_of_mem ht, parentIdx_cons_of_mem hu]
        exact ⟨rfl, p, rfl, h⟩
      · left
        rw [parentIdx_cons_of_mem ht, parentIdx_cons_of_not_mem hu]
        omega
    · rw [firstTo_append_of_not_mem ht] at h
      by_cases hu : u ∈ (g.edgesOut p).map Edge.target
      · have hlt := firstTo_lt_length hu
        rw [firstTo_append_of_mem hu] at h
        omega
      · rw [firstTo_append_of_not_mem hu] at h
        rw [LinkedBefore, parentIdx_cons_of_not_mem ht, parentIdx_cons_of_not_mem hu]
        rcases ih (by omega) with hlt | ⟨heq, q, hq, hlt⟩
        · left
          omega
        · right
          exact ⟨by omega, q, by simpa using hq, hlt⟩

theorem find?_flatMap_edgesOut
    (h : (order.flatMap g.edgesOut).find? (fun d => d.target = t) = some e) :
    ∃ p, order[g.parentIdx order t]? = some p ∧
      (g.edgesOut p).find? (fun d => d.target = t) = some e := by
  induction order with
  | nil => cases h
  | cons p order ih =>
    rw [List.flatMap_cons, List.find?_append] at h
    by_cases ht : t ∈ (g.edgesOut p).map Edge.target
    · obtain ⟨d, hd, hdt⟩ := List.mem_map.mp ht
      have hsome : ((g.edgesOut p).find? fun d => d.target = t).isSome = true :=
        List.find?_isSome.mpr ⟨d, hd, by simpa using hdt⟩
      obtain ⟨d', hd'⟩ := Option.isSome_iff_exists.mp hsome
      rw [hd', Option.some_or] at h
      rw [parentIdx_cons_of_mem ht]
      exact ⟨p, rfl, hd'.trans h⟩
    · have hnone : (g.edgesOut p).find? (fun d => d.target = t) = none :=
        List.find?_eq_none.mpr fun d hd => by
          simpa using fun hdt : d.target = t => ht (hdt ▸ List.mem_map_of_mem hd)
      rw [hnone, Option.none_or] at h
      obtain ⟨q, hq, hfind⟩ := ih h
      rw [parentIdx_cons_of_not_mem ht]
      exact ⟨q, by simpa using hq, hfind⟩

theorem mem_edgesOut : e ∈ g.edgesOut p ↔ e ∈ g.edges ∧ e.source = p := by
  simp [edgesOut]

theorem mem_order_iff : t ∈ g.order start ↔ t = start ∨ t ∈ (g.reach start).map Prod.fst :=
  List.mem_cons

theorem map_fst_reach (g : ClassGraph) (start : String) : (g.reach start).map Prod.fst =
    (firstEdges [start] ((g.order start).flatMap g.edgesOut)).map Edge.target := by
  rw [reach_eq, Search.map_fst_mark]

theorem target_mem_order (he : e ∈ g.edges) (hsource : e.source ∈ g.order start) :
    e.target ∈ g.order start := by
  rw [mem_order_iff, map_fst_reach, mem_targets_firstEdges, List.mem_singleton]
  by_cases h : e.target = start
  · exact .inl h
  · refine .inr ⟨h, List.mem_map_of_mem (List.mem_flatMap.mpr ⟨e.source, hsource, ?_⟩)⟩
    exact mem_edgesOut.mpr ⟨he, rfl⟩

theorem mem_order_of_walk (h : g.Walk start k t) : t ∈ g.order start := by
  induction h with
  | start => exact List.mem_cons_self
  | edge _ he ih => exact target_mem_order he ih

theorem Linked.exists_walk (h : Linked g start order) : ∀ t ∈ order, ∃ k, g.Walk start k t := by
  induction h with
  | start =>
    intro t ht
    obtain rfl := List.mem_singleton.mp ht
    exact ⟨0, .start⟩
  | snoc _ he hsource ih =>
    intro t ht
    rcases List.mem_append.mp ht with ht | ht
    · exact ih t ht
    · obtain rfl := List.mem_singleton.mp ht
      obtain ⟨k, hk⟩ := ih _ hsource
      exact ⟨k + 1, hk.edge he⟩

theorem parentIdx_le (hp : order[i]? = some p) (he : e ∈ g.edgesOut p) :
    g.parentIdx order e.target ≤ i := by
  by_contra hlt
  obtain ⟨hi, hget⟩ := List.getElem?_eq_some_iff.mp hp
  have hnone := List.not_of_lt_findIdx (not_le.mp hlt)
  rw [hget, any_target_iff.mpr (List.mem_map_of_mem he)] at hnone
  cases hnone

theorem exists_edge_of_parentIdx (h : g.parentIdx order t < order.length) :
    ∃ e ∈ g.edges, order[g.parentIdx order t]? = some e.source ∧ e.target = t := by
  have hany := List.findIdx_getElem (w := h)
  rw [any_target_iff] at hany
  obtain ⟨e, he, htarget⟩ := List.mem_map.mp hany
  obtain ⟨he, hsource⟩ := mem_edgesOut.mp he
  exact ⟨e, he, List.getElem?_eq_some_iff.mpr ⟨h, hsource.symm⟩, htarget⟩

theorem pairwise_linkedBefore (g : ClassGraph) (start : String) :
    ((g.reach start).map Prod.fst).Pairwise (g.LinkedBefore (g.order start)) := by
  rw [map_fst_reach]
  exact (pairwise_firstEdges _ _).imp linkedBefore_of_firstTo_lt

theorem LinkedBefore.parentIdx_le (h : g.LinkedBefore order t u) :
    g.parentIdx order t ≤ g.parentIdx order u :=
  h.elim le_of_lt fun h => h.1.le

theorem parentIdx_mono (hi : 0 < i) (hij : i ≤ j) (ht : (g.order start)[i]? = some t)
    (hu : (g.order start)[j]? = some u) :
    g.parentIdx (g.order start) t ≤ g.parentIdx (g.order start) u := by
  rcases hij.eq_or_lt with rfl | hlt
  · obtain rfl := Option.some.inj (ht.symm.trans hu)
    exact le_rfl
  · obtain ⟨i, rfl⟩ := Nat.exists_eq_succ_of_ne_zero hi.ne'
    obtain ⟨j, rfl⟩ := Nat.exists_eq_succ_of_ne_zero (hi.trans hlt).ne'
    obtain ⟨hi', rfl⟩ := List.getElem?_eq_some_iff.mp ht
    obtain ⟨hj', rfl⟩ := List.getElem?_eq_some_iff.mp hu
    have hpair := List.pairwise_iff_getElem.mp (pairwise_linkedBefore g start) i j
      (Nat.lt_of_succ_lt_succ hi') (Nat.lt_of_succ_lt_succ hj') (Nat.lt_of_succ_lt_succ hlt)
    exact hpair.parentIdx_le

theorem walk_of_le (h : g.Walk start k u) (hij : i ≤ j) (ht : (g.order start)[i]? = some t)
    (hu : (g.order start)[j]? = some u) : ∃ l ≤ k, g.Walk start l t := by
  induction h generalizing i j t with
  | start =>
    obtain ⟨hlt, hget⟩ := List.getElem?_eq_some_iff.mp hu
    obtain rfl : j = 0 := (order_nodup g start).getElem_inj_iff.mp
      (hget.trans rfl : _ = (g.order start)[0])
    obtain rfl := Nat.le_zero.mp hij
    obtain rfl := Option.some.inj ht
    exact ⟨0, le_rfl, .start⟩
  | @edge k e hk he ih =>
    rcases Nat.eq_zero_or_pos i with rfl | hi
    · obtain rfl := Option.some.inj ht
      exact ⟨0, Nat.zero_le _, .start⟩
    · obtain ⟨m, hm, hget⟩ := List.mem_iff_getElem.mp (mem_order_of_walk hk)
      have hsource : (g.order start)[m]? = some e.source :=
        List.getElem?_eq_some_iff.mpr ⟨hm, hget⟩
      -- The earlier class has its first parent no later than where the last edge of the walk
      -- comes from, so that the induction applies to these two.
      have hmono := parentIdx_mono hi hij ht hu
      have hle := hmono.trans (parentIdx_le hsource (mem_edgesOut.mpr ⟨he, rfl⟩))
      obtain ⟨d, hd, hparent, rfl⟩ := exists_edge_of_parentIdx (hle.trans_lt hm)
      obtain ⟨l, hl, hwalk⟩ := ih hle hparent hsource
      exact ⟨l + 1, Nat.succ_le_succ hl, hwalk.edge hd⟩

theorem distance_le (h : g.Walk start k t) : g.distance start t ≤ k :=
  Nat.sInf_le h

theorem walk_distance (h : g.Walk start k t) : g.Walk start (g.distance start t) t :=
  Nat.sInf_mem (s := {k | g.Walk start k t}) ⟨k, h⟩

theorem pairwise_distance (g : ClassGraph) (start : String) :
    ((g.reach start).map Prod.fst).Pairwise
      fun t u => g.distance start t ≤ g.distance start u := by
  rw [List.pairwise_iff_getElem]
  intro i j hi hj hij
  have hmem : ((g.reach start).map Prod.fst)[j] ∈ g.order start :=
    List.mem_cons_of_mem _ (List.getElem_mem hj)
  obtain ⟨k, hk⟩ := (order_linked g start).exists_walk _ hmem
  obtain ⟨l, hl, hwalk⟩ := walk_of_le (walk_distance hk) (Nat.succ_le_succ hij.le)
    (List.getElem?_eq_some_iff.mpr ⟨Nat.succ_lt_succ hi, rfl⟩)
    (List.getElem?_eq_some_iff.mpr ⟨Nat.succ_lt_succ hj, rfl⟩)
  exact (distance_le hwalk).trans hl

theorem mem_reach_iff :
    t ∈ (g.reach start).map Prod.fst ↔ t ≠ start ∧ ∃ k, g.Walk start (k + 1) t := by
  constructor
  · intro ht
    have hne : t ≠ start := fun heq => (List.nodup_cons.mp (order_nodup g start)).1 (heq ▸ ht)
    obtain ⟨k, hk⟩ := (order_linked g start).exists_walk t (List.mem_cons_of_mem _ ht)
    cases hk with
    | start => exact absurd rfl hne
    | @edge k e hk he => exact ⟨hne, k, hk.edge he⟩
  · rintro ⟨hne, k, hk⟩
    exact (mem_order_iff.mp (mem_order_of_walk hk)).resolve_left hne

theorem exists_first_edge {l : String × Relation} (hl : l ∈ g.reach start) :
    ∃ p e, (g.order start)[g.parentIdx (g.order start) l.1]? = some p ∧
      (g.edgesOut p).find? (fun d => d.target = l.1) = some e ∧ e.relation = l.2 := by
  rw [reach_eq] at hl
  obtain ⟨e, he, rfl⟩ := List.mem_map.mp hl
  obtain ⟨p, hp, hfind⟩ := find?_flatMap_edgesOut (find?_of_mem_firstEdges he)
  exact ⟨p, e, hp, hfind, rfl⟩

end ClassAtlas.ClassGraph
