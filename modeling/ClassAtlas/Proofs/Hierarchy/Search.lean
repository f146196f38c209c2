import ClassAtlas.Hierarchy.Ancestors
import ClassAtlas.Proofs.Hierarchy.Links

/-! What a search lists: of all edges out of the classes it goes through, in the order it goes
through them, those that are the first to their target. -/

namespace ClassAtlas

namespace ClassGraph

/-- The edges to targets not seen before, each the first to its target. -/
def firstEdges : (seen : List String) → List Edge → List Edge
  | _, [] => []
  | seen, e :: es =>
    if e.target ∈ seen then firstEdges seen es else e :: firstEdges (e.target :: seen) es

/-- Edges grouped by target, the targets in the order of their first edges. -/
def grouped (edges : List Edge) : List Edge :=
  (edges.map Edge.target).eraseDups.flatMap fun target => edges.filter fun e => e.target = target

variable {g : ClassGraph} {seen seen' : List String} {edges : List Edge} {e : Edge}
  {target : String}

theorem edgesFrom_eq_grouped (g : ClassGraph) (source : String) :
    g.edgesFrom source = grouped (g.edgesOut source) := rfl

theorem firstEdges_congr (h : ∀ t, t ∈ seen ↔ t ∈ seen') :
    firstEdges seen edges = firstEdges seen' edges := by
  induction edges generalizing seen seen' with
  | nil => rfl
  | cons e es ih =>
    have hcons : ∀ t, t ∈ e.target :: seen ↔ t ∈ e.target :: seen' := by simp [h]
    rw [firstEdges, firstEdges, ih h, ih hcons]
    simp only [h]

theorem firstEdges_append (seen : List String) (front back : List Edge) :
    firstEdges seen (front ++ back) =
      firstEdges seen front ++ firstEdges (front.map Edge.target ++ seen) back := by
  induction front generalizing seen with
  | nil => rfl
  | cons e es ih =>
    rw [List.cons_append, firstEdges, firstEdges]
    split_ifs with h
    · have hseen : ∀ t, t ∈ es.map Edge.target ++ seen ↔
          t ∈ (e :: es).map Edge.target ++ seen := by
        intro t
        by_cases ht : t = e.target
        · simp [ht, h]
        · simp [ht]
      rw [ih seen, firstEdges_congr hseen]
    · have hseen : ∀ t, t ∈ es.map Edge.target ++ e.target :: seen ↔
          t ∈ (e :: es).map Edge.target ++ seen := by
        intro t
        simp only [List.map_cons, List.cons_append, List.mem_append, List.mem_cons]
        tauto
      rw [ih (e.target :: seen), firstEdges_congr hseen, List.cons_append]

theorem firstEdges_filter {p : Edge → Bool} (h : ∀ e ∈ edges, p e = false → e.target ∈ seen) :
    firstEdges seen (edges.filter p) = firstEdges seen edges := by
  induction edges generalizing seen with
  | nil => rfl
  | cons e es ih =>
    have hes : ∀ e ∈ es, p e = false → e.target ∈ seen := fun e he =>
      h e (List.mem_cons_of_mem _ he)
    cases hp : p e with
    | true =>
      rw [List.filter_cons_of_pos hp, firstEdges, firstEdges, ih hes,
        ih fun e he hp => List.mem_cons_of_mem _ (hes e he hp)]
    | false =>
      rw [List.filter_cons_of_neg (by simp [hp]), firstEdges, if_pos (h e List.mem_cons_self hp),
        ih hes]

theorem firstEdges_eq_nil (h : ∀ e ∈ edges, e.target ∈ seen) : firstEdges seen edges = [] := by
  rw [← firstEdges_filter (p := fun _ => false) fun e he _ => h e he]
  simp [firstEdges]

theorem grouped_cons (e : Edge) (es : List Edge) :
    grouped (e :: es) = e :: es.filter (fun d => d.target = e.target) ++
      grouped (es.filter fun d => d.target ≠ e.target) := by
  have hnames : ((es.map Edge.target).filter fun t => !(t == e.target)) =
      (es.filter fun d => d.target ≠ e.target).map Edge.target := by
    rw [List.filter_map]
    congr 2
    funext d
    simp [beq_eq_decide]
  rw [grouped, List.map_cons, List.eraseDups_cons, List.flatMap_cons, hnames,
    List.filter_cons_of_pos (by simp), grouped]
  congr 1
  refine List.flatMap_congr fun t ht => ?_
  rw [List.mem_eraseDups] at ht
  obtain ⟨d, hd, rfl⟩ := List.mem_map.mp ht
  have hne : d.target ≠ e.target := by simpa using (List.mem_filter.mp hd).2
  rw [List.filter_cons_of_neg (by simpa using hne.symm), List.filter_filter]
  refine List.filter_congr fun x _ => ?_
  by_cases hx : x.target = d.target
  · simp [hx, hne]
  · simp [hx]

theorem firstEdges_grouped (seen : List String) (edges : List Edge) :
    firstEdges seen (grouped edges) = firstEdges seen edges := by
  induction hn : edges.length using Nat.strong_induction_on generalizing edges seen with
  | _ n ih =>
    cases edges with
    | nil => rfl
    | cons e es =>
      have hlt : (es.filter fun d => d.target ≠ e.target).length < n := by
        have hle := List.length_filter_le (fun d => decide (d.target ≠ e.target)) es
        rw [List.length_cons] at hn
        omega
      have hrest : ∀ seen, e.target ∈ seen →
          firstEdges seen (es.filter (fun d => d.target = e.target) ++
            grouped (es.filter fun d => d.target ≠ e.target)) = firstEdges seen es := by
        intro seen he
        have hsame : ∀ d ∈ es.filter (fun d => d.target = e.target), d.target ∈ seen := by
          intro d hd
          have hd' : d.target = e.target := by simpa using (List.mem_filter.mp hd).2
          rwa [hd']
        have hseen : ∀ t, t ∈ (es.filter fun d => d.target = e.target).map Edge.target ++ seen ↔
            t ∈ seen := by
          intro t
          rw [List.mem_append, or_iff_right_of_imp]
          intro ht
          obtain ⟨d, hd, rfl⟩ := List.mem_map.mp ht
          exact hsame d hd
        rw [firstEdges_append, firstEdges_eq_nil hsame, List.nil_append, ih _ hlt _ _ rfl,
          firstEdges_congr hseen, firstEdges_filter]
        intro d _ hd
        have hd' : d.target = e.target := by simpa using hd
        rwa [hd']
      rw [grouped_cons, List.cons_append, firstEdges, firstEdges]
      split_ifs with h
      · exact hrest seen h
      · rw [hrest _ List.mem_cons_self]

theorem mem_targets_firstEdges :
    target ∈ (firstEdges seen edges).map Edge.target ↔
      target ∉ seen ∧ target ∈ edges.map Edge.target := by
  induction edges generalizing seen with
  | nil => simp [firstEdges]
  | cons e es ih =>
    rw [firstEdges]
    split_ifs with h
    · rw [ih, List.map_cons, List.mem_cons]
      by_cases ht : target = e.target
      · simp [ht, h]
      · simp [ht]
    · rw [List.map_cons, List.mem_cons, ih, List.map_cons, List.mem_cons, List.mem_cons]
      by_cases ht : target = e.target
      · simp [ht, h]
      · simp [ht]

theorem nodup_targets_firstEdges (seen : List String) (edges : List Edge) :
    ((firstEdges seen edges).map Edge.target).Nodup := by
  induction edges generalizing seen with
  | nil => exact .nil
  | cons e es ih =>
    rw [firstEdges]
    split_ifs with h
    · exact ih seen
    · rw [List.map_cons, List.nodup_cons, mem_targets_firstEdges]
      exact ⟨fun hmem => hmem.1 List.mem_cons_self, ih _⟩

theorem firstEdges_sublist (seen : List String) (edges : List Edge) :
    (firstEdges seen edges).Sublist edges := by
  induction edges generalizing seen with
  | nil => exact .slnil
  | cons e es ih =>
    rw [firstEdges]
    split_ifs with h
    · exact (ih seen).cons e
    · exact (ih _).cons_cons e

/-- Where a target is first met among edges. -/
def firstTo (edges : List Edge) (target : String) : Nat :=
  edges.findIdx fun e => e.target = target

theorem firstTo_cons_self (e : Edge) (es : List Edge) : firstTo (e :: es) e.target = 0 := by
  simp [firstTo, List.findIdx_cons]

theorem firstTo_cons_of_ne {es : List Edge} (h : target ≠ e.target) :
    firstTo (e :: es) target = firstTo es target + 1 := by
  simp [firstTo, List.findIdx_cons, h.symm]

theorem pairwise_firstEdges (seen : List String) (edges : List Edge) :
    ((firstEdges seen edges).map Edge.target).Pairwise
      fun t u => firstTo edges t < firstTo edges u := by
  induction edges generalizing seen with
  | nil => exact .nil
  | cons e es ih =>
    rw [firstEdges]
    split_ifs with h
    · refine (ih seen).imp_of_mem fun {t u} ht hu hlt => ?_
      have hne : ∀ v ∈ (firstEdges seen es).map Edge.target, v ≠ e.target := fun v hv he =>
        (mem_targets_firstEdges.mp hv).1 (he ▸ h)
      rw [firstTo_cons_of_ne (hne t ht), firstTo_cons_of_ne (hne u hu)]
      omega
    · have hne : ∀ v ∈ (firstEdges (e.target :: seen) es).map Edge.target, v ≠ e.target :=
        fun v hv he => (mem_targets_firstEdges.mp hv).1 (he ▸ List.mem_cons_self)
      rw [List.map_cons, List.pairwise_cons]
      constructor
      · intro u hu
        rw [firstTo_cons_self, firstTo_cons_of_ne (hne u hu)]
        omega
      · refine (ih _).imp_of_mem fun {t u} ht hu hlt => ?_
        rw [firstTo_cons_of_ne (hne t ht), firstTo_cons_of_ne (hne u hu)]
        omega

theorem find?_of_mem_firstEdges {e : Edge} (h : e ∈ firstEdges seen edges) :
    edges.find? (fun d => d.target = e.target) = some e := by
  induction edges generalizing seen with
  | nil => cases h
  | cons d es ih =>
    rw [firstEdges] at h
    split_ifs at h with hd
    · have hne : d.target ≠ e.target := fun he =>
        (mem_targets_firstEdges.mp (List.mem_map_of_mem h)).1 (he ▸ hd)
      rw [List.find?_cons_of_neg (by simpa using hne), ih h]
    · rcases List.mem_cons.mp h with rfl | h
      · exact List.find?_cons_of_pos (by simp)
      · have hne : d.target ≠ e.target := fun he =>
          (mem_targets_firstEdges.mp (List.mem_map_of_mem h)).1 (he ▸ List.mem_cons_self)
        rw [List.find?_cons_of_neg (by simpa using hne), ih h]

/-- Names of which each but the first has an edge to it from one before it. -/
inductive Linked (g : ClassGraph) (start : String) : List String → Prop where
  | start : Linked g start [start]
  | snoc {order : List String} {e : Edge} (horder : Linked g start order) (he : e ∈ g.edges)
    (hsource : e.source ∈ order) : Linked g start (order ++ [e.target])

theorem Linked.append {start source : String} {order : List String} {new : List Edge}
    (h : Linked g start order) (hsource : source ∈ order)
    (hnew : ∀ e ∈ new, e ∈ g.edgesOut source) :
    Linked g start (order ++ new.map Edge.target) := by
  induction new generalizing order with
  | nil => simpa using h
  | cons e new ih =>
    obtain ⟨he, hs⟩ := List.mem_filter.mp (hnew e List.mem_cons_self)
    have hs' : e.source = source := by simpa using hs
    have hsnoc : Linked g start (order ++ [e.target]) := h.snoc he (hs' ▸ hsource)
    have hall := ih hsnoc (List.mem_append_left _ hsource) fun d hd =>
      hnew d (List.mem_cons_of_mem _ hd)
    rwa [List.append_assoc] at hall

end ClassGraph

def Edge.mark (e : Edge) : String × Relation :=
  (e.target, e.relation)

namespace Search

open ClassGraph

variable {g : ClassGraph} {s : Search} {done : List String}

def seen (s : Search) : List String :=
  s.start :: s.met.map Prod.fst

theorem knows_iff {name : String} : s.knows name = true ↔ name ∈ s.seen := by
  simp [knows, seen]

theorem foldl_follow (s : Search) (edges : List Edge) :
    edges.foldl follow s = ⟨s.start, s.pending ++ (firstEdges s.seen edges).map Edge.target,
      s.met ++ (firstEdges s.seen edges).map Edge.mark⟩ := by
  induction edges generalizing s with
  | nil => simp [firstEdges]
  | cons e es ih =>
    rw [List.foldl_cons, ih, firstEdges]
    by_cases h : e.target ∈ s.seen
    · rw [if_pos h, follow, if_pos (knows_iff.mpr h)]
    · have hseen : ∀ t, t ∈ Search.seen ⟨s.start, s.pending ++ [e.target],
          s.met ++ [(e.target, e.relation)]⟩ ↔ t ∈ e.target :: s.seen := by
        intro t
        simp only [seen, List.map_append, List.map_cons, List.map_nil, List.mem_cons,
          List.mem_append, List.not_mem_nil]
        tauto
      rw [if_neg h, follow, if_neg fun hk => h (knows_iff.mp hk), firstEdges_congr hseen]
      simp [Edge.mark]

/-- What holds between two rounds of a search, where `done` are the classes gone through. -/
structure Sound (g : ClassGraph) (done : List String) (s : Search) : Prop where
  seen_eq : s.seen = done ++ s.pending
  met_eq : s.met = (firstEdges [s.start] (done.flatMap g.edgesOut)).map Edge.mark
  linked : Linked g s.start s.seen

theorem sound_start (g : ClassGraph) (start : String) : Sound g [] ⟨start, [start], []⟩ :=
  ⟨rfl, rfl, .start⟩

theorem map_fst_mark (edges : List Edge) :
    (edges.map Edge.mark).map Prod.fst = edges.map Edge.target := by
  rw [List.map_map]
  rfl

theorem Sound.seen_eq_cons (h : Sound g done s) :
    s.seen = s.start :: (firstEdges [s.start] (done.flatMap g.edgesOut)).map Edge.target := by
  rw [seen, h.met_eq, map_fst_mark]

theorem Sound.mem_seen_iff (h : Sound g done s) {name : String} :
    name ∈ s.seen ↔ name ∈ (done.flatMap g.edgesOut).map Edge.target ++ [s.start] := by
  rw [h.seen_eq_cons, List.mem_cons, mem_targets_firstEdges, List.mem_append]
  by_cases hname : name = s.start
  · simp [hname]
  · simp [hname]

theorem Sound.nodup (h : Sound g done s) : s.seen.Nodup := by
  rw [h.seen_eq_cons, List.nodup_cons, mem_targets_firstEdges]
  exact ⟨fun hstart => hstart.1 (List.mem_singleton_self _), nodup_targets_firstEdges _ _⟩

theorem Sound.step (h : Sound g done s) {name : String} {pending : List String}
    (hp : s.pending = name :: pending) :
    Sound g (done ++ [name]) ((g.edgesFrom name).foldl follow { s with pending }) := by
  have hseen : (⟨s.start, pending, s.met⟩ : Search).seen = s.seen := rfl
  rw [edgesFrom_eq_grouped, foldl_follow, firstEdges_grouped, hseen]
  have hnew :
      Search.seen ⟨s.start, pending ++ (firstEdges s.seen (g.edgesOut name)).map Edge.target,
        s.met ++ (firstEdges s.seen (g.edgesOut name)).map Edge.mark⟩ =
        s.seen ++ (firstEdges s.seen (g.edgesOut name)).map Edge.target := by
    rw [seen, List.map_append, map_fst_mark]
    rfl
  constructor
  case seen_eq =>
    rw [hnew, h.seen_eq, hp]
    simp
  case met_eq =>
    have hknown : ∀ t, t ∈ s.seen ↔ t ∈ (done.flatMap g.edgesOut).map Edge.target ++ [s.start] :=
      fun t => h.mem_seen_iff
    dsimp only
    rw [List.flatMap_append, firstEdges_append, List.map_append, ← h.met_eq,
      firstEdges_congr hknown, List.flatMap_singleton]
  case linked =>
    rw [hnew]
    have hname : name ∈ s.seen := by simp [h.seen_eq, hp]
    exact h.linked.append hname (firstEdges_sublist _ _).subset

theorem Sound.run (h : Sound g done s) (fuel : Nat) :
    ∃ done', Sound g done' (run g fuel s) ∧
      ((run g fuel s).pending = [] ∨ done'.length = done.length + fuel) := by
  induction fuel generalizing done s with
  | zero => exact ⟨done, h, .inr rfl⟩
  | succ fuel ih =>
    rw [Search.run]
    cases hp : s.pending with
    | nil => exact ⟨done, h, .inl hp⟩
    | cons name pending =>
      obtain ⟨done', hdone', hend⟩ := ih (h.step hp)
      refine ⟨done', hdone', hend.imp_right fun hend => ?_⟩
      rw [List.length_append, List.length_singleton] at hend
      omega

theorem start_run (g : ClassGraph) (fuel : Nat) (s : Search) : (run g fuel s).start = s.start := by
  induction fuel generalizing s with
  | zero => rfl
  | succ fuel ih =>
    rw [run]
    cases s.pending with
    | nil => rfl
    | cons name pending => rw [ih, foldl_follow]

theorem Sound.length_seen_le (h : Sound g done s) : s.seen.length ≤ g.edges.length + 1 := by
  have hsub : (firstEdges [s.start] (done.flatMap g.edgesOut)).map Edge.target ⊆
      g.edges.map Edge.target := by
    intro t ht
    obtain ⟨e, he, rfl⟩ := List.mem_map.mp ht
    obtain ⟨p, -, hout⟩ := List.mem_flatMap.mp ((firstEdges_sublist _ _).subset he)
    exact List.mem_map_of_mem (List.mem_of_mem_filter hout)
  have hle := ((nodup_targets_firstEdges _ _).subperm hsub).length_le.trans_eq
    (List.length_map _)
  rw [h.seen_eq_cons, List.length_cons]
  omega

/-- Each round takes a new name, and there are no more of them than edges and the start. -/
theorem pending_run (g : ClassGraph) (start : String) :
    (run g (g.edges.length + 1) ⟨start, [start], []⟩).pending = [] := by
  obtain ⟨done, hdone, hend⟩ := (sound_start g start).run (g.edges.length + 1)
  refine hend.elim id fun hend => ?_
  have hle := hdone.length_seen_le
  rw [hdone.seen_eq, List.length_append] at hle
  rw [List.length_nil] at hend
  rw [← List.length_eq_zero_iff]
  omega

end Search

namespace ClassGraph

def order (g : ClassGraph) (start : String) : List String :=
  start :: (g.reach start).map Prod.fst

theorem sound_reach (g : ClassGraph) (start : String) :
    ∃ s, Search.Sound g (g.order start) s ∧ s.start = start ∧ s.met = g.reach start := by
  obtain ⟨done, hdone, -⟩ := (Search.sound_start g start).run (g.edges.length + 1)
  let s := Search.run g (g.edges.length + 1) ⟨start, [start], []⟩
  have hstart : s.start = start := Search.start_run _ _ _
  have hpending : s.pending = [] := Search.pending_run g start
  have horder : g.order start = done := by
    have hseen := hdone.seen_eq
    rw [hpending, List.append_nil] at hseen
    rw [← hseen, Search.seen, hstart]
    rfl
  exact ⟨s, horder ▸ hdone, hstart, rfl⟩

theorem order_nodup (g : ClassGraph) (start : String) : (g.order start).Nodup := by
  obtain ⟨s, hs, hstart, hmet⟩ := sound_reach g start
  have hnodup := hs.nodup
  rwa [Search.seen, hstart, hmet] at hnodup

theorem order_linked (g : ClassGraph) (start : String) : Linked g start (g.order start) := by
  obtain ⟨s, hs, rfl, hmet⟩ := sound_reach g start
  have hlinked := hs.linked
  rwa [Search.seen, hmet] at hlinked

/-- Of all edges out of the listed classes, those that are first to their target are listed. -/
theorem reach_eq (g : ClassGraph) (start : String) : g.reach start =
    (firstEdges [start] ((g.order start).flatMap g.edgesOut)).map Edge.mark := by
  obtain ⟨s, hs, rfl, hmet⟩ := sound_reach g start
  rw [← hmet]
  exact hs.met_eq

end ClassGraph

end ClassAtlas
