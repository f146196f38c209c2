import ClassAtlas.Proofs.Hierarchy.BuildSteady

/-! The classes that a build expands, one after the other. No two of them have the same name, and
when a build is through they are the nodes of its hierarchy. -/

namespace ClassAtlas

namespace Growth

variable {fs : FileSystem} {f : Finder} {root c : FoundClass} {g : Growth} {graph : ClassGraph}
  {fuel : Nat} {e : Error}

/-- The classes that a run expands, in their order. The last one may be the one that it fails at. -/
def expansions (fs : FileSystem) (f : Finder) : (fuel : Nat) → Growth → List FoundClass
  | 0, _ => []
  | fuel + 1, g =>
    match g.pending with
    | [] => []
    | (name, c) :: pending =>
      c :: match answer (expand fs name c { g with pending }) f with
        | .ok g' => expansions fs f fuel g'
        | .error _ => []

theorem expansions_of_no_pending (hp : g.pending = []) (fuel : Nat) :
    expansions fs f fuel g = [] := by
  cases fuel with
  | zero => rfl
  | succ fuel => rw [expansions, hp]

theorem expansions_of_pending {name : QualifiedName} {pending : List (QualifiedName × FoundClass)}
    (hp : g.pending = (name, c) :: pending) (fuel : Nat) : expansions fs f (fuel + 1) g =
      c :: match answer (expand fs name c { g with pending }) f with
        | .ok g' => expansions fs f fuel g'
        | .error _ => [] := by
  rw [expansions, hp]

section Preserved

-- What every expansion preserves holds all along a run.
variable {motive : Growth → Prop}
  (hstep : ∀ {g g' : Growth} {name : QualifiedName} {c : FoundClass}
    {pending added : List (QualifiedName × FoundClass)} {ls : List (Relation × FoundClass)},
    motive g → g.pending = (name, c) :: pending → Finder.links fs f c.toClass = .ok ls →
      Grown name.normalized ls added { g with pending } g' → motive g')
include hstep

theorem exists_of_run (hg : motive g) (hrun : answer (run fs fuel g) f = .ok graph) :
    ∃ g', motive g' ∧ g'.graph = graph := by
  induction fuel generalizing g with
  | zero =>
    obtain rfl := Except.ok.inj hrun
    exact ⟨g, hg, rfl⟩
  | succ fuel ih =>
    rcases hp : g.pending with _ | ⟨⟨name, c⟩, pending⟩
    · rw [run_of_no_pending hp] at hrun
      obtain rfl := Except.ok.inj hrun
      exact ⟨g, hg, rfl⟩
    · rw [run_of_pending hp] at hrun
      obtain ⟨g₁, hexpand, hrun⟩ := bind_eq_ok_iff.mp hrun
      obtain ⟨ls, added, hls, hgrown⟩ := exists_grown_of_expand hexpand
      exact ih (hstep hg hp hls hgrown) hrun

/-- A run fails at the class that it expands last. -/
theorem exists_of_run_error (hg : motive g) (hrun : answer (run fs fuel g) f = .error e) :
    ∃ g' name c pending, motive g' ∧ g'.pending = (name, c) :: pending ∧
      answer (expand fs name c { g' with pending }) f = .error e ∧
      (expansions fs f fuel g).getLast? = some c := by
  induction fuel generalizing g with
  | zero => cases hrun
  | succ fuel ih =>
    rcases hp : g.pending with _ | ⟨⟨name, c⟩, pending⟩
    · rw [run_of_no_pending hp] at hrun
      cases hrun
    · rw [run_of_pending hp] at hrun
      rw [expansions_of_pending hp]
      rcases bind_eq_error_iff.mp hrun with hexpand | ⟨g₁, hexpand, hrun⟩
      · refine ⟨g, name, c, pending, hg, hp, hexpand, ?_⟩
        rw [hexpand]
        rfl
      · obtain ⟨ls, added, hls, hgrown⟩ := exists_grown_of_expand hexpand
        obtain ⟨g', name', c', pending', hg', hp', hfails, hlast⟩ :=
          ih (hstep hg hp hls hgrown) hrun
        refine ⟨g', name', c', pending', hg', hp', hfails, ?_⟩
        rw [hexpand]
        dsimp only
        rw [List.getLast?_cons, hlast]
        rfl

theorem exists_of_mem_expansions (hg : motive g) (hc : c ∈ expansions fs f fuel g) :
    ∃ g' name pending, motive g' ∧ g'.pending = (name, c) :: pending := by
  induction fuel generalizing g with
  | zero => cases hc
  | succ fuel ih =>
    rcases hp : g.pending with _ | ⟨⟨name, d⟩, pending⟩
    · rw [expansions_of_no_pending hp] at hc
      cases hc
    · rw [expansions_of_pending hp] at hc
      rcases List.mem_cons.mp hc with rfl | hc
      · exact ⟨g, name, pending, hg, hp⟩
      · cases hexpand : answer (expand fs name d { g with pending }) f with
        | error e => simp [hexpand] at hc
        | ok g₁ =>
          rw [hexpand] at hc
          obtain ⟨ls, added, hls, hgrown⟩ := exists_grown_of_expand hexpand
          exact ih (hstep hg hp hls hgrown) hc

end Preserved

/-- A class waits only from when it becomes a node on, so no name comes up a second time. -/
theorem Sound.nodup_expansions (h : Sound fs f root g) (fuel : Nat) :
    ((expansions fs f fuel g).map fun c => c.key).Nodup ∧ ∀ c ∈ expansions fs f fuel g,
      c.key ∈ g.pending.map (fun p => p.2.key) ∨ c.key ∉ g.graph.nodes.names := by
  induction fuel generalizing g with
  | zero => simp [expansions]
  | succ fuel ih =>
    rcases hp : g.pending with _ | ⟨⟨name, c⟩, pending⟩
    · simp [expansions_of_no_pending hp]
    · rw [expansions_of_pending hp]
      cases hexpand : answer (expand fs name c { g with pending }) f with
      | error e => simp
      | ok g₁ =>
        obtain ⟨ls, added, hls, hgrown⟩ := exists_grown_of_expand hexpand
        obtain ⟨hnodup, hkeys⟩ := ih (h.step hp hls hgrown)
        have hfront : c.key ∈ g.graph.nodes.names := h.key_mem (h.front hp).2
        have hwaiting := h.pending_nodup
        rw [hp, List.map_cons, List.nodup_cons] at hwaiting
        have hlater : ∀ d ∈ expansions fs f fuel g₁,
            d.key ∈ pending.map (fun p => p.2.key) ∨ d.key ∉ g.graph.nodes.names := by
          intro d hd
          rcases hkeys d hd with hmem | hnew
          · obtain ⟨p, hmem, hkey⟩ := List.mem_map.mp hmem
            rcases hgrown.mem_pending_iff.mp hmem with hadded | hold
            · exact .inr (hkey ▸ hgrown.key_not_mem h.names_nodup hadded)
            · exact .inl (hkey ▸ List.mem_map_of_mem hold)
          · exact .inr fun hmem => hnew (hgrown.mem_names hmem)
        dsimp only
        constructor
        · refine List.nodup_cons.mpr ⟨fun hmem => ?_, hnodup⟩
          obtain ⟨d, hd, hkey⟩ := List.mem_map.mp hmem
          have hsame : d.key = c.key := hkey
          rcases hlater d hd with hwaits | hnew
          · rw [hsame] at hwaits
            exact hwaiting.1 hwaits
          · rw [hsame] at hnew
            exact hnew hfront
        · intro d hd
          rcases List.mem_cons.mp hd with rfl | hd
          · exact .inl (by simp)
          · exact (hlater d hd).imp_left fun hwaits => List.mem_cons_of_mem _ hwaits

/-- What a run has in the end are the classes from before, each expanded that was still waiting, and
those that it expands besides. -/
theorem Sound.perm_expansions {n : Nat} (h : Sound fs f root g)
    (hn : ∀ {g'}, Sound fs f root g' → g'.graph.nodes.size ≤ n)
    (hfuel : n + g.pending.length ≤ g.graph.nodes.size + fuel)
    (hrun : answer (Growth.run fs fuel g) f = .ok graph) :
    (g.graph.classes ++ expansions fs f fuel g).Perm (graph.classes ++ g.pending.map Prod.snd) := by
  induction fuel generalizing g with
  | zero =>
    have hsize := hn h
    have hp : g.pending = [] := List.length_eq_zero_iff.mp (by omega)
    obtain rfl := Except.ok.inj hrun
    simp [expansions, hp]
  | succ fuel ih =>
    rcases hp : g.pending with _ | ⟨⟨name, c⟩, pending⟩
    · rw [run_of_no_pending hp] at hrun
      obtain rfl := Except.ok.inj hrun
      simp [expansions_of_no_pending hp]
    · rw [hp, List.length_cons] at hfuel
      rw [run_of_pending hp] at hrun
      obtain ⟨g₁, hexpand, hrun⟩ := bind_eq_ok_iff.mp hrun
      obtain ⟨ls, added, hls, hgrown⟩ := exists_grown_of_expand hexpand
      have hnodes : g₁.graph.nodes.size = g.graph.nodes.size + added.length := by
        simp [NameMap.size, hgrown.entries]
      have hwaiting : g₁.pending.length = added.length + pending.length := by
        simp [hgrown.pending]
      have hrest := ih (h.step hp hls hgrown) (by omega) hrun
      rw [expansions_of_pending hp, hexpand]
      dsimp only
      rw [hgrown.classes, hgrown.pending, List.map_append, List.append_assoc] at hrest
      -- What is added on both sides is left out again.
      have hadded : (added.map Prod.snd ++ (g.graph.classes ++ expansions fs f fuel g₁)).Perm
          (added.map Prod.snd ++ (graph.classes ++ pending.map Prod.snd)) :=
        have hreverse : (added.reverse.map Prod.snd).Perm (added.map Prod.snd) :=
          (List.reverse_perm added).map Prod.snd
        calc List.Perm _ (g.graph.classes ++ (added.map Prod.snd ++ expansions fs f fuel g₁)) :=
              List.perm_append_comm_assoc _ _ _
          List.Perm _ (graph.classes ++ (added.reverse.map Prod.snd ++ pending.map Prod.snd)) :=
            hrest
          List.Perm _ (graph.classes ++ (added.map Prod.snd ++ pending.map Prod.snd)) :=
              (hreverse.append_right _).append_left _
          List.Perm _ (added.map Prod.snd ++ (graph.classes ++ pending.map Prod.snd)) :=
              List.perm_append_comm_assoc _ _ _
      have hlater := (List.perm_append_left_iff _).mp hadded
      exact List.perm_middle.trans ((hlater.cons c).trans List.perm_middle.symm)

end Growth

namespace Hierarchy

variable {fs : FileSystem} {f : Finder} {root c : FoundClass} {h : Hierarchy}

/-- The classes that a build expands, in their order. -/
def expansions (fs : FileSystem) (f : Finder) (root : FoundClass) : List FoundClass :=
  match root.qualifiedName with
  | .ok name => Growth.expansions fs f (f.capacity fs + 1) (.ofRoot name root)
  | .error _ => []

theorem expansions_eq {name : QualifiedName} (hname : root.qualifiedName = .ok name) :
    expansions fs f root = Growth.expansions fs f (f.capacity fs + 1) (.ofRoot name root) := by
  rw [expansions, hname]

theorem nodup_expansions (fs : FileSystem) (f : Finder) (root : FoundClass) :
    ((expansions fs f root).map fun c => c.key).Nodup := by
  cases hname : root.qualifiedName with
  | error n => simp [expansions, hname]
  | ok name =>
    have hsound : Growth.Sound fs f root (.ofRoot name root) :=
      Growth.sound_ofRoot (QualifiedName.ofText_eq_ok_iff.mp hname)
    rw [expansions_eq hname]
    exact (hsound.nodup_expansions _).1

theorem perm_expansions (hbuild : answer (build fs root) f = .ok h) :
    (expansions fs f root).Perm h.classes := by
  obtain ⟨name, hname, hrun⟩ := exists_run_of_build hbuild
  have hsound : Growth.Sound fs f root (.ofRoot name root) :=
    Growth.sound_ofRoot (QualifiedName.ofText_eq_ok_iff.mp hname)
  have hperm := hsound.perm_expansions (fun hg => hg.size_le_capacity)
    (Growth.fuel_ofRoot _ _ le_rfl) hrun
  rw [← expansions_eq hname] at hperm
  -- The root alone was there at the start, and was waiting.
  exact (List.perm_cons root).mp (hperm.trans List.perm_append_comm)

end Hierarchy

end ClassAtlas
