import ClassAtlas.Proofs.Hierarchy.Expansions
import ClassAtlas.Proofs.History.Calls
import Mathlib.Data.Set.Card

/-! Every build comes to an end. Only names that are declared by classes to be found can become
nodes, and a node is expanded once. -/

namespace ClassAtlas

/-- The names that the classes declare which a finder can answer with. -/
def Finder.declared (fs : FileSystem) (f : Finder) : Set String :=
  {key | ∃ name c, answer (Finder.find fs name) f = .ok c ∧ c.key = key}

theorem Finder.finite_declared (fs : FileSystem) (f : Finder) : (Finder.declared fs f).Finite := by
  have hfinite : {key | key ∈ (Finder.available fs f).map Class.key}.Finite := List.finite_toSet _
  refine hfinite.subset ?_
  rintro _ ⟨name, c, hfind, rfl⟩
  exact List.mem_map_of_mem (Finder.mem_available_of_find hfind)

namespace Growth

variable {fs : FileSystem} {f s t : Finder} {root c : FoundClass} {name : QualifiedName}
  {pending : List (QualifiedName × FoundClass)} {g g' : Growth} {cs : List FoundClass}
  {outcome : Except Error ClassGraph} {fuel n : Nat}

/-- The rounds of a growing hierarchy, as many as there are until no class waits or one cannot be
expanded: the classes expanded on the way, what comes of it, and the finder that is left. -/
inductive Ends (fs : FileSystem) : Growth → Finder → List FoundClass → Except Error ClassGraph →
    Finder → Prop
  | done {g : Growth} {s : Finder} : g.pending = [] → Ends fs g s [] (.ok g.graph) s
  | failed {g : Growth} {s : Finder} {name : QualifiedName} {c : FoundClass}
    {pending : List (QualifiedName × FoundClass)} {e : Error} : g.pending = (name, c) :: pending →
    answer (expand fs name c { g with pending }) s = .error e →
    Ends fs g s [c] (.error e) (after (expand fs name c { g with pending }) s)
  | expanded {g g' : Growth} {s t : Finder} {name : QualifiedName} {c : FoundClass}
    {pending : List (QualifiedName × FoundClass)} {cs : List FoundClass}
    {outcome : Except Error ClassGraph} : g.pending = (name, c) :: pending →
    answer (expand fs name c { g with pending }) s = .ok g' →
    Ends fs g' (after (expand fs name c { g with pending }) s) cs outcome t →
    Ends fs g s (c :: cs) outcome t

theorem length_expansions_le (fuel : Nat) (g : Growth) :
    (expansions fs f fuel g).length ≤ fuel := by
  induction fuel generalizing g with
  | zero => simp [expansions]
  | succ fuel ih =>
    rcases hp : g.pending with _ | ⟨⟨name, c⟩, pending⟩
    · simp [expansions_of_no_pending hp]
    · rw [expansions_of_pending hp]
      cases answer (expand fs name c { g with pending }) f with
      | error e => simp
      | ok g₁ => simpa using ih g₁

theorem Ends.run (h : Ends fs g s cs outcome t) (hfuel : cs.length ≤ fuel) :
    answer (Growth.run fs fuel g) s = outcome ∧ after (Growth.run fs fuel g) s = t := by
  induction h generalizing fuel with
  | done hp =>
    rw [run_of_no_pending hp]
    exact ⟨rfl, rfl⟩
  | failed hp hexpand =>
    cases fuel with
    | zero => simp at hfuel
    | succ fuel =>
      rw [Growth.run, hp]
      dsimp only
      rw [answer_bind, after_bind, hexpand]
      exact ⟨rfl, rfl⟩
  | expanded hp hexpand _ ih =>
    cases fuel with
    | zero => simp at hfuel
    | succ fuel =>
      rw [Growth.run, hp]
      dsimp only
      rw [answer_bind, after_bind, hexpand]
      exact ih (by simpa using hfuel)

theorem Sound.exists_ends (h : Sound fs f root g) (hs : (Finder.alike fs).r s f)
    (hn : ∀ {g'}, Sound fs f root g' → g'.graph.nodes.size ≤ n)
    (hfuel : n + g.pending.length ≤ g.graph.nodes.size + fuel) :
    ∃ outcome t, Ends fs g s (expansions fs f fuel g) outcome t := by
  -- Fuel is left for every node that can still be added, so that it does not run out before the
  -- classes.
  induction fuel generalizing g s with
  | zero =>
    have hsize := hn h
    have hp : g.pending = [] := List.length_eq_zero_iff.mp (by omega)
    exact ⟨_, _, .done hp⟩
  | succ fuel ih =>
    rcases hp : g.pending with _ | ⟨⟨name, c⟩, pending⟩
    · rw [expansions_of_no_pending hp]
      exact ⟨_, _, .done hp⟩
    · have hanswer := (steady_expand name c { g with pending }).answer_eq hs
      rw [expansions_of_pending hp]
      cases hexpand : answer (expand fs name c { g with pending }) f with
      | error e => exact ⟨_, _, .failed hp (hanswer.trans hexpand)⟩
      | ok g₁ =>
        obtain ⟨ls, added, hls, hgrown⟩ := exists_grown_of_expand hexpand
        have hnodes : g₁.graph.nodes.size = g.graph.nodes.size + added.length := by
          simp [NameMap.size, hgrown.entries]
        have hwaiting : g₁.pending.length = added.length + pending.length := by
          simp [hgrown.pending]
        rw [hp, List.length_cons] at hfuel
        have hlater : (Finder.alike fs).r (after (expand fs name c { g with pending }) s) f :=
          (Finder.alike fs).trans ((steady_expand name c _).after_alike s) hs
        obtain ⟨outcome, t, hends⟩ := ih (h.step hp hls hgrown) hlater (by omega)
        exact ⟨outcome, t, .expanded hp (hanswer.trans hexpand) hends⟩

theorem Sound.key_of_mem_expansions (h : Sound fs f root g) (hc : c ∈ expansions fs f fuel g) :
    c.key = root.key ∨ c.key ∈ Finder.declared fs f := by
  obtain ⟨g', name, pending, hg', hp⟩ := exists_of_mem_expansions
    (fun hg hp hls hgrown => hg.step hp hls hgrown) h hc
  rcases (hg'.kin c (hg'.front hp).2).eq_or_find with rfl | ⟨-, name, hfind⟩
  · exact .inl rfl
  · exact .inr ⟨_, c, hfind, rfl⟩

end Growth

namespace Hierarchy

open Finder

variable {fs : FileSystem} {f : Finder} {root c : FoundClass}

theorem key_of_mem_expansions (hc : c ∈ expansions fs f root) :
    c.key = root.key ∨ c.key ∈ declared fs f := by
  cases hname : root.qualifiedName with
  | error n => simp [expansions, hname] at hc
  | ok name =>
    rw [expansions_eq hname] at hc
    exact (Growth.sound_ofRoot (QualifiedName.ofText_eq_ok_iff.mp hname)).key_of_mem_expansions hc

theorem length_expansions_le (fs : FileSystem) (f : Finder) (root : FoundClass) :
    (expansions fs f root).length ≤ (declared fs f).ncard + 1 := by
  have hfinite := finite_declared fs f
  have hsub : ↑((expansions fs f root).map fun c => c.key).toFinset ⊆
      insert root.key (declared fs f) := by
    intro key hkey
    obtain ⟨c, hc, rfl⟩ := List.mem_map.mp (List.mem_toFinset.mp hkey)
    exact key_of_mem_expansions hc
  calc (expansions fs f root).length
      = ((expansions fs f root).map fun c => c.key).toFinset.card := by
        rw [List.toFinset_card_of_nodup (nodup_expansions fs f root), List.length_map]
    _ ≤ (insert root.key (declared fs f)).ncard := by
        rw [← Set.ncard_coe_finset]
        exact Set.ncard_le_ncard hsub (hfinite.insert _)
    _ ≤ (declared fs f).ncard + 1 := Set.ncard_insert_le _ _

/-- The rounds of a build end, whatever the root and however the classes to be found refer to each
other. No name is expanded twice, and none that is not the root's or declared by a class to be
found. -/
theorem build_ends (fs : FileSystem) (f : Finder) (root : FoundClass) :
    ((expansions fs f root).map fun c => c.key).Nodup ∧
    (declared fs f).Finite ∧
    (expansions fs f root).length ≤ (declared fs f).ncard + 1 ∧
    ((∃ e, root.qualifiedName = .error e ∧ expansions fs f root = [] ∧
        answer (build fs root) f = .error (.badName e)) ∨
      ∃ name outcome t, root.qualifiedName = .ok name ∧
        Growth.Ends fs (.ofRoot name root)
          (after (tell s!"Started: inheritance graph for {name.normalized}") f)
          (expansions fs f root) outcome t ∧
        answer (build fs root) f = outcome >>= fun graph => ofGraph graph name) ∧
    ∀ start, answer (buildNamed fs start) f =
      answer (find fs start) f >>= fun root => answer (build fs root) f := by
  refine ⟨nodup_expansions fs f root, finite_declared fs f, length_expansions_le fs f root, ?rounds,
    fun start => (steady_find start).answer_bind steady_build f⟩
  cases hname : root.qualifiedName with
  | error e =>
    refine .inl ⟨e, rfl, by simp [expansions, hname], ?_⟩
    rw [build_eq, hname]
    rfl
  | ok name =>
    have hsound : Growth.Sound fs f root (.ofRoot name root) :=
      Growth.sound_ofRoot (QualifiedName.ofText_eq_ok_iff.mp hname)
    have htell : Steady (alike fs) (tell s!"Started: inheritance graph for {name.normalized}") :=
      steady_tell _
    have hstart := htell.after_alike f
    obtain ⟨outcome, t, hends⟩ := hsound.exists_ends hstart (fun hg => hg.size_le_capacity)
      (Growth.fuel_ofRoot name root le_rfl)
    refine .inr ⟨name, outcome, t, rfl, by rwa [expansions_eq hname], ?_⟩
    rw [answer_build hname, ← (Growth.steady_run _ _).answer_eq hstart,
      (hends.run (Growth.length_expansions_le _ _)).1]

end Hierarchy

end ClassAtlas
