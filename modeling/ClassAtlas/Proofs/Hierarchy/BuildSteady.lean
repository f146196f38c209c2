import ClassAtlas.Proofs.Hierarchy.Growth

/-! Building a hierarchy is steady. The fuel of a build comes from what its finder keeps, but there
is always enough of it, so no more of it changes anything. -/

namespace ClassAtlas

namespace Growth

variable {fs : FileSystem} {f : Finder} {root : FoundClass} {g : Growth}

theorem run_of_no_pending (hp : g.pending = []) (fuel : Nat) : run fs fuel g = pure g.graph := by
  cases fuel with
  | zero => rfl
  | succ fuel => rw [run, hp]

theorem run_of_pending {name : QualifiedName} {c : FoundClass}
    {pending : List (QualifiedName × FoundClass)} (hp : g.pending = (name, c) :: pending)
    (fuel : Nat) : answer (run fs (fuel + 1) g) f =
      answer (expand fs name c { g with pending }) f >>= fun g' => answer (run fs fuel g') f := by
  rw [run, hp]
  exact (steady_expand name c _).answer_bind (steady_run fuel) f

/-- With fuel for all nodes there can be, it does not matter how much there is. -/
theorem Sound.run_eq {n fuel fuel' : Nat} (h : Sound fs f root g)
    (hn : ∀ {g'}, Sound fs f root g' → g'.graph.nodes.size ≤ n)
    (hfuel : n + g.pending.length ≤ g.graph.nodes.size + fuel)
    (hfuel' : n + g.pending.length ≤ g.graph.nodes.size + fuel') :
    answer (Growth.run fs fuel g) f = answer (Growth.run fs fuel' g) f := by
  induction fuel generalizing g fuel' with
  | zero =>
    have hsize := hn h
    have hp : g.pending = [] := List.length_eq_zero_iff.mp (by omega)
    rw [run_of_no_pending hp, run_of_no_pending hp]
  | succ fuel ih =>
    have hsize := hn h
    rcases hp : g.pending with _ | ⟨⟨name, c⟩, pending⟩
    · rw [run_of_no_pending hp, run_of_no_pending hp]
    · rw [hp, List.length_cons] at hfuel hfuel'
      obtain ⟨fuel', rfl⟩ : ∃ k, fuel' = k + 1 := ⟨fuel' - 1, by omega⟩
      rw [run_of_pending hp, run_of_pending hp]
      rcases hexpand : answer (expand fs name c { g with pending }) f with e | g₁
      · rfl
      · obtain ⟨ls, added, hls, hgrown⟩ := exists_grown_of_expand hexpand
        -- Every node that is added waits, so the fuel left over is enough again.
        have hnodes : g₁.graph.nodes.size = g.graph.nodes.size + added.length := by
          simp [NameMap.size, hgrown.entries]
        have hwaiting : g₁.pending.length = added.length + pending.length := by
          simp [hgrown.pending]
        exact ih (h.step hp hls hgrown) (by omega) (by omega)

variable {s t : Finder} {stops : Error → Prop}

theorem answer_expand_congr (h : Finder.FindsAlike stops fs s t)
    (hstops : ∀ text, ¬stops (.notFound text)) (name : QualifiedName) (c : FoundClass)
    (g : Growth) :
    EqUnless stops (answer (expand fs name c g) s) (answer (expand fs name c g) t) := by
  rw [answer_expand, answer_expand]
  exact (Finder.eqUnless_optional hstops (h.answer_findSuper c.toClass)).bind fun parent =>
    .bind_same _ fun g => (h.answer_findInterfaces hstops c.toClass).bind fun _ => .of_eq rfl

theorem answer_run_congr (h : Finder.FindsAlike stops fs s t)
    (hstops : ∀ text, ¬stops (.notFound text)) (fuel : Nat) (g : Growth) :
    EqUnless stops (answer (run fs fuel g) s) (answer (run fs fuel g) t) := by
  induction fuel generalizing g with
  | zero => exact .of_eq rfl
  | succ fuel ih =>
    rcases hp : g.pending with _ | ⟨⟨name, c⟩, pending⟩
    · rw [run_of_no_pending hp]
      exact .of_eq rfl
    · rw [run_of_pending hp, run_of_pending hp]
      exact (answer_expand_congr h hstops name c _).bind ih

theorem run_capacity_eq {name : QualifiedName} (hname : name.text = root.thisName) {fuel : Nat}
    (hfuel : f.capacity fs + 1 ≤ fuel) :
    answer (run fs (f.capacity fs + 1) (ofRoot name root)) f =
      answer (run fs fuel (ofRoot name root)) f :=
  (sound_ofRoot hname).run_eq Sound.size_le_capacity (fuel_ofRoot name root le_rfl)
    (fuel_ofRoot name root hfuel)

end Growth

variable {fs : FileSystem}

namespace Hierarchy

/-- What a build does with the graph in the end. -/
def conclude (name : QualifiedName) (graph : ClassGraph) : Finding Hierarchy := do
  Finder.report Log.info (.text (s!"Inheritance graph for {name.normalized}: " ++
    s!"{graph.nodes.size} classes, {graph.edges.length} edges")) []
  liftExcept (Hierarchy.ofGraph graph name)

/-- A build with fuel that is given to it. -/
def buildWithin (fs : FileSystem) (fuel : Nat) (name : QualifiedName) (root : FoundClass) :
    Finding Hierarchy :=
  Finder.timed s!"inheritance graph for {name.normalized}"
    (Growth.run fs fuel (.ofRoot name root)) >>= conclude name

theorem build_eq (root : FoundClass) : build fs root =
    match root.qualifiedName with
    | .error e => throw (.badName e)
    | .ok name => MonadState.get >>= fun f => buildWithin fs (f.capacity fs + 1) name root := rfl

theorem steady_conclude (name : QualifiedName) (graph : ClassGraph) :
    Steady (Finder.alike fs) (conclude name graph) :=
  (Finder.steady_report _ _ _).bind fun _ => .liftExcept _ _

theorem steady_timedRun (label : String) (fuel : Nat) (g : Growth) :
    Steady (Finder.alike fs) (Finder.timed label (Growth.run fs fuel g)) :=
  Finder.steady_timed (Growth.steady_run fuel g) label

theorem answer_buildWithin (fuel : Nat) (name : QualifiedName) (root : FoundClass) (f : Finder) :
    answer (buildWithin fs fuel name root) f =
      answer (Growth.run fs fuel (.ofRoot name root)) f >>= fun graph => ofGraph graph name := by
  rw [buildWithin, (steady_timedRun _ _ _).answer_bind (steady_conclude name),
    Finder.answer_timed (Growth.steady_run _ _)]
  exact congrArg _ (funext fun graph => answer_liftExcept _ _)

theorem steady_buildWithin (fuel : Nat) (name : QualifiedName) (root : FoundClass) :
    Steady (Finder.alike fs) (buildWithin fs fuel name root) :=
  (steady_timedRun _ _ _).bind (steady_conclude name)

theorem answer_build {root : FoundClass} {name : QualifiedName}
    (hname : root.qualifiedName = .ok name) (f : Finder) : answer (build fs root) f =
      answer (Growth.run fs (f.capacity fs + 1) (.ofRoot name root)) f >>= fun graph =>
        ofGraph graph name := by
  rw [build_eq, hname]
  dsimp only
  rw [answer_get_bind, answer_buildWithin]

theorem exists_run_of_build {root : FoundClass} {f : Finder} {h : Hierarchy}
    (hbuild : answer (build fs root) f = .ok h) : ∃ name, root.qualifiedName = .ok name ∧
      answer (Growth.run fs (f.capacity fs + 1) (.ofRoot name root)) f = .ok h.graph := by
  cases hname : root.qualifiedName with
  | error n =>
    rw [build_eq, hname] at hbuild
    cases hbuild
  | ok name =>
    rw [answer_build hname] at hbuild
    obtain ⟨graph, hrun, hbuild⟩ := bind_eq_ok_iff.mp hbuild
    rw [ofGraph] at hbuild
    split_ifs at hbuild
    obtain rfl := Except.ok.inj hbuild
    exact ⟨name, rfl, hrun⟩

/-- What is wrong with a build is the name of its root or shows in its run. -/
theorem run_of_build_error {root : FoundClass} {f : Finder} {e : Error}
    (hbuild : answer (build fs root) f = .error e) :
    (∃ n, root.qualifiedName = .error n ∧ e = .badName n) ∨
      ∃ name, root.qualifiedName = .ok name ∧
        answer (Growth.run fs (f.capacity fs + 1) (.ofRoot name root)) f = .error e := by
  cases hname : root.qualifiedName with
  | error n =>
    rw [build_eq, hname] at hbuild
    exact .inl ⟨n, rfl, (Except.error.inj hbuild).symm⟩
  | ok name =>
    rw [answer_build hname] at hbuild
    rcases bind_eq_error_iff.mp hbuild with hrun | ⟨graph, hrun, hend⟩
    · exact .inr ⟨name, rfl, hrun⟩
    -- The root is a node of every finished graph.
    · have htext : name.text = root.thisName := QualifiedName.ofText_eq_ok_iff.mp hname
      have hrooted : graph.contains name = true := (Growth.Sound.of_run htext hrun).rooted htext
      rw [ofGraph, dif_pos hrooted] at hend
      cases hend

/-- A hierarchy depends on nothing but what is found. -/
theorem answer_build_congr {s t : Finder} {stops : Error → Prop}
    (h : Finder.FindsAlike stops fs s t) (hstops : ∀ text, ¬stops (.notFound text))
    (root : FoundClass) :
    EqUnless stops (answer (build fs root) s) (answer (build fs root) t) := by
  rcases hq : root.qualifiedName with e | name
  · rw [build_eq, hq]
    exact .of_eq rfl
  · have hname : name.text = root.thisName := QualifiedName.ofText_eq_ok_iff.mp hq
    -- Each has fuel of its own, and both have enough of what the larger one has.
    rw [answer_build hq, answer_build hq,
      Growth.run_capacity_eq hname (Nat.le_max_left _ (t.capacity fs + 1)),
      Growth.run_capacity_eq hname (Nat.le_max_right (s.capacity fs + 1) _)]
    exact (Growth.answer_run_congr h hstops _ _).bind fun _ => .of_eq rfl

theorem steady_build (root : FoundClass) : Steady (Finder.alike fs) (build fs root) where
  after_alike s := by
    rcases hq : root.qualifiedName with e | name
    · rw [build_eq, hq]
      exact (Finder.alike fs).refl s
    · rw [build_eq, hq]
      exact (steady_buildWithin (s.capacity fs + 1) name root).after_alike s
  answer_eq h := (answer_build_congr (.of_alike h) (fun _ => not_false) root).eq fun _ => not_false

end Hierarchy

end ClassAtlas
