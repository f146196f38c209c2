import ClassAtlas.Proofs.Finder.Failures
import ClassAtlas.Proofs.Hierarchy.Expansions
import ClassAtlas.Proofs.Hierarchy.Lineage
import ClassAtlas.Proofs.History.Calls

/-! How builds fail. Each of their errors is of a kind that lookups are expected to end with, but
for one: a class on the way up may declare a name that is no qualified name, and there a build stops
with the fault of that name. -/

namespace ClassAtlas

namespace Finder

variable {fs : FileSystem} {f : Finder} {c d : FoundClass} {e : Error}

/-- Lookups end with errors of expected kinds only. -/
def FailsAsExpected (fs : FileSystem) (f : Finder) : Prop :=
  ∀ (name : NameLike) (e : Error), answer (find fs name) f = .error e → e.kind?.isSome = true

theorem error_of_fetchAnew {r : Resolver} {key : String} (h : fetchAnew fs r key = .error e) :
    Resolver.OfFiles e ∨ (∃ text, e = .notFound text) ∨ ∃ fault, e = .decode fault := by
  rcases bind_eq_error_iff.mp h with hget | ⟨_ | resource, -, h⟩
  · exact .inl (Resolver.ofFiles_of_get hget)
  · exact .inr (.inl ⟨_, (Except.error.inj h).symm⟩)
  · dsimp only at h
    cases hread : resource.read fs with
    | error fault =>
      rw [hread] at h
      exact .inl (Except.error.inj h ▸ .entry _ _)
    | ok bytes =>
      rw [hread] at h
      dsimp only at h
      cases hclass : Class.ofBytes bytes with
      | error fault =>
        rw [hclass] at h
        exact .inr (.inr ⟨fault, (Except.error.inj h).symm⟩)
      | ok c =>
        rw [hclass] at h
        cases h

theorem error_of_find {name : NameLike} (h : answer (find fs name) f = .error e) :
    Resolver.OfFiles e ∨ (∃ text, e = .notFound text) ∨ ∃ fault, e = .decode fault := by
  rw [answer_find] at h
  split_ifs at h
  · rw [found] at h
    cases hcached : f.cache.get? (.plain (slashes name.text)) with
    | some c => simp [hcached] at h
    | none =>
      rw [hcached] at h
      exact error_of_fetchAnew h
  · exact .inr (.inl ⟨_, (Except.error.inj h).symm⟩)

theorem error_of_optional {α : Type} {x : Finding α} (h : answer (optional x) f = .error e) :
    answer x f = .error e ∧ ∀ text, e ≠ .notFound text := by
  rw [answer_optional] at h
  cases hx : answer x f with
  | ok a => simp [hx] at h
  | error e' =>
    rw [hx] at h
    cases e'
    case notFound => cases h
    all_goals
      obtain rfl := Except.error.inj h
      exact ⟨rfl, fun _ he => Error.noConfusion he⟩

theorem error_of_findSuper {c : Class} (h : answer (findSuper fs c) f = .error e) :
    (∃ name, answer (find fs name) f = .error e) ∨ ∃ text, e = .notFound text := by
  unfold findSuper at h
  cases hname : c.superName with
  | some name =>
    rw [hname] at h
    exact .inl ⟨_, h⟩
  | none =>
    rw [hname] at h
    exact .inr ⟨_, (Except.error.inj h).symm⟩

theorem error_of_findPresent {owner : Class} {names : List String}
    (h : answer (findPresent fs owner names) f = .error e) :
    ∃ name, answer (find fs name) f = .error e ∧ ∀ text, e ≠ .notFound text := by
  induction names with
  | nil => cases h
  | cons name names ih =>
    rw [answer_findPresent_cons] at h
    rcases bind_eq_error_iff.mp h with h | ⟨first, -, h⟩
    · exact ⟨_, error_of_optional h⟩
    · rcases bind_eq_error_iff.mp h with h | ⟨rest, -, h⟩
      · exact ih h
      · cases h

/-- Interfaces that are not found are left out, so their names are no failure. -/
theorem error_of_findInterfaces {c : Class} (h : answer (findInterfaces fs c) f = .error e) :
    (∃ fault, e = .decode fault) ∨
      ∃ name, answer (find fs name) f = .error e ∧ ∀ text, e ≠ .notFound text := by
  unfold findInterfaces at h
  cases hnames : c.interfaces with
  | ok names =>
    rw [hnames] at h
    exact .inr (error_of_findPresent h)
  | error fault =>
    rw [hnames] at h
    exact .inl ⟨fault, (Except.error.inj h).symm⟩

/-- A class on the way up from the root, whether it becomes a node or not. -/
inductive Reached (fs : FileSystem) (f : Finder) (root : FoundClass) : FoundClass → Prop where
  | root : Reached fs f root root
  | ancestor {c d : FoundClass} {relation : Relation} (hc : Reached fs f root c)
    (hd : DirectAncestor fs f c.toClass relation d) : Reached fs f root d

def Misnamed (c : FoundClass) (e : Error) : Prop :=
  isQualifiedName c.thisName.toList = false ∧ e = .badName (.notQualified c.thisName)

theorem misnamed_of_qualifiedName {n : NameError} (h : c.qualifiedName = .error n) :
    Misnamed c (.badName n) := by
  rw [Class.qualifiedName, QualifiedName.ofText] at h
  split_ifs at h with hvalid
  obtain rfl := Except.error.inj h
  exact ⟨by simpa using hvalid, rfl⟩

end Finder

namespace Growth

open Finder

variable {fs : FileSystem} {f : Finder} {root c : FoundClass} {name : QualifiedName}
  {relation : Relation} {g : Growth} {e : Error}

/-- The ways in which the expansion of a class fails. -/
inductive FailsAt (fs : FileSystem) (f : Finder) (c : FoundClass) : Error → Prop where
  | superclass {e : Error} (h : answer (optional (findSuper fs c.toClass)) f = .error e) :
    FailsAt fs f c e
  | interfaces {e : Error} (h : answer (findInterfaces fs c.toClass) f = .error e) :
    FailsAt fs f c e
  | repeatedEdge (source target : String) (relation : Relation) :
    FailsAt fs f c (.repeatedEdge source target relation)
  | misnamed {e : Error} {relation : Relation} {d : FoundClass}
    (hd : DirectAncestor fs f c.toClass relation d) (hname : Misnamed d e) : FailsAt fs f c e

theorem FailsAt.expected (hkinds : FailsAsExpected fs f) (h : FailsAt fs f c e) :
    e.kind?.isSome = true ∨
      ∃ relation d, DirectAncestor fs f c.toClass relation d ∧ Misnamed d e := by
  cases h with
  | superclass h =>
    rcases error_of_findSuper (error_of_optional h).1 with ⟨name, h⟩ | ⟨text, rfl⟩
    · exact .inl (hkinds _ _ h)
    · exact .inl rfl
  | interfaces h =>
    rcases error_of_findInterfaces h with ⟨fault, rfl⟩ | ⟨name, h, -⟩
    · exact .inl rfl
    · exact .inl (hkinds _ _ h)
  | repeatedEdge => exact .inl rfl
  | misnamed hd hname => exact .inr ⟨_, _, hd, hname⟩

theorem error_of_link (h : link name relation g c = .error e) :
    (∃ source target relation, e = .repeatedEdge source target relation) ∨ Misnamed c e := by
  rw [link] at h
  cases hname : c.qualifiedName with
  | error n =>
    rw [hname] at h
    obtain rfl := Except.error.inj h
    exact .inr (misnamed_of_qualifiedName hname)
  | ok target =>
    rw [hname] at h
    rcases bind_eq_error_iff.mp h with h | ⟨graph, -, h⟩
    · rw [ClassGraph.addEdge] at h
      split_ifs at h
      exact .inl ⟨_, _, _, (Except.error.inj h).symm⟩
    · cases h

theorem error_of_foldlM_link {ancestors : List FoundClass}
    (h : ancestors.foldlM (link name relation) g = .error e) :
    (∃ source target relation, e = .repeatedEdge source target relation) ∨
      ∃ d ∈ ancestors, Misnamed d e := by
  induction ancestors generalizing g with
  | nil => cases h
  | cons d ancestors ih =>
    rw [List.foldlM_cons] at h
    rcases bind_eq_error_iff.mp h with h | ⟨g', -, h⟩
    · exact (error_of_link h).imp_right fun hd => ⟨d, List.mem_cons_self, hd⟩
    · exact (ih h).imp_right fun ⟨d', hmem, hd⟩ => ⟨d', List.mem_cons_of_mem _ hmem, hd⟩

theorem error_of_expand (h : answer (expand fs name c g) f = .error e) : FailsAt fs f c e := by
  rw [answer_expand] at h
  rcases bind_eq_error_iff.mp h with h | ⟨parent, hparent, h⟩
  · exact .superclass h
  rcases bind_eq_error_iff.mp h with h | ⟨g', -, h⟩
  · rcases error_of_foldlM_link h with ⟨_, _, _, rfl⟩ | ⟨d, hd, hname⟩
    · exact .repeatedEdge _ _ _
    · rw [Option.mem_toList] at hd
      rw [hd] at hparent
      exact .misnamed (.superclass (answer_optional_eq_some_iff.mp hparent)) hname
  rcases bind_eq_error_iff.mp h with h | ⟨interfaces, hinterfaces, h⟩
  · exact .interfaces h
  · rcases error_of_foldlM_link h with ⟨_, _, _, rfl⟩ | ⟨d, hd, hname⟩
    · exact .repeatedEdge _ _ _
    · exact .misnamed (.interface hinterfaces hd) hname

/-- What waits has been reached, and what it is linked to is reached from there. -/
theorem reached_step {g' : Growth} {pending added : List (QualifiedName × FoundClass)}
    {ls : List (Relation × FoundClass)} (hg : ∀ p ∈ g.pending, Reached fs f root p.2)
    (hp : g.pending = (name, c) :: pending) (hls : links fs f c.toClass = .ok ls)
    (hgrown : Grown name.normalized ls added { g with pending } g') :
    ∀ p ∈ g'.pending, Reached fs f root p.2 := by
  have hc : Reached fs f root c := hg (name, c) (by simp [hp])
  intro p hmem
  rcases hgrown.mem_pending_iff.mp hmem with hmem | hmem
  · obtain ⟨relation, hl⟩ := hgrown.linked p hmem
    exact hc.ancestor ((directAncestor_iff hls).mpr hl)
  · exact hg p (by simp [hp, hmem])

theorem reached_ofRoot (name : QualifiedName) (root : FoundClass) :
    ∀ p ∈ (ofRoot name root).pending, Reached fs f root p.2 := by
  intro p hp
  obtain rfl := List.mem_singleton.mp hp
  exact .root

theorem qualified_step {g' : Growth} {pending added : List (QualifiedName × FoundClass)}
    {ls : List (Relation × FoundClass)}
    (hg : ∀ c ∈ g.graph.classes, isQualifiedName c.thisName.toList = true)
    (hgrown : Grown name.normalized ls added { g with pending } g') :
    ∀ c ∈ g'.graph.classes, isQualifiedName c.thisName.toList = true := by
  intro d hd
  rcases hgrown.mem_classes_iff.mp hd with hd | ⟨p, hp, rfl⟩
  · exact hg d hd
  · rw [← hgrown.named p hp]
    exact p.1.valid

theorem qualified_of_key {d : FoundClass} (hkey : c.key = d.key)
    (hc : isQualifiedName c.thisName.toList = true) : isQualifiedName d.thisName.toList = true := by
  have hsame : slashes c.thisName = slashes d.thisName := hkey
  rwa [← isQualifiedName_slashes, ← hsame, isQualifiedName_slashes]

end Growth

namespace Hierarchy

open Finder

variable {fs : FileSystem} {f : Finder} {root : FoundClass} {e : Error}

theorem build_of_misnamed (hname : isQualifiedName root.thisName.toList = false) :
    answer (build fs root) f = .error (.badName (.notQualified root.thisName)) := by
  have hroot : root.qualifiedName = .error (.notQualified root.thisName) := by
    rw [Class.qualifiedName, QualifiedName.ofText, dif_neg (by simp [hname])]
  rw [build_eq, hroot]
  rfl

/-- A build fails for the name of its root, or at a class that it reaches. -/
theorem failsAt_of_build (h : answer (build fs root) f = .error e) :
    Misnamed root e ∨ ∃ c, Reached fs f root c ∧ Growth.FailsAt fs f c e := by
  rcases run_of_build_error h with ⟨n, hname, rfl⟩ | ⟨name, -, hrun⟩
  · exact .inl (misnamed_of_qualifiedName hname)
  · obtain ⟨g, name', c, pending, hreached, hp, hexpand, -⟩ :=
      Growth.exists_of_run_error (fun hg hp hls hgrown => Growth.reached_step hg hp hls hgrown)
        (Growth.reached_ofRoot name root) hrun
    exact .inr ⟨c, hreached (name', c) (by simp [hp]), Growth.error_of_expand hexpand⟩

theorem error_of_build (hkinds : FailsAsExpected fs f) (h : answer (build fs root) f = .error e) :
    e.kind?.isSome = true ∨ ∃ c, Reached fs f root c ∧ Misnamed c e := by
  rcases failsAt_of_build h with hname | ⟨c, hc, hfails⟩
  · exact .inr ⟨root, .root, hname⟩
  · exact (hfails.expected hkinds).imp_right fun ⟨_, d, hd, hname⟩ => ⟨d, hc.ancestor hd, hname⟩

theorem qualified_of_build {h : Hierarchy} (hbuild : answer (build fs root) f = .ok h) :
    ∀ c ∈ h.graph.classes, isQualifiedName c.thisName.toList = true := by
  obtain ⟨name, hname, hrun⟩ := exists_run_of_build hbuild
  have htext : name.text = root.thisName := QualifiedName.ofText_eq_ok_iff.mp hname
  have hstart : ∀ c ∈ (Growth.ofRoot name root).graph.classes,
      isQualifiedName c.thisName.toList = true := by
    intro c hc
    obtain rfl := List.mem_singleton.mp hc
    exact htext ▸ name.valid
  obtain ⟨g, hg, hgraph⟩ := Growth.exists_of_run
    (fun hg _ _ hgrown => Growth.qualified_step hg hgrown) hstart hrun
  exact hgraph ▸ hg

theorem qualified_of_directAncestor {h : Hierarchy} (hbuild : answer (build fs root) f = .ok h)
    {c d : FoundClass} {relation : Relation} (hc : c ∈ h.graph.classes)
    (hd : DirectAncestor fs f c.toClass relation d) : isQualifiedName d.thisName.toList = true := by
  obtain ⟨-, hsound⟩ := Growth.Sound.of_build hbuild
  have hedge := hsound.edge_of_directAncestor hc hd
  obtain ⟨c', hc', hkey⟩ := hsound.class_of_name (hsound.targets _ hedge)
  exact Growth.qualified_of_key hkey (qualified_of_build hbuild c' hc')

/-- Where lookups fail as expected, builds do so too unless a class on the way up declares no
qualified name. The name of the root is the first one looked at, and where a build goes through, the
names of the nodes and of all their direct ancestors are qualified. -/
theorem build_failures (hkinds : FailsAsExpected fs f) (root : FoundClass) :
    (∀ e, answer (build fs root) f = .error e →
      e.kind?.isSome = true ∨ ∃ c, Reached fs f root c ∧ Misnamed c e) ∧
    (∀ name e, answer (buildNamed fs name) f = .error e → e.kind?.isSome = true ∨
      ∃ root c, answer (find fs name) f = .ok root ∧ Reached fs f root c ∧ Misnamed c e) ∧
    (isQualifiedName root.thisName.toList = false →
      answer (build fs root) f = .error (.badName (.notQualified root.thisName))) ∧
    ∀ h, answer (build fs root) f = .ok h → ∀ c ∈ h.graph.classes,
      isQualifiedName c.thisName.toList = true ∧ ∀ relation d,
        DirectAncestor fs f c.toClass relation d → isQualifiedName d.thisName.toList = true := by
  refine ⟨fun e => error_of_build hkinds, fun name e h => ?named, build_of_misnamed,
    fun h hbuild c hc => ⟨qualified_of_build hbuild c hc, fun relation d =>
      qualified_of_directAncestor hbuild hc⟩⟩
  case named =>
    rw [buildNamed, (steady_find name).answer_bind steady_build] at h
    rcases bind_eq_error_iff.mp h with h | ⟨root, hroot, h⟩
    · exact .inl (hkinds _ _ h)
    · exact (error_of_build hkinds h).imp_right fun ⟨c, hc, hname⟩ => ⟨root, c, hroot, hc, hname⟩

/-- A class file of a class by the name of `1`. -/
def oddFile : List UInt8 :=
  [0xCA, 0xFE, 0xBA, 0xBE, 0, 0, 0, 52, 0, 3, 1, 0, 1, 0x31, 7, 0, 1, 0, 0x21, 0, 2, 0,
    0, 0, 0, 0, 0, 0, 0, 0, 0]

def noFinder : Finder :=
  .new ⟨[]⟩ (.silent "engine")

theorem failsAsExpected_noFinder (fs : FileSystem) : FailsAsExpected fs noFinder := by
  intro name e h
  rw [answer_find] at h
  split_ifs at h
  · obtain rfl := Except.error.inj h
    rfl
  · obtain rfl := Except.error.inj h
    rfl

theorem exists_oddRoot : ∃ root, FoundClass.ofBytes oddFile = .ok root ∧ root.thisName = "1" ∧
    isQualifiedName root.thisName.toList = false := by
  have hname : (FoundClass.ofBytes oddFile).toOption.map (fun c => c.thisName) = some "1" := by
    decide +kernel
  obtain ⟨root, hroot, hname⟩ := Option.map_eq_some_iff.mp hname
  refine ⟨root, toOption_eq_some_iff.mp hroot, hname, ?_⟩
  rw [hname]
  decide

theorem build_failures_odd : FailsAsExpected (.empty []) noFinder ∧
    ∃ root, FoundClass.ofBytes oddFile = .ok root ∧
      answer (build (.empty []) root) noFinder = .error (.badName (.notQualified "1")) := by
  obtain ⟨root, hroot, hname, hodd⟩ := exists_oddRoot
  have hbuild := (build_failures (failsAsExpected_noFinder (.empty [])) root).2.2.1 hodd
  exact ⟨failsAsExpected_noFinder _, root, hroot, hname ▸ hbuild⟩

/-- Builds may fail in ways that lookups do not. -/
theorem not_all_expected : ¬ ∀ (fs : FileSystem) (f : Finder), FailsAsExpected fs f →
    (∀ (bytes : List UInt8) (root : FoundClass) (e : Error), FoundClass.ofBytes bytes = .ok root →
      answer (build fs root) f = .error e → e.kind?.isSome = true) ∧
    ∀ (name : NameLike) (e : Error),
      answer (buildNamed fs name) f = .error e → e.kind?.isSome = true := by
  intro h
  obtain ⟨root, hroot, -, hodd⟩ := exists_oddRoot
  have hkind := (h (.empty []) noFinder (failsAsExpected_noFinder _)).1 oddFile root _ hroot
    (build_of_misnamed hodd)
  cases hkind

end Hierarchy

end ClassAtlas
