import ClassAtlas.Proofs.Hierarchy.BuildSteady

/-! Calls on one finder, or on one resolver, one after the other. While the files stay as they are,
what the calls before have left behind changes none of the answers: each is the one that a new
finder gives. -/

namespace ClassAtlas

namespace Resolver

/-- What can be asked of a resolver. -/
inductive Call where
  | get (relative : String)
  | close

def Call.next (fs : FileSystem) (r : Resolver) : Call → Resolver
  | .get relative => after (Resolver.get fs relative) r
  | .close => r.close

/-- A resolver after some calls, each with the files there were at the time. -/
def live (history : List (FileSystem × Call)) (r : Resolver) : Resolver :=
  history.foldl (fun r e => e.2.next e.1 r) r

variable {fs : FileSystem} {r : Resolver} {classpath : Classpath} {journal : Log.Journal}

theorem alike_new (journal' : Log.Journal) :
    (alike fs).r (new classpath journal) (new classpath journal') :=
  ⟨rfl, rfl, rfl⟩

/-- Only what would be opened anew is forgotten. -/
theorem close_alike (h : (alike fs).r r (new classpath journal)) :
    (alike fs).r r.close (new classpath journal) :=
  ⟨h.1, rfl, h.2.2⟩

theorem Call.next_alike (h : (alike fs).r r (new classpath journal)) (call : Call) :
    (alike fs).r (call.next fs r) (new classpath journal) := by
  cases call with
  | get relative => exact (alike fs).trans ((steady_get relative).after_alike r) h
  | close => exact close_alike h

theorem live_alike (h : (alike fs).r r (new classpath journal)) (calls : List Call) :
    (alike fs).r (live (calls.map (Prod.mk fs)) r) (new classpath journal) := by
  induction calls generalizing r with
  | nil => exact h
  | cons call calls ih => exact ih (call.next_alike h)

end Resolver

namespace Finder

/-- What can be asked of a finder. Hierarchies are built of classes at hand or by name. -/
inductive Call where
  | find (name : NameLike)
  | findOptional (name : NameLike)
  | findSuper (c : Class)
  | findInterfaces (c : Class)
  | isCached (name : NameLike)
  | build (root : FoundClass)
  | buildNamed (name : NameLike)
  | close

/-- The hierarchy of the class of a name. -/
def buildNamed (fs : FileSystem) (name : NameLike) : Finding Hierarchy := do
  Hierarchy.build fs (← find fs name)

def Call.next (fs : FileSystem) (f : Finder) : Call → Finder
  | .find name => after (Finder.find fs name) f
  | .findOptional name => after (optional (Finder.find fs name)) f
  | .findSuper c => after (Finder.findSuper fs c) f
  | .findInterfaces c => after (Finder.findInterfaces fs c) f
  | .isCached _ => f
  | .build root => after (Hierarchy.build fs root) f
  | .buildNamed name => after (Finder.buildNamed fs name) f
  | .close => f.close

/-- A finder after some calls, each with the files there were at the time. -/
def live (history : List (FileSystem × Call)) (f : Finder) : Finder :=
  history.foldl (fun f e => e.2.next e.1 f) f

variable {fs : FileSystem} {f : Finder} {classpath : Classpath} {journal : Log.Journal}

theorem steady_buildNamed (name : NameLike) : Steady (alike fs) (buildNamed fs name) :=
  (steady_find name).bind Hierarchy.steady_build

theorem alike_new (journal' : Log.Journal) :
    (alike fs).r (new classpath journal) (new classpath journal') :=
  alike_of_cache (Resolver.alike_new journal') rfl

theorem close_alike (h : (alike fs).r f (new classpath journal)) :
    (alike fs).r f.close (new classpath journal) := by
  have hresolver : (Resolver.alike fs).r f.close.resolver (new classpath journal).resolver :=
    Resolver.close_alike h.1
  have hsame : (Resolver.alike fs).r f.close.resolver f.resolver :=
    (Resolver.alike fs).trans hresolver ((Resolver.alike fs).symm h.1)
  refine ⟨hresolver, Eq.trans (funext fun key => ?_) h.2⟩
  rw [found, found, fetchAnew_eq hsame]
  rfl

/-- Every call but closing only adds to what is kept. -/
theorem Call.next_alike_self (f : Finder) (call : Call) (h : call ≠ .close) :
    (alike fs).r (call.next fs f) f := by
  cases call with
  | find name => exact (steady_find name).after_alike f
  | findOptional name => exact (steady_optional (steady_find name)).after_alike f
  | findSuper c => exact (steady_findSuper c).after_alike f
  | findInterfaces c => exact (steady_findInterfaces c).after_alike f
  | isCached name => exact (alike fs).refl f
  | build root => exact (Hierarchy.steady_build root).after_alike f
  | buildNamed name => exact (steady_buildNamed name).after_alike f
  | close => exact absurd rfl h

theorem Call.next_alike (h : (alike fs).r f (new classpath journal)) (call : Call) :
    (alike fs).r (call.next fs f) (new classpath journal) := by
  by_cases hclose : call = .close
  · subst hclose
    exact close_alike h
  · exact (alike fs).trans (call.next_alike_self f hclose) h

theorem live_alike (h : (alike fs).r f (new classpath journal)) (calls : List Call) :
    (alike fs).r (live (calls.map (Prod.mk fs)) f) (new classpath journal) := by
  induction calls generalizing f with
  | nil => exact h
  | cons call calls ih => exact ih (call.next_alike h)

/-- Nothing that a finder or a resolver keeps can be told from its answers: after any calls it
answers like a new one for the same classpath. -/
theorem live_answers_as_new (fs : FileSystem) (classpath : Classpath)
    (journal journal' : Log.Journal) :
    (∀ calls : List Call,
      let f := live (calls.map (Prod.mk fs)) (new classpath journal)
      let anew := new classpath journal'
      (∀ name, answer (find fs name) f = answer (find fs name) anew) ∧
      (∀ name, answer (optional (find fs name)) f = answer (optional (find fs name)) anew) ∧
      (∀ c, answer (findSuper fs c) f = answer (findSuper fs c) anew) ∧
      (∀ c, answer (findInterfaces fs c) f = answer (findInterfaces fs c) anew) ∧
      (∀ root, answer (Hierarchy.build fs root) f = answer (Hierarchy.build fs root) anew) ∧
      ∀ name, answer (buildNamed fs name) f = answer (buildNamed fs name) anew) ∧
    ∀ (calls : List Resolver.Call) (relative : String),
      answer (Resolver.get fs relative)
          (Resolver.live (calls.map (Prod.mk fs)) (Resolver.new classpath journal)) =
        answer (Resolver.get fs relative) (Resolver.new classpath journal') := by
  constructor
  · intro calls f anew
    have halike : (alike fs).r f anew := live_alike (alike_new journal') calls
    have hsame {α : Type} {x : Finding α} (hx : Steady (alike fs) x) : answer x f = answer x anew :=
      hx.answer_eq halike
    refine ⟨?find, ?optional, ?findSuper, ?findInterfaces, ?build, ?buildNamed⟩
    case find => exact fun name => hsame (steady_find name)
    case optional => exact fun name => hsame (steady_optional (steady_find name))
    case findSuper => exact fun c => hsame (steady_findSuper c)
    case findInterfaces => exact fun c => hsame (steady_findInterfaces c)
    case build => exact fun root => hsame (Hierarchy.steady_build root)
    case buildNamed => exact fun name => hsame (steady_buildNamed name)
  · intro calls relative
    exact (Resolver.steady_get relative).answer_eq
      (Resolver.live_alike (Resolver.alike_new journal') calls)

end Finder

end ClassAtlas
