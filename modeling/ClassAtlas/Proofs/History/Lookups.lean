import ClassAtlas.Proofs.History.Calls

/-! The names that calls on a finder look up, and what those lookups leave in its cache: the classes
that are found, each under the slashed form of its name and none under a name kept already. -/

namespace ClassAtlas

namespace Finder

variable (fs : FileSystem) (f : Finder)

/-- The classes that are found for some names, each with the slashed form of its name. -/
def foundFor (names : List NameLike) : List (String × FoundClass) :=
  names.filterMap fun name => (answer (find fs name) f).toOption.map (Prod.mk (slashes name.text))

/-- What is looked up next if a step succeeds. -/
def lookupsAfter {ε α : Type} (result : Except ε α) (next : α → List NameLike) : List NameLike :=
  result.toOption.elim [] next

def superLookups (c : Class) : List NameLike :=
  (c.superName.map NameLike.plain).toList

/-- A name that is not found does not keep the next ones from being looked up; any other failure
does. -/
def presentLookups : List String → List NameLike
  | [] => []
  | name :: names => .plain name ::
      lookupsAfter (answer (optional (find fs (.plain name))) f) fun _ => presentLookups names

def interfaceLookups (c : Class) : List NameLike :=
  lookupsAfter c.interfaces (presentLookups fs f)

end Finder

namespace Growth

variable (fs : FileSystem) (f : Finder)

def expandLookups (name : QualifiedName) (c : FoundClass) (g : Growth) : List NameLike :=
  Finder.superLookups c.toClass ++
    Finder.lookupsAfter (answer (Finder.optional (Finder.findSuper fs c.toClass)) f) fun parent =>
      Finder.lookupsAfter (parent.toList.foldlM (link name .superclass) g) fun _ =>
        Finder.interfaceLookups fs f c.toClass

def runLookups : (fuel : Nat) → Growth → List NameLike
  | 0, _ => []
  | fuel + 1, g =>
    match g.pending with
    | [] => []
    | (name, c) :: pending =>
      expandLookups fs f name c { g with pending } ++
        Finder.lookupsAfter (answer (expand fs name c { g with pending }) f) (runLookups fuel)

end Growth

namespace Finder

def buildLookups (fs : FileSystem) (f : Finder) (root : FoundClass) : List NameLike :=
  lookupsAfter root.qualifiedName fun name =>
    Growth.runLookups fs f (f.capacity fs + 1) (.ofRoot name root)

/-- The names that a call looks up, in order. -/
def Call.lookups (fs : FileSystem) (f : Finder) : Call → List NameLike
  | .find name => [name]
  | .findOptional name => [name]
  | .findSuper c => superLookups c
  | .findInterfaces c => interfaceLookups fs f c
  | .isCached _ => []
  | .build root => buildLookups fs f root
  | .buildNamed name => name ::
      lookupsAfter (answer (Finder.find fs name) f)
        (buildLookups fs (after (Finder.find fs name) f))
  | .close => []

/-- The classes found in the course of some calls, also by calls that fail in the end. -/
def foundThrough : List (FileSystem × Call) → Finder → List (String × FoundClass)
  | [], _ => []
  | (fs, call) :: history, f =>
    foundFor fs f (call.lookups fs f) ++ foundThrough history (call.next fs f)

/-- A cache that keeps just what has been found, each name once and with the class that was found
for it. -/
structure Keeps (found : List (String × FoundClass)) (cache : NameMap FoundClass) : Prop where
  nodup : cache.names.Nodup
  mem_names : ∀ key, key ∈ cache.names ↔ key ∈ found.map Prod.fst
  get : ∀ p ∈ found, cache.get? (.plain p.1) = some p.2
  valid : ∀ p ∈ found, isQualifiedName p.1.toList = true

variable {fs : FileSystem} {f : Finder} {found more : List (String × FoundClass)} {α β : Type}
  {before middle later : NameMap FoundClass}

theorem keeps_empty : Keeps [] .empty where
  nodup := .nil
  mem_names _ := Iff.rfl
  get _ hp := by cases hp
  valid _ hp := by cases hp

theorem find_of_kept (fs : FileSystem) {name : NameLike} {span : NameSpan} {c : FoundClass}
    (hspan : name.toSpan = .ok span) (hkept : f.cache.get? (.owned span.toOwned) = some c) :
    answer (find fs name) f = .ok c ∧ after (find fs name) f = f := by
  rw [find, hspan]
  show answer (get >>= _) f = _ ∧ after (get >>= _) f = _
  rw [answer_get_bind, after_get_bind, hkept]
  exact ⟨rfl, rfl⟩

theorem find_of_missing (fs : FileSystem) {name : NameLike} {span : NameSpan}
    (hspan : name.toSpan = .ok span) (hmiss : f.cache.get? (.owned span.toOwned) = none) :
    answer (find fs name) f = fetchAnew fs f.resolver span.toOwned.normalized ∧
      (after (find fs name) f).cache =
        match fetchAnew fs f.resolver span.toOwned.normalized with
        | .ok c => f.cache.put (.owned span.toOwned) c
        | .error _ => f.cache := by
  rw [find, hspan]
  show answer (get >>= _) f = _ ∧ (after (get >>= _) f).cache = _
  rw [answer_get_bind, after_get_bind, hmiss]
  let operation := some s!"find {span.toOwned.normalized}"
  have hfetch := fetch_spec fs span.toOwned (f.setOperation operation)
  rw [fetchAnew_setOperation] at hfetch
  exact ⟨hfetch.1, hfetch.2.2⟩

/-- A lookup leaves the cache alone or puts a class in it, which it found under a name that was not
there. -/
theorem cache_after_find (fs : FileSystem) (name : NameLike) (f : Finder) :
    ((after (find fs name) f).cache = f.cache ∧ ∀ c, answer (find fs name) f = .ok c →
      f.cache.get? (.plain (slashes name.text)) = some c) ∨
    ∃ (n : QualifiedName) (c : FoundClass), n.normalized = slashes name.text ∧
      n.normalized ∉ f.cache.names ∧ answer (find fs name) f = .ok c ∧
      (after (find fs name) f).cache = f.cache.put (.owned n) c := by
  obtain ⟨span, hspan, htext⟩ | ⟨⟨e, he⟩, -⟩ := name.toSpan_owned
  · have hkey : span.toOwned.normalized = slashes name.text := by
      rw [QualifiedName.normalized_eq, htext]
    cases hget : f.cache.get? (.owned span.toOwned) with
    | some kept =>
      obtain ⟨hanswer, hafter⟩ := find_of_kept fs hspan hget
      have hplain : f.cache.get? (.plain (slashes name.text)) = some kept :=
        hget ▸ NameMap.get?_eq_of_key hkey.symm
      refine .inl ⟨by rw [hafter], fun c hc => ?_⟩
      rw [hplain, Except.ok.inj (hanswer.symm.trans hc)]
    | none =>
      obtain ⟨hanswer, hcache⟩ := find_of_missing fs hspan hget
      cases hnew : fetchAnew fs f.resolver span.toOwned.normalized with
      | error e =>
        rw [hnew] at hanswer hcache
        refine .inl ⟨hcache, fun c hc => ?_⟩
        cases hanswer.symm.trans hc
      | ok c =>
        rw [hnew] at hanswer hcache
        exact .inr ⟨_, c, hkey, NameMap.get?_eq_none_iff.mp hget, hanswer, hcache⟩
  · rw [find, he]
    exact .inl ⟨rfl, fun c hc => by cases hc⟩

theorem names_of_entries {added : List (NameLike × FoundClass)}
    (h : later.entries = before.entries ++ added) :
    later.names = before.names ++ added.map fun e => e.1.key := by
  rw [NameMap.names, h, List.map_append]
  rfl

/-- A cache that has taken in what was found. Behind the classes it had stand those that were found
under other names, in their order and each name once. -/
structure Gained (found : List (String × FoundClass)) (before later : NameMap FoundClass) :
    Prop where
  exists_added : ∃ added, later.entries = before.entries ++ added ∧
    (added.map fun e => (e.1.key, e.2)).Sublist found ∧ (added.map fun e => e.1.key).Nodup ∧
    ∀ e ∈ added, e.1.key ∉ before.names
  mem_names : ∀ key, key ∈ later.names ↔ key ∈ before.names ∨ key ∈ found.map Prod.fst
  get : ∀ p ∈ found, later.get? (.plain p.1) = some p.2

namespace Gained

theorem refl (cache : NameMap FoundClass) : Gained [] cache cache where
  exists_added := ⟨[], (List.append_nil _).symm, .slnil, .nil, by simp⟩
  mem_names key := by simp
  get p hp := by cases hp

/-- What a cache had answers as before. -/
theorem get_of_before (h : Gained found before later) {name : NameLike} {c : FoundClass}
    (hget : before.get? name = some c) : later.get? name = some c := by
  obtain ⟨added, hentries, -⟩ := h.exists_added
  obtain ⟨e, he, hc⟩ := Option.map_eq_some_iff.mp hget
  rw [NameMap.get?, hentries, List.find?_append, he]
  exact congrArg some hc

theorem trans (h : Gained found before middle) (h' : Gained more middle later) :
    Gained (found ++ more) before later where
  exists_added := by
    obtain ⟨added, hentries, hsub, hnodup, hnew⟩ := h.exists_added
    obtain ⟨added', hentries', hsub', hnodup', hnew'⟩ := h'.exists_added
    have hmiddle := names_of_entries hentries
    refine ⟨added ++ added', by rw [hentries', hentries, List.append_assoc], ?_, ?_, ?_⟩
    · rw [List.map_append]
      exact hsub.append hsub'
    · rw [List.map_append]
      refine List.nodup_append.mpr ⟨hnodup, hnodup', ?_⟩
      rintro key hkey _ hkey' rfl
      obtain ⟨e, he, hkey'⟩ := List.mem_map.mp hkey'
      refine hnew' e he ?_
      rw [hmiddle, hkey']
      exact List.mem_append_right _ hkey
    · intro e he
      rcases List.mem_append.mp he with he | he
      · exact hnew e he
      · intro hmem
        refine hnew' e he ?_
        rw [hmiddle]
        exact List.mem_append_left _ hmem
  mem_names key := by
    rw [h'.mem_names, h.mem_names, List.map_append, List.mem_append, or_assoc]
  get := List.forall_mem_append.mpr ⟨fun p hp => h'.get_of_before (h.get p hp), h'.get⟩

end Gained

/-- What is kept stays so where a cache takes in more. -/
theorem Keeps.gained (h : Keeps found before) (hgained : Gained more before later)
    (hvalid : ∀ p ∈ more, isQualifiedName p.1.toList = true) : Keeps (found ++ more) later where
  nodup := by
    obtain ⟨added, hentries, -, hnodup, hnew⟩ := hgained.exists_added
    rw [names_of_entries hentries]
    refine List.nodup_append.mpr ⟨h.nodup, hnodup, ?_⟩
    rintro key hkey _ hadded rfl
    obtain ⟨e, he, rfl⟩ := List.mem_map.mp hadded
    exact hnew e he hkey
  mem_names key := by
    rw [hgained.mem_names, h.mem_names, List.map_append, List.mem_append]
  get := List.forall_mem_append.mpr ⟨fun p hp => hgained.get_of_before (h.get p hp), hgained.get⟩
  valid := List.forall_mem_append.mpr ⟨h.valid, hvalid⟩

theorem foundFor_append (names names' : List NameLike) :
    foundFor fs f (names ++ names') = foundFor fs f names ++ foundFor fs f names' :=
  List.filterMap_append

theorem foundFor_eq {g : Finder} (h : (alike fs).r f g) (names : List NameLike) :
    foundFor fs f names = foundFor fs g names := by
  rw [foundFor, foundFor]
  exact congrArg (List.filterMap · names)
    (funext fun name => by rw [(steady_find name).answer_eq h])

theorem valid_of_mem_foundFor {names : List NameLike} {p : String × FoundClass}
    (h : p ∈ foundFor fs f names) :
    isQualifiedName p.1.toList = true := by
  obtain ⟨name, -, hp⟩ := List.mem_filterMap.mp h
  obtain ⟨c, hc, rfl⟩ := Option.map_eq_some_iff.mp hp
  rw [toOption_eq_some_iff, answer_find] at hc
  split_ifs at hc with hvalid
  rwa [isQualifiedName_slashes]

/-- A step that adds to the cache what is found for some names. It is stated for every finder like a
given one, so that what is found behind other lookups can be told from that one too. -/
def Gains (fs : FileSystem) (f : Finder) (x : Finding α) (names : List NameLike) : Prop :=
  ∀ t, (alike fs).r t f → Gained (foundFor fs f names) t.cache (after x t).cache

theorem gains_find (name : NameLike) : Gains fs f (find fs name) [name] := by
  intro t ht
  have hanswer : answer (find fs name) t = answer (find fs name) f :=
    (steady_find name).answer_eq ht
  obtain ⟨hcache, hkept⟩ | ⟨n, c, hkey, hnew, hc, hcache⟩ := cache_after_find fs name t
  · rw [hcache]
    cases hc : answer (find fs name) t with
    | error e =>
      have hnone : foundFor fs f [name] = [] := by simp [foundFor, ← hanswer, hc, Except.toOption]
      rw [hnone]
      exact .refl _
    | ok c =>
      have hone : foundFor fs f [name] = [(slashes name.text, c)] := by
        simp [foundFor, ← hanswer, hc, Except.toOption]
      have hget := hkept c hc
      have hmem : slashes name.text ∈ t.cache.names := by
        by_contra hnot
        rw [NameMap.get?_eq_none_iff.mpr hnot] at hget
        cases hget
      rw [hone]
      refine ⟨⟨[], (List.append_nil _).symm, by simp, .nil, by simp⟩,
        fun key => ?_, by simpa using hget⟩
      simpa using fun hkey => hkey ▸ hmem
  · have hone : foundFor fs f [name] = [(n.normalized, c)] := by
      simp [foundFor, ← hanswer, hc, hkey, Except.toOption]
    have hcontains : t.cache.contains (.owned n) = false :=
      Bool.eq_false_iff.mpr fun hmem => hnew (NameMap.contains_iff.mp hmem)
    rw [hcache, hone]
    refine ⟨⟨[(.owned n, c)], NameMap.put_of_not_contains hcontains, .refl _,
      List.nodup_singleton _, List.forall_mem_singleton.mpr hnew⟩, fun key => ?_, ?_⟩
    · rw [NameMap.names_put hnew, List.mem_append]
      rfl
    · refine List.forall_mem_singleton.mpr ?_
      rw [NameMap.get?_put]
      exact if_pos rfl

theorem gains_of_cache {x : Finding α} (h : ∀ t, (after x t).cache = t.cache) :
    Gains fs f x [] := by
  intro t _
  rw [h]
  exact .refl _

theorem Gains.bind {x : Finding α} {k : α → Finding β} {names : List NameLike}
    {next : α → List NameLike} (hx : Gains fs f x names) (hsteady : Steady (alike fs) x)
    (hk : ∀ a, Gains fs f (k a) (next a)) :
    Gains fs f (x >>= k) (names ++ lookupsAfter (answer x f) next) := by
  intro t ht
  rw [after_bind, foundFor_append, hsteady.answer_eq ht]
  cases answer x f with
  | error e => exact (List.append_nil _).symm ▸ hx t ht
  | ok a => exact (hx t ht).trans (hk a _ ((alike fs).trans (hsteady.after_alike t) ht))

theorem lookupsAfter_nil {ε : Type} (result : Except ε α) :
    lookupsAfter result (fun _ => []) = [] := by
  cases result <;> rfl

theorem Gains.bind_quiet {x : Finding α} {k : α → Finding β} {names : List NameLike}
    (hx : Gains fs f x names) (hsteady : Steady (alike fs) x) (hk : ∀ a, Gains fs f (k a) []) :
    Gains fs f (x >>= k) names := by
  have hbind := hx.bind hsteady hk
  rwa [lookupsAfter_nil, List.append_nil] at hbind

theorem after_optional (x : Finding α) (t : Finder) : after (optional x) t = after x t := by
  show after (tryCatch (x >>= fun a => pure (some a)) _) t = _
  rw [after_tryCatch, answer_bind, after_bind]
  rcases answer x t with e | a
  · cases e <;> rfl
  · rfl

theorem Gains.optional {x : Finding α} {names : List NameLike} (hx : Gains fs f x names) :
    Gains fs f (optional x) names := by
  intro t ht
  rw [after_optional]
  exact hx t ht

theorem gains_findSuper (c : Class) : Gains fs f (findSuper fs c) (superLookups c) := by
  unfold findSuper superLookups
  cases c.superName with
  | some name => exact gains_find _
  | none => exact gains_of_cache fun _ => rfl

theorem gains_findPresent (owner : Class) (names : List String) :
    Gains fs f (findPresent fs owner names) (presentLookups fs f names) := by
  induction names with
  | nil => exact gains_of_cache fun _ => rfl
  | cons name names ih =>
    have hfirst : Gains fs f (optional (find fs (.plain name))) [.plain name] :=
      (gains_find _).optional
    refine hfirst.bind (steady_optional (steady_find _)) fun result => ?_
    cases result with
    | some c =>
      exact ih.bind_quiet (steady_findPresent owner names) fun _ => gains_of_cache fun _ => rfl
    | none =>
      have htell : Gains fs f (tell s!"Interface {name} of {owner.thisName} not on classpath") [] :=
        gains_of_cache fun _ => rfl
      exact htell.bind (steady_tell _) fun _ => ih

theorem gains_findInterfaces (c : Class) :
    Gains fs f (findInterfaces fs c) (interfaceLookups fs f c) := by
  unfold findInterfaces interfaceLookups
  cases c.interfaces with
  | ok names => exact gains_findPresent c names
  | error e => exact gains_of_cache fun _ => rfl

theorem Gains.timed {x : Finding α} {names : List NameLike} (hx : Gains fs f x names)
    (label : String) : Gains fs f (timed label x) names := by
  intro t ht
  have htell : Steady (alike fs) (tell ("Started: " ++ label)) := steady_tell _
  exact hx _ ((alike fs).trans (htell.after_alike t) ht)

theorem gains_liftExcept (a : Except Error α) : Gains fs f (liftExcept a) [] :=
  gains_of_cache fun t => by rw [after_liftExcept]

end Finder

namespace Growth

open Finder

variable {fs : FileSystem} {f : Finder}

theorem gains_expand (name : QualifiedName) (c : FoundClass) (g : Growth) :
    Gains fs f (expand fs name c g) (expandLookups fs f name c g) := by
  have hsuper : Gains fs f (optional (findSuper fs c.toClass)) (superLookups c.toClass) :=
    (gains_findSuper c.toClass).optional
  refine hsuper.bind (steady_optional (steady_findSuper c.toClass)) fun parent => ?_
  have hrest (g' : Growth) : Gains fs f
      (findInterfaces fs c.toClass >>= fun interfaces =>
        liftExcept (interfaces.foldlM (link name .interface) g'))
      (interfaceLookups fs f c.toClass) :=
    (gains_findInterfaces c.toClass).bind_quiet (steady_findInterfaces c.toClass)
      fun _ => gains_liftExcept _
  have hlink := (gains_liftExcept (parent.toList.foldlM (link name .superclass) g)).bind
    (Steady.liftExcept _ _) hrest
  rwa [answer_liftExcept] at hlink

theorem gains_run (fuel : Nat) (g : Growth) :
    Gains fs f (run fs fuel g) (runLookups fs f fuel g) := by
  induction fuel generalizing g with
  | zero => exact gains_of_cache fun _ => rfl
  | succ fuel ih =>
    rw [run, runLookups]
    rcases g.pending with _ | ⟨⟨name, c⟩, pending⟩
    · exact gains_of_cache fun _ => rfl
    · exact (gains_expand name c _).bind (steady_expand name c _) ih

end Growth

namespace Hierarchy

open Finder

variable {fs : FileSystem} {f : Finder}

theorem gains_conclude (name : QualifiedName) (graph : ClassGraph) :
    Gains fs f (conclude name graph) [] := by
  have hreport (level : Log.Level) (note : Log.Note) : Gains fs f (report level note []) [] :=
    gains_of_cache fun _ => rfl
  exact (hreport _ _).bind_quiet (steady_report _ _ _) fun _ => gains_liftExcept _

theorem gains_buildWithin (fuel : Nat) (name : QualifiedName) (root : FoundClass) :
    Gains fs f (buildWithin fs fuel name root)
      (Growth.runLookups fs f fuel (.ofRoot name root)) :=
  ((Growth.gains_run fuel _).timed _).bind_quiet (steady_timedRun _ _ _) (gains_conclude name)

end Hierarchy

end ClassAtlas
