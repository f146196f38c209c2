import ClassAtlas.Proofs.Finder.ResolverSteady
import ClassAtlas.Proofs.Name.Map
import ClassAtlas.Proofs.Name.Slashes
import ClassAtlas.Proofs.Outcomes

/-! What a finder finds depends only on the files and on what it has found before, and finding more
does not change it: each lookup answers as it would have done at the start. -/

namespace ClassAtlas

/-- The slashed form of the name that a class declares. -/
def Class.key (c : Class) : String :=
  slashes c.thisName

namespace Finder

/-- The class of a slashed name as the classpath gives it, without the names found before. -/
def fetchAnew (fs : FileSystem) (r : Resolver) (key : String) : Except Error FoundClass := do
  match ← answer (Resolver.get fs (key ++ ".class")) r with
  | none => throw (.notFound key)
  | some resource =>
    match resource.read fs with
    | .error e => throw (.entry e.path (.cannotRead e))
    | .ok bytes =>
      match Class.ofBytes bytes with
      | .error e => throw (.decode e)
      | .ok c => return ⟨c, some key⟩

/-- The class of a slashed name; what was found before stays. -/
def found (fs : FileSystem) (f : Finder) (key : String) : Except Error FoundClass :=
  (f.cache.get? (.plain key)).elim (fetchAnew fs f.resolver key) .ok

/-- Finders that find the same classes. -/
def alike (fs : FileSystem) : Setoid Finder where
  r f g := (Resolver.alike fs).r f.resolver g.resolver ∧ found fs f = found fs g
  iseqv := ⟨fun f => ⟨(Resolver.alike fs).refl f.resolver, rfl⟩,
    fun h => ⟨(Resolver.alike fs).symm h.1, h.2.symm⟩,
    fun h h' => ⟨(Resolver.alike fs).trans h.1 h'.1, h.2.trans h'.2⟩⟩

variable {fs : FileSystem} {α : Type}

theorem fetchAnew_eq {r s : Resolver} (h : (Resolver.alike fs).r r s) (key : String) :
    fetchAnew fs r key = fetchAnew fs s key := by
  rw [fetchAnew, fetchAnew, (Resolver.steady_get _).answer_eq h]

theorem alike_of_cache {f g : Finder} (h : (Resolver.alike fs).r f.resolver g.resolver)
    (hc : f.cache = g.cache) : (alike fs).r f g :=
  ⟨h, funext fun key => by rw [found, found, hc, fetchAnew_eq h]⟩

theorem steady_resolving {x : Resolving α} (hx : Steady (Resolver.alike fs) x) :
    Steady (alike fs) (resolving x) where
  after_alike _ := alike_of_cache (hx.after_alike _) rfl
  answer_eq h := hx.answer_eq h.1

theorem steady_report (level : Log.Level) (note : Log.Note) (context : List (String × Json)) :
    Steady (alike fs) (report level note context) :=
  steady_resolving (Resolver.steady_report level note context)

theorem steady_tell (message : String) : Steady (alike fs) (tell message) :=
  steady_report _ _ _

theorem alike_setOperation (operation : Option String) (f : Finder) :
    (alike fs).r (f.setOperation operation) f :=
  alike_of_cache ⟨rfl, rfl, rfl⟩ rfl

theorem fetchAnew_setOperation (f : Finder) (operation : Option String) (key : String) :
    fetchAnew fs (f.setOperation operation).resolver key = fetchAnew fs f.resolver key :=
  fetchAnew_eq (alike_setOperation operation f).1 key

/-- A fetch in full: its answer, the resolver it leaves, and the names it leaves found. -/
theorem fetch_spec (fs : FileSystem) (name : QualifiedName) (f : Finder) :
    answer (fetch fs name) f = fetchAnew fs f.resolver name.normalized ∧
      (Resolver.alike fs).r (after (fetch fs name) f).resolver f.resolver ∧
      (after (fetch fs name) f).cache = match fetchAnew fs f.resolver name.normalized with
        | .ok c => f.cache.put (.owned name) c
        | .error _ => f.cache := by
  let g := after (tell s!"Cache miss for {name.normalized}") f
  let g' := after (resolving (Resolver.get fs name.resourcePath)) g
  have hget : Steady (Resolver.alike fs) (Resolver.get fs name.resourcePath) :=
    Resolver.steady_get name.resourcePath
  have halike : (Resolver.alike fs).r g'.resolver f.resolver := hget.after_alike g.resolver
  have hanswer : answer (resolving (Resolver.get fs name.resourcePath)) g =
      answer (Resolver.get fs name.resourcePath) f.resolver :=
    hget.answer_eq (⟨rfl, rfl, rfl⟩ : (Resolver.alike fs).r g.resolver f.resolver)
  rw [fetch, answer_bind, after_bind]
  show answer (resolving _ >>= _) g = _ ∧
    (Resolver.alike fs).r (after (resolving _ >>= _) g).resolver _ ∧
    (after (resolving _ >>= _) g).cache = _
  rw [answer_bind, after_bind, hanswer, fetchAnew, ← QualifiedName.resourcePath]
  rcases answer (Resolver.get fs name.resourcePath) f.resolver with e | _ | resource
  · exact ⟨rfl, halike, rfl⟩
  · exact ⟨rfl, halike, rfl⟩
  · dsimp only [bind, Except.bind]
    show answer (read fs resource >>= _) g' = _ ∧
      (Resolver.alike fs).r (after (read fs resource >>= _) g').resolver _ ∧
      (after (read fs resource >>= _) g').cache = _
    rw [answer_bind, after_bind, read]
    rcases resource.read fs with e | bytes
    · exact ⟨rfl, halike, rfl⟩
    · dsimp only
      rw [answer_pure, after_pure]
      dsimp only
      rcases Class.ofBytes bytes with e | c
      · exact ⟨rfl, halike, rfl⟩
      · by_cases hname : c.thisName ≠ name.normalized
        · simp only [if_pos hname]
          exact ⟨rfl, halike, rfl⟩
        · simp only [if_neg hname]
          exact ⟨rfl, halike, rfl⟩

theorem answer_find (fs : FileSystem) (name : NameLike) (f : Finder) :
    answer (find fs name) f =
      if isQualifiedName name.text.toList = true then found fs f (slashes name.text)
      else .error (.notFound name.text) := by
  obtain ⟨span, hspan, htext⟩ | ⟨⟨e, he⟩, hvalid⟩ := name.toSpan_owned
  · have hkey : span.toOwned.normalized = slashes name.text := by
      rw [QualifiedName.normalized_eq, htext]
    have hvalid : isQualifiedName name.text.toList = true := htext ▸ span.toOwned.valid
    rw [find, hspan, if_pos hvalid, ← hkey]
    show answer (get >>= _) f = _
    rw [answer_get_bind, found]
    have hget :
        f.cache.get? (.plain span.toOwned.normalized) = f.cache.get? (.owned span.toOwned) :=
      NameMap.get?_eq_of_key rfl
    rw [hget]
    cases f.cache.get? (.owned span.toOwned) with
    | some c => rfl
    | none =>
      exact (fetch_spec fs span.toOwned (f.setOperation _)).1.trans
        (fetchAnew_setOperation f _ _)
  · rw [find, he, if_neg (by simp [hvalid])]
    rfl

theorem after_find (fs : FileSystem) (name : NameLike) (f : Finder) :
    (alike fs).r (after (find fs name) f) f := by
  rw [find]
  cases name.toSpan with
  | error e => exact (alike fs).refl f
  | ok span =>
    show (alike fs).r (after (get >>= _) f) f
    rw [after_get_bind]
    set n := span.toOwned with hn
    cases hget : f.cache.get? (.owned n) with
    | some c => exact (alike fs).refl f
    | none =>
      let g := f.setOperation (some s!"find {n.normalized}")
      obtain ⟨-, halike, hcache⟩ := fetch_spec fs n g
      have hfetch : (alike fs).r (after (fetch fs n) g) f := by
        refine ⟨halike, funext fun key => ?_⟩
        rw [found, found, hcache, fetchAnew_eq halike, fetchAnew_setOperation,
          fetchAnew_setOperation]
        cases hnew : fetchAnew fs f.resolver n.normalized with
        | error e => rfl
        | ok c =>
          dsimp only
          rw [NameMap.get?_put]
          split_ifs with hkey
          · have hmiss : f.cache.get? (.plain key) = none :=
              (NameMap.get?_eq_of_key hkey).trans hget
            have hkey' : key = n.normalized := hkey
            rw [hmiss, hkey']
            exact hnew.symm
          · rfl
      exact (alike fs).trans (alike_setOperation _ _) hfetch

theorem steady_find (name : NameLike) : Steady (alike fs) (find fs name) where
  after_alike := after_find fs name
  answer_eq h := by
    rw [answer_find, answer_find, h.2]

theorem steady_optional {x : Finding α} (hx : Steady (alike fs) x) :
    Steady (alike fs) (optional x) := by
  refine (hx.bind fun a => .pure _ (some a)).tryCatch fun e => ?_
  cases e
  case notFound => exact .pure _ none
  all_goals exact .throw _ _

theorem answer_optional (x : Finding α) (f : Finder) :
    answer (optional x) f = match answer x f with
      | .ok a => .ok (some a)
      | .error (.notFound _) => .ok none
      | .error e => .error e := by
  show answer (tryCatch (x >>= fun a => pure (some a)) _) f = _
  rw [answer_tryCatch, answer_bind]
  cases answer x f with
  | ok a => rfl
  | error e => cases e <;> rfl

theorem answer_optional_eq_some_iff {x : Finding α} {f : Finder} {a : α} :
    answer (optional x) f = .ok (some a) ↔ answer x f = .ok a := by
  rw [answer_optional]
  cases answer x f with
  | ok b => simp
  | error e => cases e <;> simp

theorem steady_findSuper (c : Class) : Steady (alike fs) (findSuper fs c) := by
  unfold findSuper
  cases c.superName with
  | some name => exact steady_find _
  | none => exact .throw _ _

theorem steady_findPresent (owner : Class) (names : List String) :
    Steady (alike fs) (findPresent fs owner names) := by
  induction names with
  | nil => exact .pure _ _
  | cons name names ih =>
    refine (steady_optional (steady_find _)).bind fun result => ?_
    cases result with
    | some c => exact ih.bind fun _ => .pure _ _
    | none => exact (steady_tell _).bind fun _ => ih

theorem steady_findInterfaces (c : Class) : Steady (alike fs) (findInterfaces fs c) := by
  unfold findInterfaces
  cases c.interfaces with
  | ok names => exact steady_findPresent c names
  | error e => exact .throw _ _

theorem answer_findPresent_cons (owner : Class) (name : String) (names : List String) (f : Finder) :
    answer (findPresent fs owner (name :: names)) f = do
      let first ← answer (optional (find fs (.plain name))) f
      let rest ← answer (findPresent fs owner names) f
      return first.toList ++ rest := by
  have hrest : Steady (alike fs) (findPresent fs owner names) := steady_findPresent owner names
  rw [findPresent, (steady_optional (steady_find _)).answer_bind]
  · congr 1
    funext result
    cases result with
    | some c =>
      rw [hrest.answer_bind fun _ => .pure _ _]
      rfl
    | none =>
      rw [(steady_tell _).answer_bind fun _ => hrest]
      show answer (findPresent fs owner names) f = answer (findPresent fs owner names) f >>= pure
      rw [bind_pure]
  · intro result
    cases result with
    | some c => exact hrest.bind fun _ => .pure _ _
    | none => exact (steady_tell _).bind fun _ => hrest

theorem eq_toOption_of_optional {x : Finding α} {f : Finder} {result : Option α}
    (h : answer (optional x) f = .ok result) : result = (answer x f).toOption := by
  revert h
  rw [answer_optional]
  cases answer x f with
  | ok a => exact fun h => (Except.ok.inj h).symm
  | error e => cases e <;> simp [Except.toOption, eq_comm]

/-- The classes that are found are those of the names, in their order. -/
theorem findPresent_eq_filterMap {owner : Class} {names : List String} {f : Finder}
    {present : List FoundClass} (hpresent : answer (findPresent fs owner names) f = .ok present) :
    present = names.filterMap fun name => (answer (find fs (.plain name)) f).toOption := by
  induction names generalizing present with
  | nil => exact (Except.ok.inj hpresent).symm
  | cons name names ih =>
    rw [answer_findPresent_cons] at hpresent
    obtain ⟨first, hfirst, hpresent⟩ := bind_eq_ok_iff.mp hpresent
    obtain ⟨rest, hrest, hpresent⟩ := bind_eq_ok_iff.mp hpresent
    obtain rfl := Except.ok.inj hpresent
    rw [List.filterMap_cons, ← eq_toOption_of_optional hfirst, ← ih hrest]
    cases first <;> rfl

theorem toOption_eq_some_iff {ε : Type} {a : Except ε α} {b : α} :
    a.toOption = some b ↔ a = .ok b := by
  cases a <;> simp [Except.toOption]

theorem find_of_mem_findPresent {owner : Class} {names : List String} {f : Finder}
    {present : List FoundClass} (hpresent : answer (findPresent fs owner names) f = .ok present)
    {c : FoundClass} (hc : c ∈ present) :
    ∃ name ∈ names, answer (find fs (.plain name)) f = .ok c := by
  rw [findPresent_eq_filterMap hpresent] at hc
  obtain ⟨name, hname, hfind⟩ := List.mem_filterMap.mp hc
  exact ⟨name, hname, toOption_eq_some_iff.mp hfind⟩

/-- Finders of which one finds what the other finds, unless it stops at a fault of some kind. -/
def FindsAlike (stops : Error → Prop) (fs : FileSystem) (f g : Finder) : Prop :=
  ∀ name, EqUnless stops (answer (find fs name) f) (answer (find fs name) g)

theorem eqUnless_optional {stops : Error → Prop} {x : Finding α} {f g : Finder}
    (hstops : ∀ text, ¬stops (.notFound text)) (h : EqUnless stops (answer x f) (answer x g)) :
    EqUnless stops (answer (optional x) f) (answer (optional x) g) := by
  rw [answer_optional, answer_optional]
  rcases h with h | ⟨e, he, h⟩
  · exact .of_eq (by rw [h])
  · rw [h]
    cases e
    case notFound text => exact absurd he (hstops text)
    all_goals exact .inr ⟨_, he, rfl⟩

namespace FindsAlike

variable {stops : Error → Prop} {f g : Finder}

theorem of_alike (h : (alike fs).r f g) : FindsAlike stops fs f g :=
  fun name => .of_eq ((steady_find name).answer_eq h)

theorem answer_findSuper (h : FindsAlike stops fs f g) (c : Class) :
    EqUnless stops (answer (findSuper fs c) f) (answer (findSuper fs c) g) := by
  unfold findSuper
  cases c.superName with
  | some name => exact h _
  | none => exact .of_eq rfl

theorem answer_findPresent (h : FindsAlike stops fs f g)
    (hstops : ∀ text, ¬stops (.notFound text)) (owner : Class) (names : List String) :
    EqUnless stops (answer (findPresent fs owner names) f)
      (answer (findPresent fs owner names) g) := by
  induction names with
  | nil => exact .of_eq rfl
  | cons name names ih =>
    rw [answer_findPresent_cons, answer_findPresent_cons]
    exact (eqUnless_optional hstops (h _)).bind fun _ => ih.bind fun _ => .of_eq rfl

theorem answer_findInterfaces (h : FindsAlike stops fs f g)
    (hstops : ∀ text, ¬stops (.notFound text)) (c : Class) :
    EqUnless stops (answer (findInterfaces fs c) f) (answer (findInterfaces fs c) g) := by
  unfold findInterfaces
  cases c.interfaces with
  | ok names => exact h.answer_findPresent hstops c names
  | error e => exact .of_eq rfl

end FindsAlike

theorem steady_timed {x : Finding α} (hx : Steady (alike fs) x) (label : String) :
    Steady (alike fs) (timed label x) := by
  have htell : Steady (alike fs) (tell ("Started: " ++ label)) := steady_tell _
  have hend : Steady (alike fs) (report Log.info (.completed label) []) := steady_report _ _ _
  exact htell.bind fun _ =>
    ⟨fun f => (alike fs).trans (hend.after_alike _) (hx.after_alike f), hx.answer_eq⟩

theorem answer_timed {x : Finding α} (hx : Steady (alike fs) x) (label : String) (f : Finder) :
    answer (timed label x) f = answer x f := by
  have htell : Steady (alike fs) (tell ("Started: " ++ label)) := steady_tell _
  exact hx.answer_eq (htell.after_alike f)

end Finder

end ClassAtlas
