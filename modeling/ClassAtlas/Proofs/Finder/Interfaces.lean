import ClassAtlas.Proofs.History.Lookups
import ClassAtlas.Proofs.Outcomes

/-! The interfaces of a class, looked up one after the other. A name that is not found is passed
over, any other failure ends the lookups, and the cache keeps what was found until then. -/

namespace ClassAtlas.Finder

variable {fs : FileSystem} {f : Finder}

/-- A lookup that the next one follows: it finds a class or says that there is none of the name. -/
def Settled (result : Except Error FoundClass) : Prop :=
  ∀ e, result = .error e → ∃ text, e = .notFound text

theorem settled_ok (c : FoundClass) : Settled (.ok c) := by
  intro e he
  cases he

theorem settled_notFound (text : String) : Settled (.error (.notFound text)) :=
  fun _ he => ⟨text, (Except.error.inj he).symm⟩

theorem exists_error_of_not_settled {result : Except Error FoundClass} (h : ¬ Settled result) :
    ∃ e, result = .error e ∧ ∀ text, e ≠ .notFound text := by
  cases result with
  | ok c => exact absurd (settled_ok c) h
  | error e =>
    refine ⟨e, rfl, fun text he => h ?_⟩
    rw [he]
    exact settled_notFound text

theorem answer_optional_of_settled {x : Finding FoundClass} (h : Settled (answer x f)) :
    answer (optional x) f = .ok (answer x f).toOption := by
  rw [answer_optional]
  cases hx : answer x f with
  | ok c => rfl
  | error e =>
    obtain ⟨text, rfl⟩ := h e hx
    rfl

theorem answer_optional_of_error {x : Finding FoundClass} {e : Error} (h : answer x f = .error e)
    (hother : ∀ text, e ≠ .notFound text) : answer (optional x) f = .error e := by
  rw [answer_optional, h]
  cases e
  case notFound text => exact absurd rfl (hother text)
  all_goals rfl

theorem findPresent_of_settled (owner : Class) {names : List String}
    (h : ∀ name ∈ names, Settled (answer (find fs (.plain name)) f)) :
    answer (findPresent fs owner names) f =
        .ok (names.filterMap fun name => (answer (find fs (.plain name)) f).toOption) ∧
      presentLookups fs f names = names.map .plain := by
  induction names with
  | nil => exact ⟨rfl, rfl⟩
  | cons name names ih =>
    obtain ⟨hname, hnames⟩ := List.forall_mem_cons.mp h
    have hfirst := answer_optional_of_settled hname
    obtain ⟨hanswer, hlookups⟩ := ih hnames
    constructor
    · rw [answer_findPresent_cons, hfirst, hanswer, List.filterMap_cons]
      cases (answer (find fs (.plain name)) f).toOption <;> rfl
    · rw [presentLookups, hfirst, List.map_cons, ← hlookups]
      rfl

theorem findPresent_of_error (owner : Class) (behind : List String) {before : List String}
    {name : String} {e : Error}
    (hbefore : ∀ n ∈ before, Settled (answer (find fs (.plain n)) f))
    (he : answer (find fs (.plain name)) f = .error e) (hother : ∀ text, e ≠ .notFound text) :
    answer (findPresent fs owner (before ++ name :: behind)) f = .error e ∧
      presentLookups fs f (before ++ name :: behind) = (before ++ [name]).map .plain := by
  induction before with
  | nil =>
    have hfirst := answer_optional_of_error he hother
    constructor
    · rw [List.nil_append, answer_findPresent_cons, hfirst]
      rfl
    · rw [List.nil_append, presentLookups, hfirst]
      rfl
  | cons n before ih =>
    obtain ⟨hn, hbefore⟩ := List.forall_mem_cons.mp hbefore
    have hfirst := answer_optional_of_settled hn
    obtain ⟨hanswer, hlookups⟩ := ih hbefore
    constructor
    · rw [List.cons_append, answer_findPresent_cons, hfirst, hanswer]
      rfl
    · rw [List.cons_append, presentLookups, hfirst, List.cons_append, List.map_cons, ← hlookups]
      rfl

/-- The lookup that fails adds nothing to what was found before it. -/
theorem foundFor_of_error {before : List String} {name : String} {e : Error}
    (he : answer (find fs (.plain name)) f = .error e) :
    foundFor fs f ((before ++ [name]).map .plain) = foundFor fs f (before.map .plain) := by
  have hnone : foundFor fs f [.plain name] = [] := by simp [foundFor, he, Except.toOption]
  rw [List.map_append, foundFor_append]
  exact (congrArg _ hnone).trans (List.append_nil _)

theorem forall_settled_or_exists_first (fs : FileSystem) (f : Finder) (names : List String) :
    (∀ name ∈ names, Settled (answer (find fs (.plain name)) f)) ∨
      ∃ before name behind, names = before ++ name :: behind ∧
        (∀ n ∈ before, Settled (answer (find fs (.plain n)) f)) ∧
        ¬ Settled (answer (find fs (.plain name)) f) := by
  classical
  -- Whether a lookup is settled cannot be computed, so the first one that is not is found
  -- classically.
  let stops (name : String) : Bool := decide ¬ Settled (answer (find fs (.plain name)) f)
  cases hfirst : names.find? stops with
  | none =>
    refine .inl fun name hname => ?_
    simpa [stops] using List.find?_eq_none.mp hfirst name hname
  | some name =>
    obtain ⟨hstops, before, behind, hnames, hbefore⟩ := List.find?_eq_some_iff_append.mp hfirst
    refine .inr ⟨before, name, behind, hnames, fun n hn => ?_, ?_⟩
    · simpa [stops] using hbefore n hn
    · simpa [stops] using hstops

/-- The interfaces of a class are those of their names that are found, in declared order and as
often as they are declared. It fails at the first index that leads to no name, before anything is
looked up, and otherwise at the first name whose lookup fails, unless there is just no class of that
name. The cache then has what it had before and what was found up to there. -/
theorem findInterfaces_outcomes (fs : FileSystem) (c : Class) (f : Finder) :
    (∃ before index behind e, c.raw.interfaces = before ++ index :: behind ∧
      (∀ i ∈ before, ∃ name, c.pool.className i.toNat = .ok name) ∧
      c.pool.className index.toNat = .error e ∧
      answer (findInterfaces fs c) f = .error (.decode (.reference e)) ∧
      after (findInterfaces fs c) f = f) ∨
    ∃ names, List.Forall₂ (fun i name => c.pool.className i.toNat = .ok name)
      c.raw.interfaces names ∧ ((∀ name ∈ names, Settled (answer (find fs (.plain name)) f)) ∧
        answer (findInterfaces fs c) f =
          .ok (names.filterMap fun name => (answer (find fs (.plain name)) f).toOption) ∧
        Gained (foundFor fs f (names.map .plain)) f.cache (after (findInterfaces fs c) f).cache ∨
      ∃ before name behind e, names = before ++ name :: behind ∧
        (∀ n ∈ before, Settled (answer (find fs (.plain n)) f)) ∧
        answer (find fs (.plain name)) f = .error e ∧ (∀ text, e ≠ .notFound text) ∧
        answer (findInterfaces fs c) f = .error e ∧
        Gained (foundFor fs f (before.map .plain)) f.cache
          (after (findInterfaces fs c) f).cache) := by
  cases hnames : c.raw.interfaces.mapM fun index => c.pool.className index.toNat with
  | error e =>
    obtain ⟨before, index, behind, hindices, hbefore, hindex⟩ := mapM_eq_error_iff.mp hnames
    have hinterfaces : c.interfaces = .error (.reference e) := by rw [Class.interfaces, hnames]; rfl
    refine .inl ⟨before, index, behind, e, hindices, hbefore, hindex, ?_⟩
    rw [findInterfaces, hinterfaces]
    exact ⟨rfl, rfl⟩
  | ok names =>
    have hinterfaces : c.interfaces = .ok names := by rw [Class.interfaces, hnames]; rfl
    have hfind : findInterfaces fs c = findPresent fs c names := by rw [findInterfaces, hinterfaces]
    have hgains := gains_findPresent c names f ((alike fs).refl f)
    rw [hfind]
    refine .inr ⟨names, mapM_eq_ok_iff.mp hnames, ?_⟩
    rcases forall_settled_or_exists_first fs f names with hall |
      ⟨before, name, behind, rfl, hbefore, hname⟩
    · obtain ⟨hanswer, hlookups⟩ := findPresent_of_settled c hall
      rw [hlookups] at hgains
      exact .inl ⟨hall, hanswer, hgains⟩
    · obtain ⟨e, he, hother⟩ := exists_error_of_not_settled hname
      obtain ⟨hanswer, hlookups⟩ := findPresent_of_error c behind hbefore he hother
      rw [hlookups, foundFor_of_error he] at hgains
      exact .inr ⟨before, name, behind, e, rfl, hbefore, he, hother, hanswer, hgains⟩

end ClassAtlas.Finder
