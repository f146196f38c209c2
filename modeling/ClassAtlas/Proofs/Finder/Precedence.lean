import ClassAtlas.Proofs.Finder.ResolverSteady

/-! The order of a classpath. An entry answers a lookup only where all entries in front of it have
been asked in vain, and what it answers, a failure or a resource, is then the answer of the
whole. -/

namespace ClassAtlas.Resolver

def IsArchive (fs : FileSystem) (path : Path) : Prop :=
  fs.isFolder path = .ok false ∧ (path.suffix.toLower = ".jar" ∨ path.suffix.toLower = ".zip")

def IsClassFile (fs : FileSystem) (path : Path) : Prop :=
  fs.isFolder path = .ok false ∧ path.suffix.toLower = ".class"

instance (fs : FileSystem) (path : Path) : Decidable (IsArchive fs path) :=
  inferInstanceAs (Decidable (_ ∧ _))

instance (fs : FileSystem) (path : Path) : Decidable (IsClassFile fs path) :=
  inferInstanceAs (Decidable (_ ∧ _))

def stripped (relative : String) : String :=
  String.ofList (relative.toList.dropWhile isSlash)

/-- A lookup that gets as far as an entry, since the ones in front do not have the resource. -/
def Consulted (fs : FileSystem) (r : Resolver) (relative : String) (path : Path) : Prop :=
  ∃ before behind, r.classpath.entries = before ++ path :: behind ∧
    ∀ p ∈ before, answer (lookup fs p relative) r = .ok none

variable {fs : FileSystem} {r : Resolver} {relative : String} {path : Path} {paths : List Path}
  {result : Except Error (Option Resource)}

theorem lookup_of_isArchive (h : IsArchive fs path) (relative : String) :
    lookup fs path relative = inArchive fs path relative := by
  simp [lookup, h.1, h.2]

theorem lookup_of_isClassFile (h : IsClassFile fs path) (relative : String) :
    lookup fs path relative = inClassFile fs path relative := by
  simp [lookup, h.1, h.2]

theorem Consulted.mem (h : Consulted fs r relative path) : path ∈ r.classpath.entries := by
  obtain ⟨before, behind, hentries, -⟩ := h
  rw [hentries]
  exact List.mem_append_right _ List.mem_cons_self

theorem answer_firstOf_cons : answer (firstOf fs relative (path :: paths)) r =
    match answer (lookup fs path relative) r with
    | .ok none => answer (firstOf fs relative paths) r
    | result => result := by
  have hlookup : Steady (alike fs) (lookup fs path relative) := steady_lookup path relative
  rw [firstOf, answer_bind]
  rcases answer (lookup fs path relative) r with e | _ | resource
  · rfl
  · exact (steady_firstOf relative paths).answer_eq (hlookup.after_alike r)
  · rfl

theorem answer_firstOf_iff (hresult : result ≠ .ok none) :
    answer (firstOf fs relative paths) r = result ↔
      ∃ before path behind, paths = before ++ path :: behind ∧
        (∀ p ∈ before, answer (lookup fs p relative) r = .ok none) ∧
        answer (lookup fs path relative) r = result := by
  induction paths with
  | nil =>
    have hnone : answer (firstOf fs relative []) r = .ok none := rfl
    rw [hnone]
    simp [hresult.symm]
  | cons path paths ih =>
    rw [answer_firstOf_cons]
    constructor
    · intro h
      by_cases hlookup : answer (lookup fs path relative) r = .ok none
      · rw [hlookup] at h
        obtain ⟨before, found, behind, rfl, hbefore, hfound⟩ := ih.mp h
        exact ⟨path :: before, found, behind, rfl, List.forall_mem_cons.mpr ⟨hlookup, hbefore⟩,
          hfound⟩
      · refine ⟨[], path, paths, rfl, by simp, ?_⟩
        split at h
        · contradiction
        · exact h
    · rintro ⟨before, found, behind, hpaths, hbefore, hfound⟩
      cases before with
      | nil =>
        obtain ⟨rfl, rfl⟩ := List.cons.inj hpaths
        rw [hfound]
        split
        · contradiction
        · rfl
      | cons first before =>
        obtain ⟨rfl, rfl⟩ := List.cons.inj hpaths
        rw [hbefore _ List.mem_cons_self]
        exact ih.mpr ⟨before, found, behind, rfl, fun p hp =>
          hbefore p (List.mem_cons_of_mem _ hp), hfound⟩

/-- Any answer but that there is no such resource comes from one of the entries. -/
theorem answer_get_iff (hresult : result ≠ .ok none) :
    answer (get fs relative) r = result ↔ ∃ path, Consulted fs r (stripped relative) path ∧
      answer (lookup fs path (stripped relative)) r = result := by
  have hget : answer (get fs relative) r =
      answer (firstOf fs (stripped relative) r.classpath.entries) r := rfl
  rw [hget, answer_firstOf_iff hresult]
  constructor
  · rintro ⟨before, path, behind, hentries, hbefore, hlookup⟩
    exact ⟨path, ⟨before, behind, hentries, hbefore⟩, hlookup⟩
  · rintro ⟨path, ⟨before, behind, hentries, hbefore⟩, hlookup⟩
    exact ⟨before, path, behind, hentries, hbefore, hlookup⟩

end ClassAtlas.Resolver
