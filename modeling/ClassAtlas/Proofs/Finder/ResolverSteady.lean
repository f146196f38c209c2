import ClassAtlas.Proofs.FileSystem.Probes
import ClassAtlas.Proofs.Finder.Steady

/-! What a resolver keeps is only what a lookup gives anyway, so lookups are steady: one that has
opened archives and read class files answers like the one it was before. -/

namespace ClassAtlas.Resolver

def openAnew (fs : FileSystem) (path : Path) : Except Error Archive :=
  match fs.isFile path with
  | .error e => .error (.file e)
  | .ok false => .error (.entry path .noArchive)
  | .ok true =>
    match fs.read path with
    | .error e => .error (.entry path (.cannotOpenFile e))
    | .ok bytes =>
      match Archive.ofBytes bytes with
      | .error e => .error (archiveFault path .cannotOpen e)
      | .ok archive => .ok archive

def readAnew (fs : FileSystem) (path : Path) : Except Error String :=
  match fs.read path with
  | .error e =>
    if e.fault = .nullCharacter then .error (.file e) else .error (.entry path (.cannotReadClass e))
  | .ok bytes =>
    match Class.nameOfBytes bytes with
    | .error e => .error (.entry path (.cannotReadName e))
    | .ok name => .ok name

/-- What is kept goes before what would be found. -/
def archiveAt (fs : FileSystem) (r : Resolver) (path : Path) : Except Error Archive :=
  (r.archives.lookup path).elim (openAnew fs path) .ok

def declaredAt (fs : FileSystem) (r : Resolver) (path : Path) : Except Error String :=
  (r.declared.lookup path).elim (readAnew fs path) .ok

/-- Resolvers with the same classpath, the same archives and the same declared names, whether they
are kept or not. -/
def alike (fs : FileSystem) : Setoid Resolver where
  r r s := r.classpath = s.classpath ∧ archiveAt fs r = archiveAt fs s ∧
    declaredAt fs r = declaredAt fs s
  iseqv := ⟨fun _ => ⟨rfl, rfl, rfl⟩, fun h => ⟨h.1.symm, h.2.1.symm, h.2.2.symm⟩,
    fun h h' => ⟨h.1.trans h'.1, h.2.1.trans h'.2.1, h.2.2.trans h'.2.2⟩⟩

variable {fs : FileSystem}

theorem openAnew_eq_ok_iff {path : Path} {a : Archive} : openAnew fs path = .ok a ↔
    ∃ bytes, fs.read path = .ok bytes ∧ Archive.ofBytes bytes = .ok a := by
  cases hread : fs.read path with
  | error e => rcases hfile : fs.isFile path with _ | _ | _ <;> simp [openAnew, hfile, hread]
  | ok bytes =>
    cases ha : Archive.ofBytes bytes <;>
      simp [openAnew, FileSystem.isFile_of_read hread, hread, ha]

theorem elim_lookup_append {α : Type} {kept : List (Path × α)} {path : Path} {a : α}
    {anew : Path → Except Error α} (hl : kept.lookup path = none) (ha : anew path = .ok a)
    (p : Path) : ((kept ++ [(path, a)]).lookup p).elim (anew p) .ok =
      (kept.lookup p).elim (anew p) .ok := by
  rw [List.lookup_append]
  by_cases hp : p = path
  · subst hp
    simp [hl, ha]
  · have hb : (p == path) = false := by simpa using hp
    simp [List.lookup_cons, hb]

theorem steady_report (level : Log.Level) (note : Log.Note) (context : List (String × Json)) :
    Steady (alike fs) (report level note context) :=
  .modify fun _ => ⟨rfl, rfl, rfl⟩

theorem answer_openArchive (path : Path) (r : Resolver) :
    answer (openArchive fs path) r = archiveAt fs r path := by
  rw [openArchive, answer_get_bind, archiveAt, openAnew]
  cases hk : r.archives.lookup path with
  | some a => simp
  | none =>
    rcases fs.isFile path with e | _ | _
    · simp
    · simp
    dsimp only
    rcases fs.read path with e | bytes
    · simp
    dsimp only
    rcases Archive.ofBytes bytes with e | a
    · simp
    · rfl

theorem after_openArchive (path : Path) (r : Resolver) :
    (alike fs).r (after (openArchive fs path) r) r := by
  rw [openArchive, after_get_bind]
  cases hk : r.archives.lookup path with
  | some a => exact (alike fs).refl r
  | none =>
    rcases fs.isFile path with e | _ | _
    · exact (alike fs).refl r
    · exact (alike fs).refl r
    dsimp only
    rcases hread : fs.read path with e | bytes
    · exact (alike fs).refl r
    dsimp only
    rcases ha : Archive.ofBytes bytes with e | a
    · exact (alike fs).refl r
    · have hanew : openAnew fs path = .ok a := openAnew_eq_ok_iff.mpr ⟨bytes, hread, ha⟩
      exact ⟨rfl, funext (elim_lookup_append hk hanew), rfl⟩

theorem steady_openArchive (path : Path) : Steady (alike fs) (openArchive fs path) where
  after_alike := after_openArchive path
  answer_eq h := by
    rw [answer_openArchive, answer_openArchive, h.2.1]

theorem answer_declaredName (path : Path) (r : Resolver) :
    answer (declaredName fs path) r = declaredAt fs r path := by
  rw [declaredName, answer_get_bind, declaredAt, readAnew]
  cases hk : r.declared.lookup path with
  | some name => simp
  | none =>
    rcases fs.read path with e | bytes
    · by_cases he : e.fault = .nullCharacter
      · simp [he]
      · simp [he]
    · dsimp only
      rcases Class.nameOfBytes bytes with e | name
      · simp
      · rfl

theorem after_declaredName (path : Path) (r : Resolver) :
    (alike fs).r (after (declaredName fs path) r) r := by
  rw [declaredName, after_get_bind]
  cases hk : r.declared.lookup path with
  | some name => exact (alike fs).refl r
  | none =>
    rcases hb : fs.read path with e | bytes
    · by_cases he : e.fault = .nullCharacter
      · simp [he]
      · simp [he]
    · dsimp only
      rcases hc : Class.nameOfBytes bytes with e | name
      · exact (alike fs).refl r
      · have hanew : readAnew fs path = .ok name := by simp [readAnew, hb, hc]
        exact ⟨rfl, rfl, funext (elim_lookup_append hk hanew)⟩

theorem steady_declaredName (path : Path) : Steady (alike fs) (declaredName fs path) where
  after_alike := after_declaredName path
  answer_eq h := by
    rw [answer_declaredName, answer_declaredName, h.2.2]

theorem steady_inArchive (path : Path) (relative : String) :
    Steady (alike fs) (inArchive fs path relative) := by
  refine (steady_openArchive path).bind fun archive => ?_
  cases archive.member? relative with
  | none => exact .pure _ none
  | some m =>
    dsimp only
    cases archive.read m with
    | error e => exact .throw _ _
    | ok bytes => exact .pure _ _

theorem steady_inClassFile (path : Path) (relative : String) :
    Steady (alike fs) (inClassFile fs path relative) :=
  (steady_declaredName path).bind fun _ => .pure _ _

theorem steady_lookup (path : Path) (relative : String) :
    Steady (alike fs) (lookup fs path relative) :=
  lookup_cases (fun _ => .throw _ _) (inFolder_cases (fun _ => .throw _ _) fun _ => .pure _ _)
    (steady_inArchive path relative) (steady_inClassFile path relative) (.throw _ _)
    ((steady_report _ _ _).bind fun _ => .pure _ _)

/-- What a lookup in a folder gives, whatever the resolver keeps. -/
theorem answer_inFolder (path : Path) (relative : String) (r : Resolver) :
    answer (inFolder fs path relative) r =
      ((fs.isFile (path.join (Path.ofText relative))).mapError .file).map fun there =>
        if there then some (.ofFile fs (path.join (Path.ofText relative))) else none := by
  rw [inFolder]
  rcases fs.isFile (path.join (Path.ofText relative)) with e | _ | _ <;> rfl

theorem steady_firstOf (relative : String) (paths : List Path) :
    Steady (alike fs) (firstOf fs relative paths) := by
  induction paths with
  | nil => exact (steady_report _ _ _).bind fun _ => .pure _ _
  | cons path paths ih =>
    refine (steady_lookup path relative).bind fun resource => ?_
    cases resource with
    | none => exact ih
    | some resource => exact (steady_report _ _ _).bind fun _ => .pure _ _

theorem steady_get (relative : String) : Steady (alike fs) (get fs relative) :=
  .get_bind (fun _ => steady_firstOf _ _) fun r s h => by rw [h.1]

/-- The names that class files declare do not count where the path is no class file. -/
theorem answer_lookup_eq {r s : Resolver} {path : Path}
    (harchive : archiveAt fs r path = archiveAt fs s path)
    (hentry : fs.isFolder path = .ok true ∨ path.suffix.toLower ≠ ".class") (relative : String) :
    answer (lookup fs path relative) r = answer (lookup fs path relative) s := by
  rw [lookup]
  rcases hfolder : fs.isFolder path with e | _ | _
  · rfl
  · dsimp only
    split_ifs with hzip hclass
    · rw [inArchive, answer_bind, answer_bind, answer_openArchive, answer_openArchive, harchive]
      rcases archiveAt fs s path with e | archive
      · rfl
      · dsimp only
        rcases archive.member? relative with _ | m
        · rfl
        · dsimp only
          rcases archive.read m with e | bytes
          · rfl
          · rfl
    · exact absurd hclass (hentry.resolve_left (by simp [hfolder]))
    · rcases fs.exists? path with e | _ | _ <;> rfl
  · exact (answer_inFolder path relative r).trans (answer_inFolder path relative s).symm

theorem answer_firstOf_eq {r s : Resolver} {relative : String} {paths : List Path}
    (h : ∀ path ∈ paths, answer (lookup fs path relative) r = answer (lookup fs path relative) s) :
    answer (firstOf fs relative paths) r = answer (firstOf fs relative paths) s := by
  induction paths with
  | nil => rfl
  | cons path paths ih =>
    have hlookup : Steady (alike fs) (lookup fs path relative) := steady_lookup path relative
    have hrest : Steady (alike fs) (firstOf fs relative paths) := steady_firstOf relative paths
    rw [firstOf, answer_bind, answer_bind, h path List.mem_cons_self]
    rcases answer (lookup fs path relative) s with e | _ | resource
    · rfl
    · dsimp only
      rw [hrest.answer_eq (hlookup.after_alike r), hrest.answer_eq (hlookup.after_alike s)]
      exact ih fun path' hpath => h path' (List.mem_cons_of_mem _ hpath)
    · rfl

/-- On a classpath without class files, resolvers answer alike that have the same archives. -/
theorem answer_get_eq {r s : Resolver} (hclasspath : r.classpath = s.classpath)
    (harchives : archiveAt fs r = archiveAt fs s)
    (hentries : ∀ path ∈ s.classpath.entries,
      fs.isFolder path = .ok true ∨ path.suffix.toLower ≠ ".class") (relative : String) :
    answer (get fs relative) r = answer (get fs relative) s := by
  change answer (firstOf fs _ r.classpath.entries) r = answer (firstOf fs _ s.classpath.entries) s
  rw [hclasspath]
  exact answer_firstOf_eq fun path hpath =>
    answer_lookup_eq (congrFun harchives path) (hentries path hpath) _

end ClassAtlas.Resolver
