import ClassAtlas.Proofs.Finder.Precedence

/-! How lookups on a classpath fail. What is wrong with an entry is blamed on the entry, except for
those faults of an archive that do not count as broken, and for paths of which nothing can be told:
these get out as they are. -/

namespace ClassAtlas

theorem FileSystem.fault_ne_null {fs : FileSystem} {path : Path} {e : FileError}
    (hnull : hasNull path = false) (h : fs.read path = .error e) : e.fault ≠ .nullCharacter := by
  rcases hnode : fs.node path with fault | ⟨bytes | entries⟩
  · obtain rfl := Except.error.inj ((read_of_error hnode).symm.trans h)
    rintro rfl
    exact node_ne_null hnull hnode
  · rcases read_of_node hnode with hread | hread
    · simp [hread] at h
    · obtain rfl := Except.error.inj (hread.symm.trans h)
      simp
  · obtain rfl := Except.error.inj ((read_of_folder hnode).symm.trans h)
    simp

namespace Resolver

/-- The ways in which an entry fails a lookup, each with its error. -/
inductive Fails (fs : FileSystem) (r : Resolver) (relative : String) (path : Path) :
    Error → Prop where
  | cannotProbe {e : FileError} (he : fs.isFolder path = .error e) :
    Fails fs r relative path (.file e)
  | cannotProbeFile {e : FileError} (hfolder : fs.isFolder path = .ok true)
    (he : fs.isFile (path.join (Path.ofText relative)) = .error e) :
    Fails fs r relative path (.file e)
  | unknownKind (hfolder : fs.isFolder path = .ok false)
    (hsuffix : path.suffix.toLower ∉ [".jar", ".zip", ".class"])
    (hpath : fs.exists? path = .ok true) :
    Fails fs r relative path (.entry path .unknownKind)
  | noArchive (hentry : IsArchive fs path) (hkept : r.archives.lookup path = none)
    (hfile : fs.isFile path = .ok false) :
    Fails fs r relative path (.entry path .noArchive)
  | cannotOpenFile {e : FileError} (hentry : IsArchive fs path)
    (hkept : r.archives.lookup path = none) (hfile : fs.isFile path = .ok true)
    (he : fs.read path = .error e) :
    Fails fs r relative path (.entry path (.cannotOpenFile e))
  | cannotOpen {bytes : List UInt8} {a : ArchiveError} (hentry : IsArchive fs path)
    (hkept : r.archives.lookup path = none) (hbytes : fs.read path = .ok bytes)
    (ha : Archive.ofBytes bytes = .error a) :
    Fails fs r relative path (archiveFault path .cannotOpen a)
  | cannotReadMember {archive : Archive} {m : ArchiveMember} {a : ArchiveError}
    (hentry : IsArchive fs path) (harchive : archiveAt fs r path = .ok archive)
    (hm : archive.member? relative = some m) (ha : archive.read m = .error a) :
    Fails fs r relative path (archiveFault path (.cannotReadMember relative) a)
  | cannotReadClass {e : FileError} (hentry : IsClassFile fs path)
    (hkept : r.declared.lookup path = none) (he : fs.read path = .error e) :
    Fails fs r relative path (.entry path (.cannotReadClass e))
  | cannotReadName {bytes : List UInt8} {e : DecodeError} (hentry : IsClassFile fs path)
    (hkept : r.declared.lookup path = none) (hbytes : fs.read path = .ok bytes)
    (he : Class.nameOfBytes bytes = .error e) :
    Fails fs r relative path (.entry path (.cannotReadName e))

variable {fs : FileSystem} {r : Resolver} {relative : String} {path : Path} {e : Error}

theorem archiveAt_error_iff :
    archiveAt fs r path = .error e ↔ r.archives.lookup path = none ∧
      openAnew fs path = .error e := by
  rw [archiveAt]
  cases r.archives.lookup path <;> simp

theorem declaredAt_error_iff :
    declaredAt fs r path = .error e ↔ r.declared.lookup path = none ∧
      readAnew fs path = .error e := by
  rw [declaredAt]
  cases r.declared.lookup path <;> simp

theorem openAnew_error_iff : openAnew fs path = .error e ↔
    (∃ e', fs.isFile path = .error e' ∧ e = .file e') ∨
      (fs.isFile path = .ok false ∧ e = .entry path .noArchive) ∨
      (fs.isFile path = .ok true ∧ ∃ e', fs.read path = .error e' ∧
        e = .entry path (.cannotOpenFile e')) ∨
      ∃ bytes a, fs.read path = .ok bytes ∧ Archive.ofBytes bytes = .error a ∧
        e = archiveFault path .cannotOpen a := by
  cases hread : fs.read path with
  | error e' =>
    rcases hfile : fs.isFile path with e'' | _ | _ <;> simp [openAnew, hfile, hread, eq_comm]
  | ok bytes =>
    have hfile := FileSystem.isFile_of_read hread
    cases ha : Archive.ofBytes bytes <;> simp [openAnew, hfile, hread, ha, eq_comm]

theorem readAnew_error_iff (hnull : FileSystem.hasNull path = false) : readAnew fs path = .error e ↔
    (∃ e', fs.read path = .error e' ∧ e = .entry path (.cannotReadClass e')) ∨
      ∃ bytes e', fs.read path = .ok bytes ∧ Class.nameOfBytes bytes = .error e' ∧
        e = .entry path (.cannotReadName e') := by
  rw [readAnew]
  cases hread : fs.read path with
  | error e' => simp [FileSystem.fault_ne_null hnull hread, eq_comm]
  | ok bytes => cases hname : Class.nameOfBytes bytes <;> simp [hname, eq_comm]

theorem inArchive_error_iff : answer (inArchive fs path relative) r = .error e ↔
    archiveAt fs r path = .error e ∨ ∃ archive m a, archiveAt fs r path = .ok archive ∧
      archive.member? relative = some m ∧ archive.read m = .error a ∧
      e = archiveFault path (.cannotReadMember relative) a := by
  rw [inArchive, answer_bind, answer_openArchive]
  cases archiveAt fs r path with
  | error e' => simp
  | ok archive =>
    dsimp only
    cases hm : archive.member? relative with
    | none => simp [hm]
    | some m =>
      dsimp only
      cases ha : archive.read m with
      | error a => simp [hm, ha, eq_comm]
      | ok bytes => simp [hm, ha]

theorem inClassFile_error_iff :
    answer (inClassFile fs path relative) r = .error e ↔ declaredAt fs r path = .error e := by
  rw [inClassFile, answer_bind, answer_declaredName]
  cases declaredAt fs r path <;> simp

theorem inFolder_error_iff : answer (inFolder fs path relative) r = .error e ↔
    ∃ e', fs.isFile (path.join (Path.ofText relative)) = .error e' ∧ e = .file e' := by
  rw [answer_inFolder]
  cases fs.isFile (path.join (Path.ofText relative)) <;> simp [Except.mapError, Except.map, eq_comm]

theorem lookup_of_isFolder (hfolder : fs.isFolder path = .ok true) (relative : String) :
    lookup fs path relative = inFolder fs path relative := by
  simp [lookup, hfolder]

/-- An entry that is neither a folder nor of a known suffix fails a lookup if there is such a
thing. -/
theorem lookup_error_iff_of_other (hfolder : fs.isFolder path = .ok false)
    (hsuffix : path.suffix.toLower ∉ [".jar", ".zip", ".class"]) :
    answer (lookup fs path relative) r = .error e ↔
      fs.exists? path = .ok true ∧ e = .entry path .unknownKind := by
  have hkinds : path.suffix.toLower ≠ ".jar" ∧ path.suffix.toLower ≠ ".zip" ∧
      path.suffix.toLower ≠ ".class" := by simpa using hsuffix
  rcases hpath : fs.exists? path with e' | _ | _
  · have hprobe := FileSystem.exists?_eq_error_iff.mp hpath
    simp [FileSystem.isFolder_eq_error_iff.mpr hprobe] at hfolder
  · have hskipped : lookup fs path relative = (do
        tell s!"Skipping missing classpath directory {path.toText}"
        return none) := by simp [lookup, hfolder, hkinds, hpath]
    have hnone : answer (lookup fs path relative) r = .ok none := by
      rw [hskipped]
      rfl
    simp [hnone]
  · simp [lookup, hfolder, hkinds, hpath, eq_comm]

theorem Fails.answer_eq (hnull : FileSystem.hasNull path = false)
    (h : Fails fs r relative path e) : answer (lookup fs path relative) r = .error e := by
  cases h with
  | cannotProbe he => simp [lookup, he]
  | cannotProbeFile hfolder he =>
    rw [lookup_of_isFolder hfolder]
    exact inFolder_error_iff.mpr ⟨_, he, rfl⟩
  | unknownKind hfolder hsuffix hpath =>
    exact (lookup_error_iff_of_other hfolder hsuffix).mpr ⟨hpath, rfl⟩
  | noArchive hentry hkept hfile =>
    have hanew := openAnew_error_iff.mpr (.inr (.inl ⟨hfile, rfl⟩))
    rw [lookup_of_isArchive hentry]
    exact inArchive_error_iff.mpr (.inl (archiveAt_error_iff.mpr ⟨hkept, hanew⟩))
  | cannotOpenFile hentry hkept hfile he =>
    have hanew := openAnew_error_iff.mpr (.inr (.inr (.inl ⟨hfile, _, he, rfl⟩)))
    rw [lookup_of_isArchive hentry]
    exact inArchive_error_iff.mpr (.inl (archiveAt_error_iff.mpr ⟨hkept, hanew⟩))
  | cannotOpen hentry hkept hbytes ha =>
    have hanew := openAnew_error_iff.mpr (.inr (.inr (.inr ⟨_, _, hbytes, ha, rfl⟩)))
    rw [lookup_of_isArchive hentry]
    exact inArchive_error_iff.mpr (.inl (archiveAt_error_iff.mpr ⟨hkept, hanew⟩))
  | cannotReadMember hentry harchive hm ha =>
    rw [lookup_of_isArchive hentry]
    exact inArchive_error_iff.mpr (.inr ⟨_, _, _, harchive, hm, ha, rfl⟩)
  | cannotReadClass hentry hkept he =>
    have hanew := (readAnew_error_iff hnull).mpr (.inl ⟨_, he, rfl⟩)
    rw [lookup_of_isClassFile hentry]
    exact inClassFile_error_iff.mpr (declaredAt_error_iff.mpr ⟨hkept, hanew⟩)
  | cannotReadName hentry hkept hbytes he =>
    have hanew := (readAnew_error_iff hnull).mpr (.inr ⟨_, _, hbytes, he, rfl⟩)
    rw [lookup_of_isClassFile hentry]
    exact inClassFile_error_iff.mpr (declaredAt_error_iff.mpr ⟨hkept, hanew⟩)

theorem fails_of_inArchive (hentry : IsArchive fs path)
    (h : answer (inArchive fs path relative) r = .error e) : Fails fs r relative path e := by
  rcases inArchive_error_iff.mp h with h | ⟨archive, m, a, harchive, hm, ha, rfl⟩
  · obtain ⟨hkept, hanew⟩ := archiveAt_error_iff.mp h
    rcases openAnew_error_iff.mp hanew with ⟨e', he, rfl⟩ | ⟨hfile, rfl⟩ |
      ⟨hfile, e', he, rfl⟩ | ⟨bytes, a, hbytes, ha, rfl⟩
    · have hprobe := FileSystem.isFile_eq_error_iff.mp he
      exact .cannotProbe (FileSystem.isFolder_eq_error_iff.mpr hprobe)
    · exact .noArchive hentry hkept hfile
    · exact .cannotOpenFile hentry hkept hfile he
    · exact .cannotOpen hentry hkept hbytes ha
  · exact .cannotReadMember hentry harchive hm ha

theorem fails_of_inClassFile (hnull : FileSystem.hasNull path = false)
    (hentry : IsClassFile fs path) (h : answer (inClassFile fs path relative) r = .error e) :
    Fails fs r relative path e := by
  obtain ⟨hkept, hanew⟩ := declaredAt_error_iff.mp (inClassFile_error_iff.mp h)
  rcases (readAnew_error_iff hnull).mp hanew with ⟨e', he, rfl⟩ | ⟨bytes, e', hbytes, he, rfl⟩
  · exact .cannotReadClass hentry hkept he
  · exact .cannotReadName hentry hkept hbytes he

theorem fails_of_lookup (hnull : FileSystem.hasNull path = false)
    (h : answer (lookup fs path relative) r = .error e) : Fails fs r relative path e := by
  rcases hfolder : fs.isFolder path with e' | _ | _
  · rw [lookup, hfolder] at h
    obtain rfl := Except.error.inj h
    exact .cannotProbe hfolder
  · by_cases harchive : IsArchive fs path
    · rw [lookup_of_isArchive harchive] at h
      exact fails_of_inArchive harchive h
    by_cases hclass : IsClassFile fs path
    · rw [lookup_of_isClassFile hclass] at h
      exact fails_of_inClassFile hnull hclass h
    have hsuffix : path.suffix.toLower ∉ [".jar", ".zip", ".class"] := by
      simp_all [IsArchive, IsClassFile]
    obtain ⟨hpath, rfl⟩ := (lookup_error_iff_of_other hfolder hsuffix).mp h
    exact .unknownKind hfolder hsuffix hpath
  · rw [lookup_of_isFolder hfolder] at h
    obtain ⟨e', he, rfl⟩ := inFolder_error_iff.mp h
    exact .cannotProbeFile hfolder he

theorem lookup_error_iff (hnull : FileSystem.hasNull path = false) :
    answer (lookup fs path relative) r = .error e ↔ Fails fs r relative path e :=
  ⟨fails_of_lookup hnull, Fails.answer_eq hnull⟩

/-- The paths that a lookup probes at an entry. -/
def probed (path : Path) (relative : String) : List Path :=
  [path, path.join (Path.ofText relative)]

theorem Fails.blamed_or_passed (h : Fails fs r relative path e) :
    (∃ fault, e = .entry path fault) ∨ (∃ a : ArchiveError, a.isBroken = false ∧ e = .archive a) ∨
      ∃ e' : FileError, e'.path ∈ probed path relative ∧
        (e'.fault = .tooLong ∨ e'.fault = .denied) ∧ e = .file e' := by
  have hfault (wrap : ArchiveError → EntryFault) (a : ArchiveError) :
      (∃ fault, archiveFault path wrap a = .entry path fault) ∨
        ∃ a' : ArchiveError, a'.isBroken = false ∧ archiveFault path wrap a = .archive a' := by
    rw [archiveFault]
    split_ifs with hbroken
    · exact .inl ⟨_, rfl⟩
    · exact .inr ⟨a, by simpa using hbroken, rfl⟩
  have hprobe {e' : FileError} {p : Path} (hp : p ∈ probed path relative)
      (he : fs.probe p = .error e') : ∃ e'' : FileError, e''.path ∈ probed path relative ∧
        (e''.fault = .tooLong ∨ e''.fault = .denied) ∧ Error.file e' = .file e'' := by
    obtain ⟨-, hfault, rfl⟩ := FileSystem.probe_eq_error_iff.mp he
    exact ⟨e', hp, hfault, rfl⟩
  cases h with
  | cannotProbe he =>
    exact .inr (.inr (hprobe (by simp [probed]) (FileSystem.isFolder_eq_error_iff.mp he)))
  | cannotProbeFile _ he =>
    exact .inr (.inr (hprobe (by simp [probed]) (FileSystem.isFile_eq_error_iff.mp he)))
  | cannotOpenFile => exact .inl ⟨_, rfl⟩
  | cannotOpen => exact (hfault _ _).imp id .inl
  | cannotReadMember => exact (hfault _ _).imp id .inl
  | unknownKind => exact .inl ⟨_, rfl⟩
  | noArchive => exact .inl ⟨_, rfl⟩
  | cannotReadClass => exact .inl ⟨_, rfl⟩
  | cannotReadName => exact .inl ⟨_, rfl⟩

/-- What is wrong with files and archives. Names are not found or found to be wrong elsewhere. -/
inductive OfFiles : Error → Prop where
  | entry (path : Path) (fault : EntryFault) : OfFiles (.entry path fault)
  | file (e : FileError) : OfFiles (.file e)
  | archive (e : ArchiveError) : OfFiles (.archive e)

theorem ofFiles_archiveFault (path : Path) (wrap : ArchiveError → EntryFault) (a : ArchiveError) :
    OfFiles (archiveFault path wrap a) := by
  rw [archiveFault]
  split_ifs
  · exact .entry _ _
  · exact .archive a

theorem ofFiles_of_openAnew (h : openAnew fs path = .error e) : OfFiles e := by
  rcases openAnew_error_iff.mp h with ⟨_, -, rfl⟩ | ⟨-, rfl⟩ | ⟨-, _, -, rfl⟩ | ⟨_, _, -, -, rfl⟩
  · exact .file _
  · exact .entry _ _
  · exact .entry _ _
  · exact ofFiles_archiveFault _ _ _

theorem ofFiles_of_readAnew (h : readAnew fs path = .error e) : OfFiles e := by
  rw [readAnew] at h
  cases hread : fs.read path with
  | error e' =>
    rw [hread] at h
    dsimp only at h
    split_ifs at h
    · exact Except.error.inj h ▸ .file e'
    · exact Except.error.inj h ▸ .entry _ _
  | ok bytes =>
    cases hname : Class.nameOfBytes bytes with
    | error e' =>
      simp only [hread, hname] at h
      exact Except.error.inj h ▸ .entry _ _
    | ok name => simp [hread, hname] at h

theorem ofFiles_of_inArchive (h : answer (inArchive fs path relative) r = .error e) :
    OfFiles e := by
  rcases inArchive_error_iff.mp h with h | ⟨_, _, _, -, -, -, rfl⟩
  · exact ofFiles_of_openAnew (archiveAt_error_iff.mp h).2
  · exact ofFiles_archiveFault _ _ _

theorem ofFiles_of_lookup : answer (lookup fs path relative) r = .error e → OfFiles e := by
  refine lookup_cases (motive := fun x => answer x r = .error e → OfFiles e) ?fault ?folder
    ofFiles_of_inArchive ?classFile ?unknown ?skipped
  case fault =>
    intro e' h
    exact Except.error.inj h ▸ .file e'
  case folder =>
    intro h
    obtain ⟨e', -, rfl⟩ := inFolder_error_iff.mp h
    exact .file e'
  case classFile =>
    intro h
    exact ofFiles_of_readAnew (declaredAt_error_iff.mp (inClassFile_error_iff.mp h)).2
  case unknown =>
    intro h
    exact Except.error.inj h ▸ .entry _ _
  case skipped =>
    intro h
    cases h

theorem ofFiles_of_get (h : answer (get fs relative) r = .error e) : OfFiles e := by
  obtain ⟨path, -, hlookup⟩ := (answer_get_iff (by simp)).mp h
  exact ofFiles_of_lookup hlookup

theorem get_error_iff (hnull : ∀ path ∈ r.classpath.entries, FileSystem.hasNull path = false) :
    answer (get fs relative) r = .error e ↔
      ∃ path, Consulted fs r (stripped relative) path ∧ Fails fs r (stripped relative) path e := by
  rw [answer_get_iff (by simp)]
  constructor
  · rintro ⟨path, hconsulted, hlookup⟩
    exact ⟨path, hconsulted, (lookup_error_iff (hnull path hconsulted.mem)).mp hlookup⟩
  · rintro ⟨path, hconsulted, hfails⟩
    exact ⟨path, hconsulted, (lookup_error_iff (hnull path hconsulted.mem)).mpr hfails⟩

/-- A lookup fails exactly where an entry fails that it gets as far as. Nothing gets out of it then
but what blames the entry, what does not count as a broken archive, and what a probe of the entry or
of the file in it fails with. -/
theorem get_failures (fs : FileSystem) (r : Resolver) (relative : String)
    (hnull : ∀ path ∈ r.classpath.entries, FileSystem.hasNull path = false) :
    (∀ e, answer (get fs relative) r = .error e ↔
      ∃ path, Consulted fs r (stripped relative) path ∧ Fails fs r (stripped relative) path e) ∧
    ∀ path e, Fails fs r (stripped relative) path e →
      (∃ fault, e = .entry path fault) ∨ (∃ a : ArchiveError, a.isBroken = false ∧ e = .archive a) ∨
        ∃ e' : FileError, e'.path ∈ probed path (stripped relative) ∧
          (e'.fault = .tooLong ∨ e'.fault = .denied) ∧ e = .file e' :=
  ⟨fun _ => get_error_iff hnull, fun _ _ hfails => hfails.blamed_or_passed⟩

/-- An archive of one member that is empty and, as its flags have it, encrypted. -/
def encryptedJar : List UInt8 :=
  [0x50, 0x4B, 3, 4, 0x14, 0, 1, 0, 0, 0, 0, 0, 0, 0, 0, 0, 0, 0, 0, 0, 0, 0, 0, 0, 0, 0, 7, 0, 0,
    0, 0x41, 0x2E, 0x63, 0x6C, 0x61, 0x73, 0x73, 0x50, 0x4B, 1, 2, 0x14, 0, 0x14, 0, 1, 0, 0, 0,
    0, 0, 0, 0, 0, 0, 0, 0, 0, 0, 0, 0, 0, 0, 0, 0, 7, 0, 0, 0, 0, 0, 0, 0, 0, 0, 0, 0, 0, 0, 0,
    0, 0, 0, 0x41, 0x2E, 0x63, 0x6C, 0x61, 0x73, 0x73, 0x50, 0x4B, 5, 6, 0, 0, 0, 0, 1, 0, 1, 0,
    0x35, 0, 0, 0, 0x25, 0, 0, 0, 0, 0]

def encryptedFiles : FileSystem :=
  ⟨.folder [("a.jar", .file encryptedJar)], [], []⟩

def encryptedClasspath : Classpath :=
  ⟨[⟨.single, ["a.jar"]⟩]⟩

theorem get_encrypted : answer (get encryptedFiles "A.class")
    (new encryptedClasspath (.silent "classpath")) = .error (.archive .encrypted) := by
  decide +kernel

theorem get_failures_encrypted : ∃ path,
    Consulted encryptedFiles (new encryptedClasspath (.silent "classpath")) "A.class" path ∧
      Fails encryptedFiles (new encryptedClasspath (.silent "classpath")) "A.class" path
        (.archive .encrypted) := by
  have hstripped : stripped "A.class" = "A.class" := by decide
  rw [← hstripped]
  exact ((get_failures _ _ _ (by decide)).1 _).mp get_encrypted

/-- Not every failure blames an entry of the classpath. -/
theorem not_all_blamed : ¬ ∀ (fs : FileSystem) (classpath : Classpath) (journal : Log.Journal)
    (relative : String) (e : Error),
    (∀ path ∈ classpath.entries, FileSystem.hasNull path = false) →
    (∀ c ∈ relative.toList, c.toNat ≠ 0) →
    answer (get fs relative) (new classpath journal) = .error e →
    ∃ path ∈ classpath.entries, ∃ fault, e = .entry path fault := by
  intro h
  have htext : ∀ c ∈ "A.class".toList, c.toNat ≠ 0 := by simp
  obtain ⟨path, -, fault, he⟩ := h _ _ _ _ _ (by decide) htext get_encrypted
  cases he

end Resolver

end ClassAtlas
