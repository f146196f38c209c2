import ClassAtlas.Proofs.FileSystem.Contents
import ClassAtlas.Proofs.Finder.FindSteady
import ClassAtlas.Proofs.Finder.Precedence

/-! The classes there are to be found: those found before, those in the opened archives, and those
in files and in archives yet to be opened. The capacity of a finder is enough for all of them. -/

namespace ClassAtlas

namespace Archive

theorem length_readMembers_le {shift : Int} {fuel : Nat} {data : List UInt8}
    {members : List ArchiveMember} (h : readMembers shift fuel data = .ok members) :
    members.length ≤ fuel := by
  induction fuel generalizing data members with
  | zero =>
    obtain rfl : [] = members := by simpa [readMembers] using h
    simp
  | succ fuel ih =>
    rw [readMembers] at h
    split_ifs at h
    · obtain rfl : [] = members := by simpa using h
      simp
    · obtain ⟨⟨m, size⟩, -, h⟩ := bind_eq_ok_iff.mp h
      obtain ⟨rest, hrest, h⟩ := bind_eq_ok_iff.mp h
      obtain rfl : m :: rest = members := by simpa [pure, Except.pure] using h
      simpa using ih hrest

theorem length_withLimits (directory : Int) (all before members : List ArchiveMember) :
    (withLimits directory all before members).length = members.length := by
  induction members generalizing before with
  | nil => rfl
  | cons m members ih => simp [withLimits, ih]

/-- Every member takes at least one byte of the directory. -/
theorem length_members_le {bytes : List UInt8} {a : Archive} (h : ofBytes bytes = .ok a) :
    a.members.length ≤ bytes.length := by
  rw [ofBytes] at h
  obtain ⟨record, -, h⟩ := bind_eq_ok_iff.mp h
  dsimp only at h
  split_ifs at h
  · obtain ⟨_, hthrow, -⟩ := bind_eq_ok_iff.mp h
    cases hthrow
  obtain ⟨members, hmembers, h⟩ := bind_eq_ok_iff.mp h
  obtain rfl := Except.ok.inj h
  have hle := length_readMembers_le hmembers
  rw [List.length_take, List.length_drop] at hle
  rw [length_withLimits]
  omega

def classes (a : Archive) : List Class :=
  a.members.filterMap fun m => (a.read m).toOption.bind fun bytes => (Class.ofBytes bytes).toOption

end Archive

/-- The classes a file may give: the one in it, and those among its members where it is an
archive. -/
def classesIn (bytes : List UInt8) : List Class :=
  (Class.ofBytes bytes).toOption.toList ++ (Archive.ofBytes bytes).toOption.elim [] Archive.classes

theorem length_classesIn_le (bytes : List UInt8) : (classesIn bytes).length ≤ bytes.length + 1 := by
  have hself : (Class.ofBytes bytes).toOption.toList.length ≤ 1 := Option.length_toList_le
  have hmembers : ((Archive.ofBytes bytes).toOption.elim [] Archive.classes).length ≤
      bytes.length := by
    rcases harchive : Archive.ofBytes bytes with e | a
    · exact Nat.zero_le _
    · exact (List.length_filterMap_le _ _).trans (Archive.length_members_le harchive)
  rw [classesIn, List.length_append]
  omega

namespace Resolver

variable {fs : FileSystem} {path : Path} {r : Resolver} {relative : String} {bytes : List UInt8}
  {resource : Resource}

theorem member_of_inArchive (h : answer (inArchive fs path relative) r = .ok (some resource))
    (hbytes : resource.backing = .inMemory bytes) :
    ∃ a, archiveAt fs r path = .ok a ∧ ∃ m ∈ a.members, a.read m = .ok bytes := by
  obtain ⟨a, ha, h⟩ := answer_bind_eq_ok_iff.mp h
  rw [answer_openArchive] at ha
  refine ⟨a, ha, ?_⟩
  cases hm : a.member? relative with
  | none => simp [hm] at h
  | some m =>
    rw [hm] at h
    dsimp only at h
    cases hread : a.read m with
    | error e => simp [hread] at h
    | ok data =>
      rw [hread] at h
      obtain rfl := Option.some.inj (Except.ok.inj h)
      obtain rfl := Backing.inMemory.inj hbytes
      exact ⟨m, List.mem_reverse.mp (List.mem_of_find?_eq_some hm), hread⟩

theorem backing_of_inFolder (h : answer (inFolder fs path relative) r = .ok (some resource)) :
    resource.backing ≠ .inMemory bytes := by
  rw [answer_inFolder] at h
  rcases hfile : fs.isFile (path.join (Path.ofText relative)) with e | _ | _
  · simp [hfile, Except.mapError, Except.map] at h
  · simp [hfile, Except.mapError, Except.map] at h
  · rw [hfile] at h
    obtain rfl := Option.some.inj (Except.ok.inj h)
    simp [Resource.ofFile]

theorem backing_of_inClassFile (h : answer (inClassFile fs path relative) r = .ok (some resource)) :
    resource.backing ≠ .inMemory bytes := by
  obtain ⟨name, -, h⟩ := answer_bind_eq_ok_iff.mp h
  have hfile := Except.ok.inj h
  split_ifs at hfile
  obtain rfl := Option.some.inj hfile
  simp [Resource.ofFile]

theorem member_of_lookup (hbytes : resource.backing = .inMemory bytes) :
    answer (lookup fs path relative) r = .ok (some resource) →
      ∃ a, archiveAt fs r path = .ok a ∧ ∃ m ∈ a.members, a.read m = .ok bytes := by
  refine lookup_cases (motive := fun x => answer x r = .ok (some resource) →
    ∃ a, archiveAt fs r path = .ok a ∧ ∃ m ∈ a.members, a.read m = .ok bytes) ?fault
      ?folder ?archive
    ?classFile ?unknown ?skipped
  case folder => exact fun h => absurd hbytes (backing_of_inFolder h)
  case archive => exact fun h => member_of_inArchive h hbytes
  case classFile => exact fun h => absurd hbytes (backing_of_inClassFile h)
  case fault => exact fun _ h => nomatch h
  case unknown => exact fun h => nomatch h
  case skipped => exact fun h => nomatch h

theorem member_of_get (h : answer (get fs relative) r = .ok (some resource))
    (hbytes : resource.backing = .inMemory bytes) :
    ∃ path a, archiveAt fs r path = .ok a ∧ ∃ m ∈ a.members, a.read m = .ok bytes := by
  obtain ⟨path, -, hfound⟩ := (answer_get_iff (by simp)).mp h
  exact ⟨path, member_of_lookup hbytes hfound⟩

end Resolver

theorem Archive.mem_classes {a : Archive} {m : ArchiveMember} {bytes : List UInt8} {c : Class}
    (hm : m ∈ a.members) (hread : a.read m = .ok bytes) (hc : Class.ofBytes bytes = .ok c) :
    c ∈ a.classes :=
  List.mem_filterMap.mpr ⟨m, hm, by simp [hread, hc, Except.toOption]⟩

theorem mem_classesIn {bytes : List UInt8} {c : Class} (hc : Class.ofBytes bytes = .ok c) :
    c ∈ classesIn bytes :=
  List.mem_append_left _ (by simp [hc, Except.toOption])

theorem classes_subset_classesIn {bytes : List UInt8} {a : Archive}
    (ha : Archive.ofBytes bytes = .ok a) : a.classes ⊆ classesIn bytes := by
  simp [classesIn, ha, Except.toOption]

namespace Finder

/-- The classes found before, those in the opened archives and those in files. -/
def available (fs : FileSystem) (f : Finder) : List Class :=
  f.cache.entries.map (fun e => e.2.toClass) ++
    (f.resolver.archives.flatMap (fun e => e.2.classes) ++ fs.root.contents.flatMap classesIn)

theorem length_flatMap_classesIn_le (files : List (List UInt8)) :
    (files.flatMap classesIn).length ≤ (files.map fun bytes => bytes.length + 1).sum := by
  rw [List.length_flatMap]
  exact List.sum_le_sum fun bytes _ => length_classesIn_le bytes

theorem length_flatMap_classes_le (archives : List (Path × Archive)) (n : Nat) :
    (archives.flatMap fun e => e.2.classes).length + n ≤
      archives.foldr (fun e n => e.2.members.length + n) n := by
  induction archives with
  | nil => simp
  | cons e archives ih =>
    have hmembers : e.2.classes.length ≤ e.2.members.length := List.length_filterMap_le _ _
    rw [List.flatMap_cons, List.length_append, List.foldr_cons]
    omega

theorem length_available_le (fs : FileSystem) (f : Finder) :
    (available fs f).length ≤ f.capacity fs := by
  have hfiles := (length_flatMap_classesIn_le fs.root.contents).trans fs.root.sum_contents_le
  have harchives := length_flatMap_classes_le f.resolver.archives (fs.root.size + f.cache.size)
  rw [available, List.length_append, List.length_append, List.length_map, ← NameMap.size, capacity]
  omega

variable {fs : FileSystem} {f : Finder}

theorem classesIn_subset_available {bytes : List UInt8} (h : bytes ∈ fs.root.contents) :
    classesIn bytes ⊆ available fs f := fun _ hc =>
  List.mem_append_right _ (List.mem_append_right _ (List.mem_flatMap.mpr ⟨bytes, h, hc⟩))

theorem classes_subset_available {path : Path} {a : Archive}
    (ha : f.resolver.archiveAt fs path = .ok a) : a.classes ⊆ available fs f := by
  rw [Resolver.archiveAt] at ha
  cases hk : f.resolver.archives.lookup path with
  | some kept =>
    rw [hk] at ha
    obtain rfl := Except.ok.inj ha
    obtain ⟨before, behind, harchives, -⟩ := List.lookup_eq_some_iff.mp hk
    have hmem : (path, kept) ∈ f.resolver.archives := by simp [harchives]
    exact fun c hc => List.mem_append_right _
      (List.mem_append_left _ (List.mem_flatMap.mpr ⟨_, hmem, hc⟩))
  | none =>
    rw [hk, Option.elim_none] at ha
    obtain ⟨bytes, hread, hopen⟩ := Resolver.openAnew_eq_ok_iff.mp ha
    exact List.Subset.trans (classes_subset_classesIn hopen)
      (classesIn_subset_available (FileSystem.mem_contents_of_read hread))

theorem mem_available_of_fetchAnew {key : String} {c : FoundClass}
    (h : fetchAnew fs f.resolver key = .ok c) : c.toClass ∈ available fs f := by
  obtain ⟨first, hget, h⟩ := bind_eq_ok_iff.mp h
  cases first with
  | none => cases h
  | some resource =>
    dsimp only at h
    rcases hread : resource.read fs with e | bytes
    · simp [hread] at h
    · rcases hclass : Class.ofBytes bytes with e | decoded
      · simp [hread, hclass] at h
      · rw [hread] at h
        dsimp only at h
        rw [hclass] at h
        obtain rfl := Except.ok.inj h
        cases hbacking : resource.backing with
        | onDisk path =>
          have hfile : fs.read path = .ok bytes := by simpa [Resource.read, hbacking] using hread
          exact classesIn_subset_available (FileSystem.mem_contents_of_read hfile)
            (mem_classesIn hclass)
        | inMemory data =>
          obtain rfl : data = bytes := by simpa [Resource.read, hbacking] using hread
          obtain ⟨path, a, ha, m, hm, hdata⟩ := Resolver.member_of_get hget hbacking
          exact classes_subset_available ha (Archive.mem_classes hm hdata hclass)

/-- Whatever is found is among the classes there are. -/
theorem mem_available_of_find {name : NameLike} {c : FoundClass}
    (h : answer (find fs name) f = .ok c) : c.toClass ∈ available fs f := by
  rw [answer_find] at h
  split_ifs at h
  rw [found] at h
  cases hcache : f.cache.get? (.plain (slashes name.text)) with
  | some kept =>
    rw [hcache] at h
    obtain rfl := Except.ok.inj h
    obtain ⟨e, he, hkept⟩ := List.mem_map.mp (NameMap.get?_mem hcache)
    exact List.mem_append_left _ (List.mem_map.mpr ⟨e, he, congrArg _ hkept⟩)
  | none =>
    rw [hcache] at h
    exact mem_available_of_fetchAnew h

end Finder

end ClassAtlas
