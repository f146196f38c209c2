import ClassAtlas.Proofs.ClassFile.OwnName
import ClassAtlas.Proofs.Finder.FindSteady
import ClassAtlas.Proofs.Finder.Precedence

/-! Classes that are found under the names they declare. A classpath of class files finds no others,
since each of the files answers only for the class in it. -/

namespace ClassAtlas

/-- A qualified name does not start with a slash. -/
theorem Resolver.stripped_of_qualified {key : String} (h : isQualifiedName key.toList = true)
    (suffix : String) : stripped (key ++ suffix) = key ++ suffix := by
  cases hkey : key.toList with
  | nil => simp [hkey, isQualifiedName, pieces, isIdentifier] at h
  | cons c cs =>
    have hslash : isSlash c = false := by
      by_contra hc
      have hsep : isNameSeparator c = true := by simp_all [isNameSeparator, isSlash]
      simp [hkey, isQualifiedName, pieces, hsep, isIdentifier] at h
    have hdrop : (key ++ suffix).toList.dropWhile isSlash = (key ++ suffix).toList := by
      rw [String.toList_append, hkey, List.cons_append,
        List.dropWhile_cons_of_neg (by simp [hslash])]
    rw [stripped, hdrop, String.ofList_toList]

namespace Finder

variable {fs : FileSystem} {f : Finder} {root c : FoundClass}

/-- Every class that is found declares the name it is asked for by. -/
def FindsDeclared (fs : FileSystem) (f : Finder) : Prop :=
  ∀ (name : NameLike) (c : FoundClass), answer (find fs name) f = .ok c → c.key = slashes name.text

theorem FindsDeclared.find_key (hdeclared : FindsDeclared fs f) {name : NameLike}
    (h : answer (find fs name) f = .ok c) : answer (find fs (.plain c.key)) f = .ok c := by
  have hkey := hdeclared name c h
  rw [answer_find] at h
  split_ifs at h with hvalid
  rw [hkey, answer_find]
  show (if isQualifiedName (slashes name.text).toList = true then
    found fs f (slashes (slashes name.text)) else _) = _
  rw [isQualifiedName_slashes, if_pos hvalid, slashes_slashes]
  exact h

theorem file_of_lookup {path : Path} {relative : String} {r : Resolver} {resource : Resource}
    (hentry : Resolver.IsClassFile fs path)
    (h : answer (Resolver.lookup fs path relative) r = .ok (some resource)) :
    ∃ name, r.declaredAt fs path = .ok name ∧ relative = name ++ ".class" ∧
      resource = .ofFile fs path := by
  rw [Resolver.lookup_of_isClassFile hentry] at h
  obtain ⟨name, hname, h⟩ := answer_bind_eq_ok_iff.mp h
  rw [Resolver.answer_declaredName] at hname
  have hfile := Except.ok.inj h
  split_ifs at hfile with hrelative
  exact ⟨name, hname, hrelative, (Option.some.inj hfile).symm⟩

theorem read_of_readAnew {path : Path} {name : String} (h : Resolver.readAnew fs path = .ok name) :
    ∃ bytes, fs.read path = .ok bytes ∧ Class.nameOfBytes bytes = .ok name := by
  rw [Resolver.readAnew] at h
  rcases hread : fs.read path with e | bytes
  · rw [hread] at h
    dsimp only at h
    split_ifs at h
  · rcases hname : Class.nameOfBytes bytes with e | name'
    · simp [hread, hname] at h
    · obtain rfl : name' = name := by simpa [hread, hname] using h
      exact ⟨bytes, rfl, hname⟩

/-- A class that is decoded from what one entry has, after the entries in front of it were asked in
vain. -/
def Obtains (fs : FileSystem) (r : Resolver) (key : String) (path : Path) (c : Class) : Prop :=
  Resolver.Consulted fs r (key ++ ".class") path ∧ ∃ resource bytes,
    answer (Resolver.lookup fs path (key ++ ".class")) r = .ok (some resource) ∧
      resource.read fs = .ok bytes ∧ Class.ofBytes bytes = .ok c

theorem exists_obtains {r : Resolver} {key : String} (hvalid : isQualifiedName key.toList = true)
    (h : fetchAnew fs r key = .ok c) : ∃ path, Obtains fs r key path c.toClass := by
  obtain ⟨first, hget, h⟩ := bind_eq_ok_iff.mp h
  cases first with
  | none => cases h
  | some resource =>
    obtain ⟨path, hconsulted, hlookup⟩ := (Resolver.answer_get_iff (by simp)).mp hget
    rw [Resolver.stripped_of_qualified hvalid] at hconsulted hlookup
    dsimp only at h
    cases hread : resource.read fs with
    | error e => simp [hread] at h
    | ok bytes =>
      rw [hread] at h
      dsimp only at h
      cases hclass : Class.ofBytes bytes with
      | error e => simp [hclass] at h
      | ok decoded =>
        rw [hclass] at h
        obtain rfl := Except.ok.inj h
        exact ⟨path, hconsulted, resource, bytes, hlookup, hread, hclass⟩

/-- A file that is an entry itself answers only for the class in it. -/
theorem Obtains.thisName_eq {r : Resolver} {key : String} {path : Path} {c : Class}
    (h : Obtains fs r key path c) (hnew : r.declaredAt fs path = Resolver.readAnew fs path)
    (hentry : Resolver.IsClassFile fs path) : c.thisName = key := by
  obtain ⟨-, resource, bytes, hlookup, hread, hclass⟩ := h
  obtain ⟨declared, hdeclared, hrelative, rfl⟩ := file_of_lookup hentry hlookup
  rw [hnew] at hdeclared
  obtain ⟨bytes', hread', hname⟩ := read_of_readAnew hdeclared
  obtain rfl : bytes = bytes' := Except.ok.inj (hread.symm.trans hread')
  rw [Class.nameOfBytes_of_ofBytes hclass] at hname
  obtain rfl := Except.ok.inj hname
  simpa using hrelative.symm

theorem findsDeclared_of_classFiles {classpath : Classpath}
    (hfiles : ∀ path ∈ classpath.entries, Resolver.IsClassFile fs path) (journal : Log.Journal) :
    FindsDeclared fs (.new classpath journal) := by
  intro name c hfind
  rw [answer_find] at hfind
  split_ifs at hfind with hvalid
  rw [← isQualifiedName_slashes] at hvalid
  obtain ⟨path, hobtains⟩ := exists_obtains hvalid hfind
  have hname : c.thisName = slashes name.text :=
    hobtains.thisName_eq rfl (hfiles path hobtains.1.mem)
  rw [Class.key, hname, slashes_slashes]

end Finder

end ClassAtlas
