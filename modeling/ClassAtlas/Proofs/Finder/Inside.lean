import ClassAtlas.Proofs.Finder.Declared
import ClassAtlas.Proofs.Finder.Failures
import ClassAtlas.Proofs.Hierarchy.Lineage
import ClassAtlas.Proofs.Name.Identifiers

/-! Where classes are looked for in folders. Names come from class files that nobody has checked,
and a path may lead upwards, but the identifiers of a name are names of files: the file of a class
lies inside the folder, and different names have different files there. -/

namespace ClassAtlas

namespace QualifiedName

variable {n m : QualifiedName}

/-- The file of a class below a folder. -/
def fileIn (n : QualifiedName) (folder : Path) : Path :=
  ⟨folder.root, folder.parts ++ n.place⟩

theorem ofText_resourcePath (n : QualifiedName) :
    Path.ofText n.resourcePath = ⟨.relative, n.place⟩ := by
  rw [← intercalate_place, Path.ofText_intercalate fun part => isFileName_of_mem_place]

theorem join_resourcePath (n : QualifiedName) (folder : Path) :
    folder.join (Path.ofText n.resourcePath) = n.fileIn folder := by
  rw [ofText_resourcePath, Path.join, if_pos rfl, fileIn]

theorem hasNull_fileIn {folder : Path} (h : FileSystem.hasNull folder = false)
    (n : QualifiedName) : FileSystem.hasNull (n.fileIn folder) = false := by
  rw [FileSystem.hasNull, List.any_eq_false] at h ⊢
  intro part hpart
  rcases List.mem_append.mp hpart with hpart | hpart
  · exact h part hpart
  · have hnull := null_not_mem_of_mem_place hpart
    rw [Bool.not_eq_true, List.any_eq_false]
    intro c hc hzero
    exact hnull (Char.toNat_inj.mp (beq_iff_eq.mp hzero : c.toNat = '\x00'.toNat) ▸ hc)

theorem ofText_normalized (n : QualifiedName) :
    Path.ofText n.normalized = ⟨.relative, n.identifiers⟩ := by
  rw [← intercalate_identifiers, Path.ofText_intercalate fun part => isFileName_of_mem]

theorem toText_ofText_normalized (n : QualifiedName) :
    (Path.ofText n.normalized).toText = n.normalized := by
  rw [ofText_normalized, Path.toText, if_neg fun h => n.identifiers_ne_nil h.2,
    intercalate_identifiers]
  simp [Path.Root.text]

theorem resourcePath_eq_iff : n.resourcePath = m.resourcePath ↔ n.normalized = m.normalized := by
  rw [resourcePath, resourcePath]
  constructor
  · intro h
    have htext := congrArg String.toList h
    rw [String.toList_append, String.toList_append] at htext
    exact String.toList_inj.mp (List.append_cancel_right htext)
  · intro h
    rw [h]

theorem ofText_resourcePath_eq_iff :
    Path.ofText n.resourcePath = Path.ofText m.resourcePath ↔ n.normalized = m.normalized := by
  rw [← resourcePath_eq_iff]
  constructor
  · intro h
    rw [ofText_resourcePath, ofText_resourcePath] at h
    rw [← intercalate_place, ← intercalate_place, (Path.mk.inj h).2]
  · intro h
    rw [h]

theorem package_eq_empty_iff : n.package = "" ↔ n.identifiers = [n.simpleName] := by
  obtain ⟨front, last, hids⟩ := n.exists_identifiers
  rw [package_eq hids, simpleName_eq hids, hids]
  cases front with
  | nil => simp
  | cons part front =>
    have hne : "/".intercalate (part :: front) ≠ "" := by
      intro h
      have hplace : ∀ p ∈ part :: front, Path.IsFileName p := fun p hp =>
        isFileName_of_mem (n := n) (by rw [hids]; exact List.mem_append_left _ hp)
      have hpath := Path.ofText_intercalate hplace
      rw [h] at hpath
      exact absurd (Path.mk.inj hpath).2 (List.cons_ne_nil _ _).symm
    simp [hne]

/-- Package and simple name give the slashed form back. The default package has no text, and no
slash stands behind it. -/
theorem normalized_eq_package (n : QualifiedName) : n.normalized =
    if n.package = "" then n.simpleName else n.package ++ "/" ++ n.simpleName := by
  obtain ⟨front, last, hids⟩ := n.exists_identifiers
  by_cases hempty : n.package = ""
  · rw [if_pos hempty, ← intercalate_identifiers, package_eq_empty_iff.mp hempty,
      String.intercalate_singleton]
  · have hfront : front ≠ [] := by
      rintro rfl
      exact hempty (package_eq hids)
    rw [if_neg hempty, package_eq hids, simpleName_eq hids, normalized_of_identifiers hids hfront]

end QualifiedName

namespace Path

variable {place : List String}

theorem collapse_append (parts : List String) (h : ∀ part ∈ place, IsFileName part) :
    collapse (parts ++ place) = collapse parts ++ place := by
  have hfold (done : List String) : place.foldl
      (fun done part => if part = ".." then done.tail else part :: done) done =
        place.reverse ++ done := by
    induction place generalizing done with
    | nil => rfl
    | cons part place ih =>
      obtain ⟨hpart, hrest⟩ := List.forall_mem_cons.mp h
      rw [List.foldl_cons, if_neg hpart.2.2.1, ih hrest, List.reverse_cons, List.append_assoc]
      rfl
  rw [collapse, List.foldl_append, hfold, List.reverse_append, List.reverse_reverse, collapse]

theorem absoluteParts_append (cwd : List String) (folder : Path)
    (h : ∀ part ∈ place, IsFileName part) :
    (⟨folder.root, folder.parts ++ place⟩ : Path).absoluteParts cwd =
      folder.absoluteParts cwd ++ place := by
  by_cases hroot : folder.root = .relative
  · simp only [absoluteParts, hroot, if_true]
    rw [← List.append_assoc, collapse_append _ h]
  · simp only [absoluteParts, hroot, if_false]
    rw [collapse_append _ h]

end Path

namespace Resolver

variable {fs : FileSystem} {n : QualifiedName} {folder : Path} {r : Resolver}

theorem stripped_resourcePath (n : QualifiedName) : stripped n.resourcePath = n.resourcePath := by
  have hvalid : isQualifiedName n.normalized.toList = true := by
    rw [n.normalized_eq, isQualifiedName_slashes]
    exact n.valid
  exact stripped_of_qualified hvalid ".class"

/-- In a folder, the file of the class is looked at and nothing else. -/
theorem answer_lookup_of_folder (hfolder : fs.isFolder folder = .ok true) (r : Resolver) :
    answer (lookup fs folder n.resourcePath) r =
      ((fs.isFile (n.fileIn folder)).mapError .file).map fun there =>
        if there then some (.ofFile fs (n.fileIn folder)) else none := by
  rw [lookup_of_isFolder hfolder, answer_inFolder, n.join_resourcePath]

/-- A folder that a lookup gets to decides it, unless the file of the class is not there. -/
theorem answer_get_of_consulted (hfolder : fs.isFolder folder = .ok true)
    (hconsulted : Consulted fs r n.resourcePath folder)
    (hthere : fs.isFile (n.fileIn folder) ≠ .ok false) :
    answer (get fs n.resourcePath) r = ((fs.isFile (n.fileIn folder)).mapError .file).map fun _ =>
      some (.ofFile fs (n.fileIn folder)) := by
  have hlookup : answer (lookup fs folder n.resourcePath) r =
      ((fs.isFile (n.fileIn folder)).mapError .file).map fun _ =>
        some (.ofFile fs (n.fileIn folder)) := by
    rw [answer_lookup_of_folder hfolder]
    rcases hfile : fs.isFile (n.fileIn folder) with e | _ | _
    · rfl
    · exact absurd hfile hthere
    · rfl
  refine (answer_get_iff ?_).mpr ⟨folder, ?_⟩
  · cases fs.isFile (n.fileIn folder) <;> simp [Except.mapError, Except.map]
  · rw [stripped_resourcePath]
    exact ⟨hconsulted, hlookup⟩

end Resolver

theorem NameLike.text_of_toSpan {name : NameLike} {v : NameSpan} (h : name.toSpan = .ok v) :
    v.toOwned.text = name.text := by
  rcases name.toSpan_owned with ⟨w, hw, htext⟩ | ⟨⟨e, he⟩, -⟩
  · obtain rfl : v = w := Except.ok.inj (h.symm.trans hw)
    exact htext
  · simp [he] at h

theorem NameLike.normalized_of_toSpan {name : NameLike} {v : NameSpan} (h : name.toSpan = .ok v) :
    v.toOwned.normalized = slashes name.key := by
  have htext := text_of_toSpan h
  cases name with
  | plain text => rw [v.toOwned.normalized_eq, htext]; rfl
  | span w =>
    obtain rfl : w = v := Except.ok.inj h
    show _ = slashes (slashes _)
    rw [slashes_slashes]
    rfl
  | owned n =>
    show _ = slashes (slashes _)
    rw [slashes_slashes, v.toOwned.normalized_eq, htext]
    rfl

namespace Finder

/-- What is found where a lookup gets to a folder that has the file of the class. -/
theorem answer_find_of_consulted {fs : FileSystem} {f : Finder} {name : NameLike} {v : NameSpan}
    {folder : Path} {bytes : List UInt8} (hname : name.toSpan = .ok v)
    (hfolder : fs.isFolder folder = .ok true)
    (hconsulted : Resolver.Consulted fs f.resolver v.toOwned.resourcePath folder)
    (hnew : f.cache.get? (.owned v.toOwned) = none)
    (hread : fs.read (v.toOwned.fileIn folder) = .ok bytes) :
    answer (find fs name) f =
      ((Class.ofBytes bytes).map fun c => ⟨c, some v.toOwned.normalized⟩).mapError .decode := by
  have hvalid : isQualifiedName name.text.toList = true := by
    rw [← NameLike.text_of_toSpan hname]
    exact v.toOwned.valid
  have hkey : slashes name.text = v.toOwned.normalized := by
    rw [v.toOwned.normalized_eq, NameLike.text_of_toSpan hname]
  have hmiss : f.cache.get? (.plain v.toOwned.normalized) = none :=
    (NameMap.get?_eq_of_key rfl).trans hnew
  have hfile := FileSystem.isFile_of_read hread
  have hget := Resolver.answer_get_of_consulted hfolder hconsulted (by simp [hfile])
  rw [hfile] at hget
  rw [answer_find, if_pos hvalid, hkey, found, hmiss, Option.elim_none, fetchAnew,
    ← QualifiedName.resourcePath, hget]
  have hresource : (Resource.ofFile fs (v.toOwned.fileIn folder)).read fs = .ok bytes := hread
  dsimp only [Except.mapError, Except.map, bind, Except.bind]
  rw [hresource]
  dsimp only
  cases Class.ofBytes bytes <;> rfl

/-- The file of a name, in each folder of a classpath, lies strictly inside the folder: the way
there is made of names of files and does not lead upwards, which is all that a lookup in the folder
looks at. The path of the slashed form has this form as its text, and package and simple name give
it back. Names have the same file exactly if they are equal as names. -/
theorem find_inside :
    (∀ (name : NameLike) (v : NameSpan), name.toSpan = .ok v →
      let n := v.toOwned
      (n.place ≠ [] ∧ ∀ part ∈ n.place, Path.IsFileName part) ∧
      (∀ (fs : FileSystem) (folder : Path) (r : Resolver), fs.isFolder folder = .ok true →
        answer (Resolver.lookup fs folder (Resolver.stripped n.resourcePath)) r =
          ((fs.isFile (n.fileIn folder)).mapError .file).map fun there =>
            if there then some (.ofFile fs (n.fileIn folder)) else none) ∧
      (∀ (fs : FileSystem) (f : Finder) (folder : Path) (bytes : List UInt8),
        fs.isFolder folder = .ok true → Resolver.Consulted fs f.resolver n.resourcePath folder →
        f.cache.get? (.owned n) = none → fs.read (n.fileIn folder) = .ok bytes →
        answer (find fs name) f =
          ((Class.ofBytes bytes).map fun c => ⟨c, some n.normalized⟩).mapError .decode) ∧
      (∀ (folder : Path) (cwd : List String),
        (n.fileIn folder).absoluteParts cwd = folder.absoluteParts cwd ++ n.place) ∧
      (Path.ofText n.normalized = ⟨.relative, n.identifiers⟩ ∧
        (Path.ofText n.normalized).toText = n.normalized) ∧
      n.normalized = (if n.package = "" then n.simpleName else n.package ++ "/" ++ n.simpleName) ∧
      (n.package = "" ↔ n.identifiers = [n.simpleName])) ∧
    ∀ (a b : NameLike) (v w : NameSpan), a.toSpan = .ok v → b.toSpan = .ok w →
      (Path.ofText v.toOwned.resourcePath = Path.ofText w.toOwned.resourcePath ↔
        (NameLike.span v == .span w) = true) ∧
      (v.toOwned.resourcePath = w.toOwned.resourcePath ↔ (NameLike.span v == .span w) = true) ∧
      ((a == b) = true → (NameLike.span v == .span w) = true) := by
  constructor
  · intro name v hname n
    refine ⟨⟨n.place_ne_nil, fun part => QualifiedName.isFileName_of_mem_place⟩, ?_, ?_, ?_,
      ⟨n.ofText_normalized, n.toText_ofText_normalized⟩, n.normalized_eq_package,
      QualifiedName.package_eq_empty_iff⟩
    · intro fs folder r hfolder
      rw [Resolver.stripped_resourcePath]
      exact Resolver.answer_lookup_of_folder hfolder r
    · intro fs f folder bytes hfolder hconsulted hnew hread
      exact answer_find_of_consulted hname hfolder hconsulted hnew hread
    · intro folder cwd
      exact Path.absoluteParts_append cwd folder fun part => QualifiedName.isFileName_of_mem_place
  · intro a b v w ha hb
    have hbeq : (NameLike.span v == .span w) = true ↔
        v.toOwned.normalized = w.toOwned.normalized := by
      rw [NameLike.beq_eq_key, decide_eq_true_iff]
      rfl
    rw [hbeq]
    refine ⟨QualifiedName.ofText_resourcePath_eq_iff, QualifiedName.resourcePath_eq_iff, ?_⟩
    intro heq
    rw [NameLike.beq_eq_key, decide_eq_true_iff] at heq
    rw [NameLike.normalized_of_toSpan ha, NameLike.normalized_of_toSpan hb, heq]

theorem find_inside_below :
    let v := QualifiedName.toSpan ⟨"a.B", by decide⟩
    let w := QualifiedName.toSpan ⟨"a/B", by decide⟩
    let files : FileSystem :=
      ⟨.folder [("lib", .folder [("a", .folder [("B.class", .file (pairFile 0x42 0x43))])])], [],
        []⟩
    let lib : Path := ⟨.single, ["lib"]⟩
    let f := new ⟨[lib]⟩ (Log.Journal.silent "engine")
    ((NameLike.plain "a.B").toSpan = .ok v ∧ (NameLike.plain "a/B").toSpan = .ok w ∧
      files.isFolder lib = .ok true ∧
        Resolver.Consulted files f.resolver v.toOwned.resourcePath lib ∧
      f.cache.get? (.owned v.toOwned) = none ∧
      files.read (v.toOwned.fileIn lib) = .ok (pairFile 0x42 0x43) ∧
      (NameLike.owned w.toOwned == .plain "a/B") = true) ∧
    v.toOwned.place = ["a", "B.class"] ∧
    (∃ c, answer (find files (.plain "a.B")) f = .ok c) ∧
    Path.ofText v.toOwned.resourcePath = Path.ofText w.toOwned.resourcePath ∧
    (NameLike.span w.toOwned.toSpan == .span w) = true := by
  intro v w files lib f
  have hv : (NameLike.plain "a.B").toSpan = .ok v := by
    rw [NameLike.toSpan, NameSpan.ofText_eq, dif_pos (by decide)]
  have hw : (NameLike.plain "a/B").toSpan = .ok w := by
    rw [NameLike.toSpan, NameSpan.ofText_eq, dif_pos (by decide)]
  have hfolder : files.isFolder lib = .ok true := by decide +kernel
  have hconsulted : Resolver.Consulted files f.resolver v.toOwned.resourcePath lib :=
    ⟨[], [], rfl, by simp⟩
  have hread : files.read (v.toOwned.fileIn lib) = .ok (pairFile 0x42 0x43) := by decide +kernel
  have hclass : (Class.ofBytes (pairFile 0x42 0x43)).toOption.isSome = true := by decide +kernel
  obtain ⟨c, hc⟩ := Option.isSome_iff_exists.mp hclass
  have hequal : (NameLike.owned w.toOwned == .plain "a/B") = true := by decide +kernel
  have hsame : (NameLike.span v == .span w) = true := by decide +kernel
  obtain ⟨-, -, hfind, -⟩ := find_inside.1 (.plain "a.B") v hv
  have hanswer := hfind files f lib _ hfolder hconsulted rfl hread
  rw [toOption_eq_some_iff.mp hc] at hanswer
  obtain ⟨hpath, -, -⟩ := find_inside.2 (.plain "a.B") (.plain "a/B") v w hv hw
  obtain ⟨-, -, halike⟩ := find_inside.2 (.owned w.toOwned) (.plain "a/B") _ w rfl hw
  exact ⟨⟨hv, hw, hfolder, hconsulted, rfl, hread, hequal⟩, by decide +kernel, ⟨_, hanswer⟩,
    hpath.mpr hsame, halike hequal⟩

/-- In the default package there is no slash to put in front of the simple name. -/
theorem not_all_recomposed :
    ¬ ∀ (name : NameLike) (v : NameSpan), name.toSpan = .ok v →
      v.toOwned.normalized = v.toOwned.package ++ "/" ++ v.toOwned.simpleName := by
  intro h
  have hspan :
      (NameLike.plain "Square").toSpan = .ok (QualifiedName.toSpan ⟨"Square", by decide⟩) := by
    rw [NameLike.toSpan, NameSpan.ofText_eq, dif_pos (by decide)]
  exact absurd (h (.plain "Square") _ hspan) (by decide +kernel)

end Finder

end ClassAtlas
