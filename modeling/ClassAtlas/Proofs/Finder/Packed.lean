import ClassAtlas.Proofs.FileSystem.Appending
import ClassAtlas.Proofs.Finder.Inside
import ClassAtlas.Proofs.Finder.Joined

/-! A folder and an archive of the files below it, as entries of a classpath. One looks for a class
at a place in the tree, the other for a member of an exact name; the names of classes make both come
to the same file. Where the place cannot be probed or the file there cannot be read, the folder
fails a lookup and the archive does not. -/

namespace ClassAtlas

/-- An archive of the files of a tree, each a member under its place, and of nothing else. What of
the tree is sealed does not matter. -/
structure Archive.Packs (tree : FileNode) (a : Archive) : Prop where
  readable : ∀ name m, a.member? name = some m → ∃ bytes, a.read m = .ok bytes
  holds_iff : ∀ name bytes, (∃ m, a.member? name = some m ∧ a.read m = .ok bytes) ↔
    ∃ place, (∀ part ∈ place, Path.IsFileName part) ∧ name = "/".intercalate place ∧
      tree.fileAt? place = some bytes

/-- A classpath in which an archive stands for a folder, at some of its places or at all. -/
def Classpath.Repacked (folder archive : Path) (p q : Classpath) : Prop :=
  List.Forall₂ (fun entry entry' => entry' = entry ∨ entry = folder ∧ entry' = archive) p.entries
    q.entries

namespace Resolver

variable {fs : FileSystem} {folder archive : Path} {tree : FileNode}
  {entries : List (String × FileNode)} {a : Archive} {r : Resolver} {place : List String}
  {paths paths' : List Path}

/-- What is read in the end, wherever it was found. -/
def contents (fs : FileSystem) (result : Except Error (Option Resource)) :
    Except Error (Option (List UInt8)) :=
  result >>= fun found =>
    match found with
    | none => .ok none
    | some resource =>
      match resource.read fs with
      | .error e => .error (.entry e.path (.cannotRead e))
      | .ok bytes => .ok (some bytes)

/-- A failure that says no more than that a file cannot be probed or not be read. -/
inductive Unavailable (fs : FileSystem) (file : Path) : Error → Prop where
  | probe {e : FileError} (he : fs.isFile file = .error e) : Unavailable fs file (.file e)
  | read {e : FileError} (hfile : fs.isFile file = .ok true) (he : fs.read file = .error e) :
    Unavailable fs file (.entry e.path (.cannotRead e))

theorem not_unavailable_notFound (fs : FileSystem) (file : Path) (text : String) :
    ¬Unavailable fs file (.notFound text) :=
  nofun

theorem not_unavailable_of_read {file : Path} {bytes : List UInt8}
    (h : fs.read file = .ok bytes) (e : Error) : ¬Unavailable fs file e := by
  rintro (hfile | ⟨-, hread⟩)
  · rw [FileSystem.isFile_of_read h] at hfile
    cases hfile
  · rw [h] at hread
    cases hread

theorem contents_of_folder (hfolder : fs.node folder = .ok (.folder entries))
    (hplace : ∀ part ∈ place, Path.IsFileName part)
    (hnull : FileSystem.hasNull (folder.join ⟨.relative, place⟩) = false) :
    EqUnless (Unavailable fs (folder.join ⟨.relative, place⟩))
      (contents fs (answer (lookup fs folder ("/".intercalate place)) r))
      (.ok ((FileNode.folder entries).fileAt? place)) := by
  have hthere : fs.isFolder folder = .ok true := FileSystem.isFolder_eq_true_iff.mpr ⟨_, hfolder⟩
  have hup : ".." ∉ place := fun hmem => (hplace _ hmem).2.2.1 rfl
  rw [lookup_of_isFolder hthere, answer_inFolder, Path.ofText_intercalate hplace]
  cases hprobe : fs.probe (folder.join ⟨.relative, place⟩) with
  | error e =>
    have hfile := FileSystem.isFile_eq_error_iff.mpr hprobe
    rw [hfile]
    exact .inr ⟨_, .probe hfile, rfl⟩
  | ok found =>
    have hfound := FileSystem.probe_join hfolder hup hnull hprobe
    rcases found with _ | ⟨bytes | inner⟩
    · rw [FileSystem.isFile, hprobe, FileNode.fileAt?, hfound]
      exact .of_eq rfl
    · have hnode := FileSystem.probe_eq_some_iff.mp hprobe
      have hfile := FileSystem.isFile_eq_true_iff.mpr ⟨bytes, hnode⟩
      rw [hfile, FileNode.fileAt?_eq_some_iff.mpr hfound]
      rcases FileSystem.read_of_node hnode with hread | hread
      · refine .of_eq ?_
        simp [contents, Except.mapError, Except.map, bind, Except.bind, Resource.ofFile,
          Resource.read, hread]
      · refine .inr ⟨_, .read hfile hread, ?_⟩
        simp [contents, Except.mapError, Except.map, bind, Except.bind, Resource.ofFile,
          Resource.read, hread]
    · rw [FileSystem.isFile, hprobe, FileNode.fileAt?, hfound]
      exact .of_eq rfl

theorem member_of_packs (hpacks : a.Packs tree) (hplace : ∀ part ∈ place, Path.IsFileName part)
    (bytes : List UInt8) :
    (∃ m, a.member? ("/".intercalate place) = some m ∧ a.read m = .ok bytes) ↔
      tree.fileAt? place = some bytes := by
  rw [hpacks.holds_iff]
  constructor
  · rintro ⟨place', hplace', htext, hfile⟩
    -- Different places have different texts.
    have hparts := Path.ofText_intercalate hplace
    rw [htext, Path.ofText_intercalate hplace'] at hparts
    rwa [← (Path.mk.inj hparts).2]
  · exact fun hfile => ⟨place, hplace, rfl, hfile⟩

theorem contents_of_archive (harchive : IsArchive fs archive)
    (hopen : archiveAt fs r archive = .ok a) (hpacks : a.Packs tree)
    (hplace : ∀ part ∈ place, Path.IsFileName part) :
    contents fs (answer (lookup fs archive ("/".intercalate place)) r) =
      .ok (tree.fileAt? place) := by
  have hmember := member_of_packs hpacks hplace
  rw [lookup_of_isArchive harchive, inArchive, answer_bind, answer_openArchive, hopen]
  dsimp only
  cases hm : a.member? ("/".intercalate place) with
  | none =>
    have hfile : tree.fileAt? place = none := by
      refine Option.eq_none_iff_forall_not_mem.mpr fun bytes hbytes => ?_
      obtain ⟨m, hsome, -⟩ := (hmember bytes).mpr hbytes
      simp [hm] at hsome
    rw [hfile]
    rfl
  | some m =>
    obtain ⟨bytes, hread⟩ := hpacks.readable _ m hm
    have hfile : tree.fileAt? place = some bytes := (hmember bytes).mp ⟨m, hm, hread⟩
    rw [hfile]
    simp [hread, contents, bind, Except.bind, Resource.ofMember, Resource.read]

theorem contents_firstOf_cons (path : Path) (relative : String) :
    contents fs (answer (firstOf fs relative (path :: paths)) r) =
      contents fs (answer (lookup fs path relative) r) >>= fun found =>
        match found with
        | none => contents fs (answer (firstOf fs relative paths) r)
        | some result => .ok (some result) := by
  rw [answer_firstOf_cons]
  rcases answer (lookup fs path relative) r with e | _ | resource
  · rfl
  · rfl
  · dsimp only [contents, bind, Except.bind]
    cases resource.read fs <;> rfl

theorem contents_repacked (hfolder : fs.node folder = .ok (.folder entries))
    (harchive : IsArchive fs archive) (hopen : archiveAt fs r archive = .ok a)
    (hpacks : a.Packs (.folder entries)) (hplace : ∀ part ∈ place, Path.IsFileName part)
    (hnull : FileSystem.hasNull (folder.join ⟨.relative, place⟩) = false)
    (hpaths : List.Forall₂ (fun entry entry' => entry' = entry ∨ entry = folder ∧ entry' = archive)
      paths paths') :
    EqUnless (Unavailable fs (folder.join ⟨.relative, place⟩))
      (contents fs (answer (firstOf fs ("/".intercalate place) paths) r))
      (contents fs (answer (firstOf fs ("/".intercalate place) paths') r)) := by
  induction hpaths with
  | nil => exact .of_eq rfl
  | cons hentry _ ih =>
    rw [contents_firstOf_cons, contents_firstOf_cons]
    refine EqUnless.bind ?_ fun found => ?_
    · rcases hentry with rfl | ⟨rfl, rfl⟩
      · exact .of_eq rfl
      · rw [contents_of_archive harchive hopen hpacks hplace]
        exact contents_of_folder hfolder hplace hnull
    · cases found with
      | none => exact ih
      | some result => exact .of_eq rfl

end Resolver

namespace Finder

variable {fs : FileSystem} {folder archive : Path} {entries : List (String × FileNode)}
  {a : Archive} {p q : Classpath} {journal : Log.Journal}

/-- A class depends on the bytes that are read for it, and on nothing else that was found. -/
theorem fetchAnew_eq_contents (fs : FileSystem) (r : Resolver) (key : String) : fetchAnew fs r key =
    Resolver.contents fs (answer (Resolver.get fs (key ++ ".class")) r) >>= fun found =>
      match found with
      | none => .error (.notFound key)
      | some bytes =>
        match Class.ofBytes bytes with
        | .error e => .error (.decode e)
        | .ok c => .ok ⟨c, some key⟩ := by
  rw [fetchAnew]
  rcases answer (Resolver.get fs (key ++ ".class")) r with e | _ | resource
  · rfl
  · rfl
  · dsimp only [bind, Except.bind, Resolver.contents]
    cases resource.read fs with
    | error e => rfl
    | ok bytes => rfl

theorem answer_find_owned (n : QualifiedName) (f : Finder) :
    answer (find fs (.owned n)) f = found fs f n.normalized := by
  rw [answer_find]
  exact if_pos n.valid

/-- An archive in the place of a folder finds what the folder finds, failures included, unless the
folder does not give the file away. -/
theorem find_repacked (hfolder : fs.node folder = .ok (.folder entries))
    (harchive : Resolver.IsArchive fs archive) (hopen : Resolver.openAnew fs archive = .ok a)
    (hpacks : a.Packs (.folder entries)) (hpq : Classpath.Repacked folder archive p q)
    (journal : Log.Journal) (n : QualifiedName) :
    EqUnless (Resolver.Unavailable fs (n.fileIn folder))
      (answer (find fs (.owned n)) (new p journal))
        (answer (find fs (.owned n)) (new q journal)) := by
  have hplace : ∀ part ∈ n.place, Path.IsFileName part := fun part =>
    QualifiedName.isFileName_of_mem_place
  have honto (paths : List Path) :
      answer (Resolver.firstOf fs n.resourcePath paths) (.new q journal) =
        answer (Resolver.firstOf fs n.resourcePath paths) (.new p journal) :=
    (Resolver.confined_firstOf fs _ paths).answer_onto (.new p journal) q
  have hnew : Resolver.archiveAt fs (.new p journal) archive = .ok a := hopen
  have hjoin : folder.join ⟨.relative, n.place⟩ = n.fileIn folder := by
    rw [← n.ofText_resourcePath, n.join_resourcePath]
  have hnull : FileSystem.hasNull (folder.join ⟨.relative, n.place⟩) = false :=
    hjoin ▸ QualifiedName.hasNull_fileIn (FileSystem.node_eq_ok_iff.mp hfolder).1.noNull n
  have hcontents := Resolver.contents_repacked hfolder harchive hnew hpacks hplace hnull hpq
  rw [n.intercalate_place, hjoin] at hcontents
  have hget (c : Classpath) : answer (Resolver.get fs (n.normalized ++ ".class")) (.new c journal) =
      answer (Resolver.firstOf fs n.resourcePath c.entries) (.new c journal) := by
    rw [← QualifiedName.resourcePath, Resolver.answer_get_new, Resolver.stripped_resourcePath]
  rw [answer_find_owned, answer_find_owned]
  change EqUnless _ (fetchAnew fs (.new p journal) _) (fetchAnew fs (.new q journal) _)
  rw [fetchAnew_eq_contents, fetchAnew_eq_contents, hget, hget, honto]
  exact hcontents.bind fun _ => .of_eq rfl

/-- A name is looked up by what it spells. -/
theorem answer_find_of_toSpan {name : NameLike} {v : NameSpan} (hname : name.toSpan = .ok v)
    (f : Finder) : answer (find fs name) f = answer (find fs (.owned v.toOwned)) f := by
  rw [answer_find_owned, answer_find, ← NameLike.text_of_toSpan hname]
  exact if_pos v.toOwned.valid

theorem find_of_no_member {n : QualifiedName} (harchive : Resolver.IsArchive fs archive)
    (hopen : Resolver.openAnew fs archive = .ok a) (hmember : a.member? n.resourcePath = none) :
    answer (find fs (.owned n)) (new ⟨[archive]⟩ journal) = .error (.notFound n.normalized) := by
  have hnew : Resolver.archiveAt fs (.new ⟨[archive]⟩ journal) archive = .ok a := hopen
  have hlookup : answer (Resolver.lookup fs archive n.resourcePath) (.new ⟨[archive]⟩ journal) =
      .ok none := by
    rw [Resolver.lookup_of_isArchive harchive, Resolver.inArchive, answer_bind,
      Resolver.answer_openArchive, hnew]
    dsimp only
    rw [hmember]
    rfl
  have hget : answer (Resolver.get fs (n.normalized ++ ".class")) (.new ⟨[archive]⟩ journal) =
      .ok none := by
    rw [← QualifiedName.resourcePath, Resolver.answer_get_new, Resolver.stripped_resourcePath,
      Resolver.answer_firstOf_cons, hlookup]
    rfl
  rw [answer_find_owned]
  change fetchAnew fs (.new ⟨[archive]⟩ journal) _ = _
  rw [fetchAnew, hget]
  rfl

/-- A folder that a lookup gets to fails it where the file of the class cannot be probed or not be
read. -/
theorem find_of_unavailable {n : QualifiedName} {e : Error}
    (hfolder : fs.isFolder folder = .ok true)
    (hconsulted : Resolver.Consulted fs (.new p journal) n.resourcePath folder)
    (he : Resolver.Unavailable fs (n.fileIn folder) e) :
    answer (find fs (.owned n)) (new p journal) = .error e := by
  rw [answer_find_owned]
  change fetchAnew fs (.new p journal) _ = _
  rw [fetchAnew, ← QualifiedName.resourcePath]
  cases he with
  | probe hfile =>
    rw [Resolver.answer_get_of_consulted hfolder hconsulted (by simp [hfile]), hfile]
    rfl
  | read hfile hread =>
    rw [Resolver.answer_get_of_consulted hfolder hconsulted (by simp [hfile]), hfile]
    dsimp only [Except.mapError, Except.map, bind, Except.bind, Resource.ofFile, Resource.read]
    rw [hread]
    rfl

end Finder

end ClassAtlas
