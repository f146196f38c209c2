import ClassAtlas.Hierarchy.Ancestors
import ClassAtlas.Proofs.Finder.Packed
import ClassAtlas.Proofs.History.Calls

/-! Packing a folder of a classpath into an archive. Whatever was asked before, no class that is
found and no hierarchy that is built tells the archive from the folder. -/

namespace ClassAtlas

namespace Finder

/-- An archive of the files of a folder, in its place, finds what the folder finds, failures
included, and so gives the same hierarchies with the same ancestors. The exception are names of
classes whose files cannot be probed in the folder or not be read: a lookup that gets to the folder
fails there, whatever the archive has of them. -/
theorem live_repacked {fs : FileSystem} {folder archive : Path}
    {entries : List (String × FileNode)} {a : Archive} {p q : Classpath}
    (hfolder : fs.node folder = .ok (.folder entries)) (harchive : Resolver.IsArchive fs archive)
    (hopen : Resolver.openAnew fs archive = .ok a) (hpacks : a.Packs (.folder entries))
    (hpq : Classpath.Repacked folder archive p q) (journal journal' : Log.Journal)
    (calls calls' : List Call) :
    let f := live (calls.map (Prod.mk fs)) (new p journal)
    let g := live (calls'.map (Prod.mk fs)) (new q journal')
    let stops := fun e => ∃ n : QualifiedName, Resolver.Unavailable fs (n.fileIn folder) e
    (∀ name v, name.toSpan = .ok v →
      EqUnless (Resolver.Unavailable fs (v.toOwned.fileIn folder)) (answer (find fs name) f)
        (answer (find fs name) g)) ∧
      (∀ name e, name.toSpan = .error e → answer (find fs name) f = answer (find fs name) g) ∧
      (∀ name v e, name.toSpan = .ok v → Resolver.Unavailable fs (v.toOwned.fileIn folder) e →
        Resolver.Consulted fs (.new p journal) v.toOwned.resourcePath folder →
        answer (find fs name) f = .error e) ∧
      (∀ root, EqUnless stops (answer (Hierarchy.build fs root) f)
        (answer (Hierarchy.build fs root) g)) ∧
      (∀ name, EqUnless stops (answer (buildNamed fs name) f) (answer (buildNamed fs name) g)) ∧
      ∀ name start, EqUnless stops (answer (buildNamed fs name) f >>= fun h => h.ancestors start)
        (answer (buildNamed fs name) g >>= fun h => h.ancestors start) := by
  intro f g stops
  have hf : (alike fs).r f (new p journal) := live_alike ((alike fs).refl _) calls
  have hg : (alike fs).r g (new q journal) :=
    (alike fs).trans (live_alike ((alike fs).refl _) calls') (alike_new journal)
  have hfind (name : NameLike) (v : NameSpan) (hname : name.toSpan = .ok v) :
      EqUnless (Resolver.Unavailable fs (v.toOwned.fileIn folder)) (answer (find fs name) f)
        (answer (find fs name) g) := by
    rw [(steady_find name).answer_eq hf, (steady_find name).answer_eq hg,
      answer_find_of_toSpan hname, answer_find_of_toSpan hname]
    exact find_repacked hfolder harchive hopen hpacks hpq journal v.toOwned
  have hother (name : NameLike) (e : NameError) (hname : name.toSpan = .error e) :
      answer (find fs name) f = answer (find fs name) g := by
    rw [find, hname]
    rfl
  have hfinds : FindsAlike stops fs f g := by
    intro name
    cases hname : name.toSpan with
    | error e => exact .of_eq (hother name e hname)
    | ok v => exact (hfind name v hname).mono fun e he => ⟨v.toOwned, he⟩
  have hstops (text : String) : ¬stops (.notFound text) := by
    rintro ⟨n, he⟩
    exact Resolver.not_unavailable_notFound fs _ text he
  have hbuild := Hierarchy.answer_build_congr hfinds hstops
  have hnamed (name : NameLike) :
      EqUnless stops (answer (buildNamed fs name) f) (answer (buildNamed fs name) g) := by
    rw [buildNamed, (steady_find name).answer_bind Hierarchy.steady_build,
      (steady_find name).answer_bind Hierarchy.steady_build]
    exact (hfinds name).bind hbuild
  refine ⟨hfind, hother, fun name v e hname he hconsulted => ?_, hbuild, hnamed,
    fun name start => (hnamed name).bind fun _ => .of_eq rfl⟩
  rw [(steady_find name).answer_eq hf, answer_find_of_toSpan hname]
  exact find_of_unavailable (FileSystem.isFolder_eq_true_iff.mpr ⟨_, hfolder⟩) hconsulted he

/-- An archive of one member, which is stored. -/
def packedJar : List UInt8 :=
  [0x50, 0x4B, 3, 4, 0x14, 0, 0, 0, 0, 0, 0, 0, 0x21, 0, 0x87, 0x45, 0xCD, 0xA1, 0x28, 0, 0, 0,
    0x28, 0, 0, 0, 9, 0, 0, 0, 0x70, 0x2F, 0x41, 0x2E, 0x63, 0x6C, 0x61, 0x73, 0x73] ++
  pairFile 0x41 0x42 ++
  [0x50, 0x4B, 1, 2, 0x14, 0, 0x14, 0, 0, 0, 0, 0, 0, 0, 0x21, 0, 0x87, 0x45, 0xCD, 0xA1, 0x28, 0,
    0, 0, 0x28, 0, 0, 0, 9, 0, 0, 0, 0, 0, 0, 0, 0, 0, 0, 0, 0, 0, 0, 0, 0, 0, 0x70, 0x2F, 0x41,
    0x2E, 0x63, 0x6C, 0x61, 0x73, 0x73, 0x50, 0x4B, 5, 6, 0, 0, 0, 0, 1, 0, 1, 0, 0x37, 0, 0, 0,
    0x4F, 0, 0, 0, 0, 0]

def packedMember : ArchiveMember :=
  ⟨"p/A.class", 0, 0, 0xA1CD4587, 40, 40, 0, 79⟩

def packedArchive : Archive :=
  ⟨packedJar, [packedMember]⟩

def packedEntries : List (String × FileNode) :=
  [("p", .folder [("A.class", .file (pairFile 0x41 0x42))])]

def packedFiles : FileSystem :=
  ⟨.folder [("d", .folder packedEntries), ("z.jar", .file packedJar)], [], []⟩

theorem lookup_lone {name only : String} {node found : FileNode}
    (h : [(only, node)].lookup name = some found) : name = only ∧ found = node := by
  rw [List.lookup_cons] at h
  by_cases hsame : name = only
  · simpa [hsame, eq_comm] using h
  · have hbeq : (name == only) = false := by simpa using hsame
    simp [hbeq] at h

theorem packedEntries_fileAt? {place : List String} {bytes : List UInt8} :
    (FileNode.folder packedEntries).fileAt? place = some bytes ↔
      place = ["p", "A.class"] ∧ bytes = pairFile 0x41 0x42 := by
  rw [FileNode.fileAt?_eq_some_iff]
  constructor
  · intro h
    cases place with
    | nil => cases h
    | cons x place =>
      obtain ⟨inner, hinner, h⟩ := Option.bind_eq_some_iff.mp h
      obtain ⟨rfl, rfl⟩ := lookup_lone hinner
      cases place with
      | nil => cases h
      | cons y place =>
        obtain ⟨last, hlast, h⟩ := Option.bind_eq_some_iff.mp h
        obtain ⟨rfl, rfl⟩ := lookup_lone hlast
        cases place with
        | nil => exact ⟨rfl, (FileNode.file.inj (Option.some.inj h)).symm⟩
        | cons z place => cases h
  · rintro ⟨rfl, rfl⟩
    rfl

theorem packedArchive_packs : packedArchive.Packs (.folder packedEntries) := by
  have hmember (name : String) (m : ArchiveMember) :
      packedArchive.member? name = some m ↔ name = "p/A.class" ∧ m = packedMember := by
    have hname : packedMember.name = "p/A.class" := by decide
    have hmembers : packedArchive.members.reverse = [packedMember] := rfl
    rw [Archive.member?, hmembers, List.find?_singleton, hname]
    by_cases h : "p/A.class" = name
    · simp [h, eq_comm]
    · simp [h, Ne.symm h]
  have hread : packedArchive.read packedMember = .ok (pairFile 0x41 0x42) := by decide +kernel
  constructor
  · intro name m hm
    obtain ⟨-, rfl⟩ := (hmember name m).mp hm
    exact ⟨_, hread⟩
  · intro name bytes
    constructor
    · rintro ⟨m, hm, hbytes⟩
      obtain ⟨rfl, rfl⟩ := (hmember name m).mp hm
      obtain rfl := Except.ok.inj (hread.symm.trans hbytes)
      exact ⟨["p", "A.class"], by decide, by decide, packedEntries_fileAt?.mpr ⟨rfl, rfl⟩⟩
    · rintro ⟨place, -, rfl, hfile⟩
      obtain ⟨rfl, rfl⟩ := packedEntries_fileAt?.mp hfile
      exact ⟨_, (hmember _ _).mpr ⟨by decide, rfl⟩, hread⟩

theorem packedFiles_node : packedFiles.node ⟨.single, ["d"]⟩ = .ok (.folder packedEntries) :=
  rfl

def packedFolders : Classpath :=
  ⟨[⟨.single, ["d"]⟩]⟩

def packedJars : Classpath :=
  ⟨[⟨.single, ["z.jar"]⟩]⟩

theorem packed_repacked :
    Classpath.Repacked ⟨.single, ["d"]⟩ ⟨.single, ["z.jar"]⟩ packedFolders packedJars :=
  .cons (.inr ⟨rfl, rfl⟩) .nil

def longText : List Char :=
  List.replicate 300 'a'

/-- The name of a class whose file would have too long a name. -/
def longName : QualifiedName :=
  ⟨String.ofList longText,
    String.toList_ofList ▸ (by decide +kernel : isQualifiedName longText = true)⟩

def longFile : String :=
  String.ofList longText ++ ".class"

def longFault : FileError :=
  ⟨.tooLong, ⟨.single, ["d", longFile]⟩⟩

theorem longName_place : longName.place = [longFile] := by
  have hpieces : pieces isNameSeparator longText = [longText] := by decide +kernel
  have hids : longName.identifiers = [] ++ [String.ofList longText] := by
    rw [QualifiedName.identifiers, longName, String.toList_ofList, hpieces]
    rfl
  exact QualifiedName.place_eq hids

theorem longName_resourcePath : longName.resourcePath = longFile := by
  rw [← longName.intercalate_place, longName_place, String.intercalate_singleton]

theorem longFile_node : packedFiles.node ⟨.single, ["d", longFile]⟩ = .error .tooLong := by
  have hnull : FileSystem.hasNull ⟨.single, ["d", longFile]⟩ = false := by
    have hletters : longText.any (fun c => c.toNat == 0) = false := by decide +kernel
    have htext : (String.ofList longText).toList = longText := String.toList_ofList
    rw [FileSystem.hasNull, longFile, List.any_cons, List.any_cons, String.toList_append, htext,
      List.any_append, hletters]
    decide
  have hsize : ¬FileSystem.maxPathSize < (⟨.single, ["d", longFile]⟩ : Path).size := by
    decide +kernel
  have hlong (es : List (String × FileNode)) : FileNode.entry longFile es = .error .tooLong :=
    FileNode.entry_eq_error_iff.mpr (.inl ⟨by decide +kernel, rfl⟩)
  rw [FileSystem.node, FileSystem.trail, if_neg (by simp [hnull]), if_neg hsize]
  change (packedFiles.root.walk [] [] ["d", longFile]).map _ = _
  rw [FileNode.walk_cons rfl, if_neg (by simp), if_neg (by decide),
    FileNode.entry_eq_ok_iff.mpr ⟨by decide, rfl⟩]
  dsimp only [Except.bind]
  rw [FileNode.walk_cons rfl, if_neg (by simp), if_neg (by decide +kernel), hlong]
  rfl

theorem longName_unavailable :
    Resolver.Unavailable packedFiles (longName.fileIn ⟨.single, ["d"]⟩) (.file longFault) := by
  refine .probe (FileSystem.isFile_eq_error_iff.mpr ?_)
  rw [QualifiedName.fileIn, longName_place]
  exact FileSystem.probe_eq_error_iff.mpr ⟨longFile_node, .inl rfl, rfl⟩

theorem live_repacked_jar :
    let f := new packedFolders (.silent "engine")
    let g := new packedJars (.silent "engine")
    (∃ c, answer (find packedFiles (.plain "p.A")) f = .ok c ∧
      answer (find packedFiles (.plain "p.A")) g = .ok c) ∧
    answer (buildNamed packedFiles (.plain "p.A")) f =
      answer (buildNamed packedFiles (.plain "p.A")) g ∧
    answer (find packedFiles (.owned longName)) f = .error (.file longFault) := by
  intro f g
  have hopen : Resolver.openAnew packedFiles ⟨.single, ["z.jar"]⟩ = .ok packedArchive := by
    decide +kernel
  obtain ⟨hfind, -, hlong, -, hbuild, -⟩ :=
    live_repacked packedFiles_node (by decide +kernel) hopen packedArchive_packs packed_repacked
      (.silent "engine") (.silent "engine") [] []
  have hsome : (answer (find packedFiles (.plain "p.A")) f).toOption.isSome = true := by
    decide +kernel
  obtain ⟨c, hc⟩ := Option.isSome_iff_exists.mp hsome
  have hfound := toOption_eq_some_iff.mp hc
  have hname : (NameLike.plain "p.A").toSpan = .ok (QualifiedName.toSpan ⟨"p.A", by decide⟩) := by
    rw [NameLike.toSpan, NameSpan.ofText_eq, dif_pos (by decide)]
  have hsame : answer (find packedFiles (.plain "p.A")) f =
      answer (find packedFiles (.plain "p.A")) g := by
    have hread : packedFiles.read ⟨.single, ["d", "p", "A.class"]⟩ = .ok (pairFile 0x41 0x42) := by
      decide +kernel
    exact (hfind _ _ hname).eq fun e => Resolver.not_unavailable_of_read hread e
  have hgraph : answer (buildNamed packedFiles (.plain "p.A")) f =
      answer (buildNamed packedFiles (.plain "p.A")) g := by
    refine (hbuild _).resolve_right ?_
    rintro ⟨e, -, he⟩
    have hbuilt : (answer (buildNamed packedFiles (.plain "p.A")) f).toOption.isSome = true := by
      decide +kernel
    change answer (buildNamed packedFiles (.plain "p.A")) f = .error e at he
    simp [he, Except.toOption] at hbuilt
  have hunavailable : Resolver.Unavailable packedFiles
      (longName.toSpan.toOwned.fileIn ⟨.single, ["d"]⟩) (.file longFault) := by
    rw [longName.toOwned_toSpan]
    exact longName_unavailable
  exact ⟨⟨c, hfound, hsame ▸ hfound⟩, hgraph,
    hlong (.owned longName) _ _ rfl hunavailable ⟨[], [], rfl, by simp⟩⟩

/-- For a class whose file cannot be probed in the folder, the archive's answer is another. -/
theorem not_all_repacked : ¬ ∀ (fs : FileSystem) (folder archive : Path)
    (entries : List (String × FileNode)) (a : Archive) (p q : Classpath) (journal : Log.Journal)
    (name : NameLike),
    fs.node folder = .ok (.folder entries) → Resolver.IsArchive fs archive →
    Resolver.openAnew fs archive = .ok a → a.Packs (.folder entries) →
    Classpath.Repacked folder archive p q →
    Alike (fun e e' => e.kind? = e'.kind?) Eq (answer (find fs name) (new p journal))
      (answer (find fs name) (new q journal)) := by
  intro h
  have hopen : Resolver.openAnew packedFiles ⟨.single, ["z.jar"]⟩ = .ok packedArchive := by
    decide +kernel
  have halike := h packedFiles ⟨.single, ["d"]⟩ ⟨.single, ["z.jar"]⟩ packedEntries packedArchive
    packedFolders packedJars (.silent "engine") (.owned longName) packedFiles_node
    (by decide +kernel) hopen packedArchive_packs packed_repacked
  have hfolder :
      answer (find packedFiles (.owned longName)) (new packedFolders (.silent "engine")) =
        .error (.file longFault) :=
    find_of_unavailable (by decide +kernel) ⟨[], [], rfl, by simp⟩ longName_unavailable
  have hmember : packedArchive.member? longName.resourcePath = none := by
    rw [longName_resourcePath]
    decide +kernel
  rw [hfolder, packedJars, find_of_no_member (by decide +kernel) hopen hmember] at halike
  cases halike with
  | error hkind => exact absurd hkind (by simp [Error.kind?])

end Finder

end ClassAtlas
