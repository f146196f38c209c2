import ClassAtlas.Proofs.FileSystem.Folders

/-! Files that are added to. Preparing a file leads to one, which is there from then on; adding to a
file that is there succeeds and changes no other. -/

namespace ClassAtlas

namespace FileNode

variable {root root' root'' node : FileNode} {es : List (String × FileNode)} {name : String}
  {names done place other : List String} {trail way : List (String × FileNode)} {bytes : List UInt8}

/-- The content of the file at a place. -/
def fileAt? (root : FileNode) (place : List String) : Option (List UInt8) :=
  match root.at? place with
  | some (file bytes) => some bytes
  | _ => none

theorem fileAt?_eq_some_iff :
    root.fileAt? place = some bytes ↔ root.at? place = some (file bytes) := by
  rw [fileAt?]
  split <;> simp_all

theorem fileAt?_cons_folder (es : List (String × FileNode)) (name : String) (names : List String) :
    (folder es).fileAt? (name :: names) = (es.lookup name).bind fun node => node.fileAt? names := by
  rw [fileAt?, at?]
  cases es.lookup name <;> rfl

/-- New content takes the place of the old; no other file changes. -/
theorem fileAt?_insert_file (h : (root.fileAt? place).isSome) (bytes : List UInt8)
    (other : List String) :
    (root.insert place (file bytes)).fileAt? other =
      if other = place then some bytes else root.fileAt? other := by
  induction place generalizing root other with
  | nil =>
    cases root with
    | folder es => cases h
    | file old => cases other <;> rfl
  | cons name place ih =>
    cases root with
    | file old => cases h
    | folder es =>
      cases other with
      | nil => rfl
      | cons first other =>
        rw [insert, fileAt?_cons_folder, fileAt?_cons_folder, lookup_setEntry]
        by_cases hfirst : first = name
        · subst hfirst
          rw [fileAt?_cons_folder] at h
          cases hchild : es.lookup first with
          | none => simp [hchild] at h
          | some child =>
            rw [hchild] at h
            simp [ih h]
        · simp [hfirst]

/-- What is put where nothing is leaves every file as it is. -/
theorem fileAt?_insert_of_free (hfree : root.at? place = none) (node : FileNode)
    (hfile : root.fileAt? other = some bytes) :
      (root.insert place node).fileAt? other = some bytes := by
  induction place generalizing root other with
  | nil => cases root <;> cases hfree
  | cons name place ih =>
    cases root with
    | file old => exact hfile
    | folder es =>
      cases other with
      | nil => cases hfile
      | cons first other =>
        rw [insert, fileAt?_cons_folder, lookup_setEntry]
        rw [fileAt?_cons_folder] at hfile
        by_cases hfirst : first = name
        · subst hfirst
          obtain ⟨child, hchild, hfile⟩ := Option.bind_eq_some_iff.mp hfile
          rw [at?, hchild] at hfree
          simpa [hchild] using ih hfree hfile
        · simpa [hfirst] using hfile

theorem at?_insert_entry (h : root.at? names = some (folder es)) (name : String) (node : FileNode) :
    (root.insert (names ++ [name]) node).at? (names ++ [name]) = some node := by
  induction names generalizing root with
  | nil =>
    obtain rfl : folder es = root := by
      cases root <;> exact (Option.some.inj h).symm
    rw [List.nil_append, insert, at?, lookup_setEntry, if_pos rfl]
    cases node <;> rfl
  | cons first names ih =>
    cases root with
    | file old => cases h
    | folder entries =>
      rw [at?] at h
      obtain ⟨child, hchild, h⟩ := Option.bind_eq_some_iff.mp h
      rw [List.cons_append, insert, at?, lookup_setEntry, if_pos rfl, hchild]
      exact ih h

/-- Every file is still one. Its content may be another. -/
def KeepsFiles (root root' : FileNode) : Prop :=
  ∀ place, (root.fileAt? place).isSome → (root'.fileAt? place).isSome

theorem KeepsFiles.refl (root : FileNode) : KeepsFiles root root :=
  fun _ h => h

theorem KeepsFiles.trans (h : KeepsFiles root root') (h' : KeepsFiles root' root'') :
    KeepsFiles root root'' :=
  fun place hfile => h' place (h place hfile)

theorem keepsFiles_insert_of_free (hfree : root.at? place = none) (node : FileNode) :
    KeepsFiles root (root.insert place node) := by
  intro other hfile
  obtain ⟨bytes, hbytes⟩ := Option.isSome_iff_exists.mp hfile
  rw [fileAt?_insert_of_free hfree node hbytes]
  rfl

theorem keepsFiles_insert_file (h : ∀ es, root.at? place ≠ some (folder es)) (bytes : List UInt8) :
    KeepsFiles root (root.insert place (file bytes)) := by
  cases hnode : root.at? place with
  | none => exact keepsFiles_insert_of_free hnode _
  | some node =>
    cases node with
    | folder es => exact absurd hnode (h es)
    | file old =>
      have hfile : (root.fileAt? place).isSome := by
        rw [fileAt?_eq_some_iff.mpr hnode]
        rfl
      intro other hother
      rw [fileAt?_insert_file hfile]
      split_ifs
      · rfl
      · exact hother

end FileNode

namespace FileSystem

open FileNode

variable {fs fs' fs'' : FileSystem} {p : Path} {bytes old : List UInt8} {root root' : FileNode}
  {sealedPlaces : List (List String)} {es way trail : List (String × FileNode)} {name : String}
  {names place : List String}

/-- A trail of the names that lead down to where it has come, as it is followed from the root. -/
structure IsWay (sealedPlaces : List (List String)) (root : FileNode)
    (trail : List (String × FileNode)) : Prop where
  walk : root.walk sealedPlaces [] (placeOf trail) = .ok trail
  down : ".." ∉ trail.map Prod.fst

theorem isWay_nil (sealedPlaces : List (List String)) (root : FileNode) :
    IsWay sealedPlaces root [] :=
  ⟨rfl, by simp⟩

namespace IsWay

theorem isTrail (h : IsWay sealedPlaces root trail) : IsTrail root trail :=
  isTrail_of_walk (isTrail_nil _) h.walk

theorem at?_eq (h : IsWay sealedPlaces root trail) :
    root.at? (trail.map Prod.fst).reverse = some (root.reached trail) :=
  h.isTrail.at?_placeOf

/-- A step down from the end of the way. -/
theorem walk_step (h : IsWay sealedPlaces root trail) (hes : root.reached trail = .folder es)
    (hopen : placeOf trail ∉ sealedPlaces) (hup : name ≠ "..") :
    root.walk sealedPlaces [] (placeOf trail ++ [name]) =
      (entry name es).map fun node => (name, node) :: trail := by
  rw [walk_append, h.walk]
  refine (walk_cons hes name []).trans ?_
  rw [if_neg hopen, if_neg hup]
  cases entry name es <;> rfl

theorem cons {node : FileNode} (h : IsWay sealedPlaces root trail)
    (hes : root.reached trail = .folder es) (hopen : placeOf trail ∉ sealedPlaces)
    (hup : name ≠ "..") (hentry : entry name es = .ok node) :
    IsWay sealedPlaces root ((name, node) :: trail) where
  walk := by
    have hplace : placeOf ((name, node) :: trail) = placeOf trail ++ [name] := by simp [placeOf]
    rw [hplace, h.walk_step hes hopen hup, hentry]
    rfl
  down := by
    rintro (_ | ⟨_, hmem⟩)
    · exact hup rfl
    · exact h.down hmem

theorem tail (h : IsWay sealedPlaces root trail) : IsWay sealedPlaces root trail.tail := by
  cases trail with
  | nil => exact h
  | cons last trail =>
    obtain ⟨name, node⟩ := last
    have hplace : placeOf ((name, node) :: trail) = placeOf trail ++ [name] := by simp [placeOf]
    have hwalk := h.walk
    rw [hplace, walk_append] at hwalk
    obtain ⟨way, hway, hlast⟩ := bind_eq_ok_iff.mp hwalk
    obtain ⟨es, -, -, ⟨rfl, -⟩ | ⟨-, found, -, hrest⟩⟩ := walk_cons_eq_ok_iff.mp hlast
    · exact absurd List.mem_cons_self h.down
    · obtain ⟨-, rfl⟩ := List.cons.inj (Except.ok.inj hrest)
      exact ⟨hway, fun hmem => h.down (List.mem_cons_of_mem _ hmem)⟩

theorem kept (h : IsWay sealedPlaces root trail) (hkeeps : root.KeepsFolders root')
    (hes : root.reached trail = .folder es) : ∃ trail' es', IsWay sealedPlaces root' trail' ∧
      trail'.map Prod.fst = trail.map Prod.fst ∧ root'.reached trail' = .folder es' := by
  obtain ⟨trail', es', hwalk, hnames, hes'⟩ :=
    walk_of_keepsFolders hkeeps (isTrail_nil _) (isTrail_nil _) rfl h.walk hes
  have hplace : placeOf trail' = placeOf trail := by rw [placeOf, placeOf, hnames]
  exact ⟨trail', es', ⟨hplace.symm ▸ hwalk, hnames.symm ▸ h.down⟩, hnames, hes'⟩

end IsWay

theorem addFolders_up (hopen : placeOf trail ∉ sealedPlaces) (hup : name = "..") :
    root.addFolders sealedPlaces (trail.map Prod.fst) (name :: names) =
      root.addFolders sealedPlaces (trail.tail.map Prod.fst) names := by
  rw [addFolders, if_neg (show ¬(trail.map Prod.fst).reverse ∈ sealedPlaces from hopen), if_pos hup,
    List.map_tail]

theorem addFolders_down (h : IsWay sealedPlaces root trail) (hes : root.reached trail = .folder es)
    (hopen : placeOf trail ∉ sealedPlaces) (hup : name ≠ "..") :
    root.addFolders sealedPlaces (trail.map Prod.fst) (name :: names) =
      match entry name es with
      | .ok (.file _) => .error (if names.isEmpty then .exists else .notFolder)
      | .ok (.folder _) => root.addFolders sealedPlaces (name :: trail.map Prod.fst) names
      | .error .missing =>
        (root.insert (placeOf trail ++ [name]) (.folder [])).addFolders sealedPlaces
          (name :: trail.map Prod.fst) names
      | .error fault => .error fault := by
  have hplace : (name :: trail.map Prod.fst).reverse = placeOf trail ++ [name] := by simp [placeOf]
  rw [addFolders, if_neg (show ¬(trail.map Prod.fst).reverse ∈ sealedPlaces from hopen), if_neg hup,
    hplace]
  dsimp only
  rw [h.walk_step hes hopen hup]
  rcases entry name es with fault | ⟨bytes | inner⟩
  · cases fault <;> rfl
  · rfl
  · rfl

/-- Whether it was there or had to be made, the next folder is there, and all files still are. -/
theorem addFolders_step (h : IsWay sealedPlaces root trail)
    (hes : root.reached trail = .folder es) (hopen : placeOf trail ∉ sealedPlaces)
    (hup : name ≠ "..")
    (hadd : root.addFolders sealedPlaces (trail.map Prod.fst) (name :: names) =
      .ok (root', place)) :
    ∃ next trail' inner, IsWay sealedPlaces next trail' ∧
      trail'.map Prod.fst = name :: trail.map Prod.fst ∧ next.reached trail' = .folder inner ∧
      next.addFolders sealedPlaces (name :: trail.map Prod.fst) names = .ok (root', place) ∧
      root.KeepsFiles next := by
  rw [addFolders_down h hes hopen hup] at hadd
  cases hentry : entry name es with
  | ok node =>
    rw [hentry] at hadd
    cases node with
    | file bytes => cases hadd
    | folder inner =>
      exact ⟨root, _, inner, h.cons hes hopen hup hentry, rfl, rfl, hadd, .refl _⟩
  | error fault =>
    rw [hentry] at hadd
    rcases entry_eq_error_iff.mp hentry with ⟨-, rfl⟩ | ⟨hshort, hlookup, rfl⟩
    · cases hadd
    have hfree : root.at? (placeOf trail ++ [name]) = none := by
      rw [h.isTrail.at?_entry hes, hlookup]
    have hkeeps := keepsFolders_insert (fun es' => by rw [hfree]; simp) (.folder [])
    obtain ⟨trail', es', hway, hnames, hes'⟩ := h.kept hkeeps hes
    have hsame : placeOf trail' = placeOf trail := by rw [placeOf, placeOf, hnames]
    have hmade := at?_insert_entry (h.at?_eq.trans (congrArg some hes)) name (.folder [])
    have hthere := hway.isTrail.at?_entry hes' name
    rw [hsame] at hthere
    have hentry' : entry name es' = .ok (.folder []) :=
      entry_eq_ok_iff.mpr ⟨hshort, hthere.symm.trans hmade⟩
    refine ⟨_, _, [], hway.cons hes' (hsame ▸ hopen) hup hentry', ?_, rfl, hadd,
      keepsFiles_insert_of_free hfree _⟩
    rw [List.map_cons, hnames]

theorem not_sealed_of_addFolders
    (hadd : root.addFolders sealedPlaces (trail.map Prod.fst) (name :: names) =
      .ok (root', place)) :
    placeOf trail ∉ sealedPlaces := by
  intro hsealed
  rw [addFolders, if_pos (show (trail.map Prod.fst).reverse ∈ sealedPlaces from hsealed)] at hadd
  cases hadd

/-- The folders that are made lead on to a folder. -/
theorem walk_addFolders (h : IsWay sealedPlaces root trail) (hes : root.reached trail = .folder es)
    (hadd : root.addFolders sealedPlaces (trail.map Prod.fst) names = .ok (root', place)) :
    ∃ way es', root'.walk sealedPlaces [] (placeOf trail ++ names) = .ok way ∧
      root'.reached way = .folder es' := by
  induction names generalizing root trail es with
  | nil =>
    obtain ⟨rfl, -⟩ := Prod.mk.inj (Except.ok.inj hadd)
    rw [List.append_nil]
    exact ⟨trail, es, h.walk, hes⟩
  | cons name names ih =>
    have hopen := not_sealed_of_addFolders hadd
    by_cases hup : name = ".."
    · -- The way up is one in the tree that is made, too, where it starts from the same folder.
      obtain ⟨trail', es', h', hnames, hes'⟩ := h.kept (keepsFolders_addFolders h.down hadd) hes
      have hsame : placeOf trail' = placeOf trail := by rw [placeOf, placeOf, hnames]
      have htails : placeOf trail'.tail = placeOf trail.tail := by
        rw [placeOf, placeOf, List.map_tail, List.map_tail, hnames]
      rw [addFolders_up hopen hup] at hadd
      obtain ⟨above, habove⟩ := h.isTrail.folder_tail hes
      obtain ⟨way, inner, hway, hinner⟩ := ih h.tail habove hadd
      refine ⟨way, inner, ?_, hinner⟩
      rw [← htails, walk_append, h'.tail.walk] at hway
      rw [← hsame, walk_append, h'.walk]
      exact walk_cons_eq_ok_iff.mpr ⟨es', hes', hsame ▸ hopen, .inl ⟨hup, hway⟩⟩
    · obtain ⟨next, trail', inner, h', hnames, hinner, hadd', -⟩ :=
        addFolders_step h hes hopen hup hadd
      have hplace : placeOf trail' = placeOf trail ++ [name] := by simp [placeOf, hnames]
      rw [← hnames] at hadd'
      have hway := ih h' hinner hadd'
      rwa [hplace, List.append_assoc] at hway

/-- Where all folders are there, none is made. -/
theorem addFolders_of_walk (h : IsWay sealedPlaces root trail)
    (hwalk : root.walk sealedPlaces trail names = .ok way) (hway : root.reached way = .folder es) :
    ∃ place, root.addFolders sealedPlaces (trail.map Prod.fst) names = .ok (root, place) := by
  induction names generalizing trail with
  | nil => exact ⟨_, rfl⟩
  | cons name names ih =>
    obtain ⟨here, hhere, hopen, ⟨hup, hrest⟩ | ⟨hup, node, hentry, hrest⟩⟩ :=
      walk_cons_eq_ok_iff.mp hwalk
    · rw [addFolders_up hopen hup]
      exact ih h.tail hrest
    · obtain ⟨inner, hinner⟩ := folder_of_walk hrest hway
      obtain rfl : node = .folder inner := hinner
      obtain ⟨place, hadd⟩ := ih (h.cons hhere hopen hup hentry) hrest
      refine ⟨place, ?_⟩
      rw [addFolders_down h hhere hopen hup, hentry]
      exact hadd

theorem keepsFiles_addFolders (h : IsWay sealedPlaces root trail)
    (hes : root.reached trail = .folder es)
    (hadd : root.addFolders sealedPlaces (trail.map Prod.fst) names = .ok (root', place)) :
    root.KeepsFiles root' := by
  induction names generalizing root trail es with
  | nil =>
    obtain ⟨rfl, -⟩ := Prod.mk.inj (Except.ok.inj hadd)
    exact .refl _
  | cons name names ih =>
    have hopen := not_sealed_of_addFolders hadd
    by_cases hup : name = ".."
    · rw [addFolders_up hopen hup] at hadd
      obtain ⟨above, habove⟩ := h.isTrail.folder_tail hes
      exact ih h.tail habove hadd
    · obtain ⟨next, trail', inner, h', hnames, hinner, hadd', hkeeps⟩ :=
        addFolders_step h hes hopen hup hadd
      rw [← hnames] at hadd'
      exact hkeeps.trans (ih h' hinner hadd')

theorem walk_makeFolders (hroot : fs.root = .folder es) (h : fs.makeFolders p = .ok fs') :
    IsPlain p ∧ (∃ way es', fs'.root.walk fs'.sealedPlaces [] (fs'.components p) = .ok way ∧
      fs'.root.reached way = .folder es') ∧ fs.root.KeepsFiles fs'.root := by
  obtain ⟨hplain, root, place, hadd, rfl⟩ := makeFolders_eq_ok_iff.mp h
  have hway := isWay_nil fs.sealedPlaces fs.root
  exact ⟨hplain, walk_addFolders hway hroot hadd, keepsFiles_addFolders hway hroot hadd⟩

theorem makeFolders_of_walk (hplain : IsPlain p)
    (hwalk : fs.root.walk fs.sealedPlaces [] (fs.components p) = .ok way)
    (hway : fs.root.reached way = .folder es) : fs.makeFolders p = .ok fs := by
  obtain ⟨place, hadd⟩ := addFolders_of_walk (isWay_nil _ _) hwalk hway
  exact makeFolders_eq_ok_iff.mpr ⟨hplain, fs.root, place, hadd, rfl⟩

/-- No folder and no file has gone. -/
structure Keeps (fs fs' : FileSystem) : Prop where
  folders : fs.KeepsFolders fs'
  files : fs.root.KeepsFiles fs'.root

theorem Keeps.refl (fs : FileSystem) : fs.Keeps fs :=
  ⟨⟨rfl, rfl, .refl _⟩, .refl _⟩

theorem Keeps.trans (h : fs.Keeps fs') (h' : fs'.Keeps fs'') : fs.Keeps fs'' :=
  ⟨h.folders.trans h'.folders, h.files.trans h'.files⟩

/-- The way to a file: the one to its folder, and the entry there. -/
structure FileWay (fs : FileSystem) (p : Path) (way es : List (String × FileNode))
    (bytes : List UInt8) : Prop where
  plain : IsPlain p
  named : p.parts ≠ []
  down : p.name ≠ ".."
  walk : fs.root.walk fs.sealedPlaces [] (fs.components p.parent) = .ok way
  isOpen : placeOf way ∉ fs.sealedPlaces
  unsealed : placeOf way ++ [p.name] ∉ fs.sealedPlaces
  folder : fs.root.reached way = .folder es
  entry : FileNode.entry p.name es = .ok (.file bytes)

namespace FileWay

variable (h : fs.FileWay p way es bytes)

include h

theorem trail_eq : fs.trail p = .ok ((p.name, .file bytes) :: way) := by
  refine trail_eq_ok_iff.mpr ⟨h.plain, ?_⟩
  rw [walk_eq_parent h.named h.walk]
  exact walk_cons_eq_ok_iff.mpr ⟨es, h.folder, h.isOpen, .inr ⟨h.down, _, h.entry, rfl⟩⟩

theorem node_eq : fs.node p = .ok (.file bytes) := by
  rw [FileSystem.node, h.trail_eq]
  rfl

theorem fileAt?_eq : fs.root.fileAt? (placeOf way ++ [p.name]) = some bytes := by
  refine fileAt?_eq_some_iff.mpr ?_
  rw [(isTrail_of_walk (isTrail_nil _) h.walk).at?_entry h.folder]
  exact (entry_eq_ok_iff.mp h.entry).2

theorem write_eq (new : List UInt8) : fs.write p new =
    .ok { fs with root := fs.root.insert (placeOf way ++ [p.name]) (.file new) } := by
  have hparent : fs.trail p.parent = .ok way :=
    trail_eq_ok_iff.mpr ⟨isPlain_parent h.plain, h.walk⟩
  have hfile : fs.isFolder p = .ok false := isFolder_eq_false_iff.mpr (.inr ⟨bytes, h.node_eq⟩)
  have hmade := makeFolders_of_walk (isPlain_parent h.plain) h.walk h.folder
  simp only [FileSystem.write, hmade, bind, Except.bind, hparent, h.plain.noNull, hfile,
    Bool.false_eq_true, if_false, insertFile, if_neg h.unsealed]
  rfl

/-- Where folders and files stay, the way stays, if not the content. -/
theorem kept (hkeeps : fs.Keeps fs') :
    ∃ way' es' bytes', fs'.FileWay p way' es' bytes' ∧ placeOf way' = placeOf way := by
  obtain ⟨way', es', hwalk', hnames, hway'⟩ :=
    walk_of_keepsFolders hkeeps.folders.root (isTrail_nil _) (isTrail_nil _) rfl h.walk h.folder
  have hplace : placeOf way' = placeOf way := by rw [placeOf, placeOf, hnames]
  have hfile : (fs'.root.fileAt? (placeOf way' ++ [p.name])).isSome := by
    rw [hplace]
    refine hkeeps.files _ ?_
    rw [h.fileAt?_eq]
    rfl
  obtain ⟨bytes', hbytes'⟩ := Option.isSome_iff_exists.mp hfile
  have hentry := fileAt?_eq_some_iff.mp hbytes'
  rw [(isTrail_of_walk (isTrail_nil _) hwalk').at?_entry hway'] at hentry
  have hentry' := entry_eq_ok_iff.mpr ⟨(entry_eq_ok_iff.mp h.entry).1, hentry⟩
  have hcomponents : fs'.components p.parent = fs.components p.parent := by
    rw [components, components, hkeeps.folders.cwd]
  have hopen : placeOf way' ∉ fs'.sealedPlaces := by
    rw [hkeeps.folders.sealedPlaces, hplace]
    exact h.isOpen
  have hunsealed : placeOf way' ++ [p.name] ∉ fs'.sealedPlaces := by
    rw [hkeeps.folders.sealedPlaces, hplace]
    exact h.unsealed
  rw [← hkeeps.folders.sealedPlaces, ← hcomponents] at hwalk'
  exact ⟨way', es', bytes', ⟨h.plain, h.named, h.down, hwalk', hopen, hunsealed, hway', hentry'⟩,
    hplace⟩

end FileWay

/-- The place a path leads to. -/
def place? (fs : FileSystem) (p : Path) : Option (List String) :=
  (fs.trail p).toOption.map placeOf

def HasFile (fs : FileSystem) (p : Path) : Prop :=
  ∃ way es bytes, fs.FileWay p way es bytes

/-- The file that a path leads to has got more bytes at its end, and no other file has changed. -/
def Appended (p : Path) (bytes : List UInt8) (fs fs' : FileSystem) : Prop :=
  ∃ place old, fs.place? p = some place ∧ fs'.place? p = some place ∧
    fs.root.fileAt? place = some old ∧
      ∀ other, fs'.root.fileAt? other =
        if other = place then some (old ++ bytes) else fs.root.fileAt? other

theorem FileWay.place? (h : fs.FileWay p way es bytes) :
    fs.place? p = some (placeOf way ++ [p.name]) := by
  rw [FileSystem.place?, h.trail_eq]
  simp [Except.toOption, placeOf]

theorem HasFile.kept (h : fs.HasFile p) (hkeeps : fs.Keeps fs') : fs'.HasFile p := by
  obtain ⟨way, es, bytes, hway⟩ := h
  obtain ⟨way', es', bytes', hway', -⟩ := hway.kept hkeeps
  exact ⟨way', es', bytes', hway'⟩

theorem keepsFiles_write (hroot : fs.root = .folder es) (h : fs.write p bytes = .ok fs') :
    fs.root.KeepsFiles fs'.root := by
  obtain ⟨made, way, hmade, htrail, hnull, hfolder, -, rfl⟩ := write_eq_ok h
  obtain ⟨-, -, hkeeps⟩ := walk_makeFolders hroot hmade
  exact hkeeps.trans (keepsFiles_insert_file (at?_ne_folder htrail hnull hfolder) _)

theorem keeps_append (hroot : fs.root = .folder es) (h : fs.append p bytes = .ok fs') :
    fs.Keeps fs' := by
  refine ⟨keepsFolders_append h, ?_⟩
  rw [append] at h
  split at h
  · exact keepsFiles_write hroot h
  · cases h
  · exact keepsFiles_write hroot h
  · cases h

theorem exists_root (h : fs.KeepsFolders fs') (hroot : fs.root = .folder es) :
    ∃ es', fs'.root = .folder es' := by
  have hhere : fs.root.at? [] = some (.folder es) := by rw [hroot]; rfl
  obtain ⟨es', hes'⟩ := h.root [] es hhere
  cases hnode : fs'.root with
  | folder entries => exact ⟨entries, rfl⟩
  | file bytes => simp [hnode, at?] at hes'

/-- More bytes can be added to a file that is there. -/
theorem appended_append (h : fs.HasFile p) (bytes : List UInt8) :
    ∃ fs', fs.append p bytes = .ok fs' ∧ Appended p bytes fs fs' := by
  obtain ⟨way, es, old, hway⟩ := h
  have happend : fs.append p bytes = fs.write p (old ++ bytes) := by rw [append, hway.node_eq]
  rw [happend, hway.write_eq]
  refine ⟨_, rfl, placeOf way ++ [p.name], old, hway.place?, ?_, hway.fileAt?_eq, fun other => ?_⟩
  · have hfolders := keepsFolders_append (happend.trans (hway.write_eq _))
    have hfree : ∀ es, fs.root.at? (placeOf way ++ [p.name]) ≠ some (.folder es) := by
      rw [fileAt?_eq_some_iff.mp hway.fileAt?_eq]
      simp
    obtain ⟨way', es', bytes', hway', hplace⟩ :=
      hway.kept ⟨hfolders, keepsFiles_insert_file hfree _⟩
    rw [hway'.place?, hplace]
  · exact fileAt?_insert_file (by rw [hway.fileAt?_eq]; rfl) _ other

/-- What is written below a folder is a file. -/
theorem hasFile_write (hwalk : fs.root.walk fs.sealedPlaces [] (fs.components p.parent) = .ok way)
    (hfolder : fs.root.reached way = .folder es) (h : fs.write p bytes = .ok fs') :
    fs'.HasFile p := by
  have hkept := keepsFolders_write h
  obtain ⟨made, way₁, hmade, htrail, hnull, hplain, hunsealed, rfl⟩ := write_eq_ok h
  obtain ⟨hparent, -⟩ := makeFolders_eq_ok_iff.mp hmade
  obtain rfl := Except.ok.inj ((makeFolders_of_walk hparent hwalk hfolder).symm.trans hmade)
  obtain rfl := Except.ok.inj (hwalk.symm.trans (walk_of_trail htrail))
  have hname := freeName_of_isFolder hnull htrail hfolder hplain
  obtain ⟨way', es', hwalk', hnames, hway'⟩ :=
    walk_of_keepsFolders hkept.root (isTrail_nil _) (isTrail_nil _) rfl hwalk hfolder
  have hthere := (isTrail_of_walk (isTrail_nil _) hwalk').at?_entry hway' p.name
  have hplace : placeOf way' = placeOf way := by rw [placeOf, placeOf, hnames]
  have hhere := (isTrail_of_walk (isTrail_nil _) hwalk).at?_placeOf
  rw [hfolder] at hhere
  rw [hplace] at hthere
  have hlookup := hthere.symm.trans (at?_insert_entry hhere p.name (.file bytes))
  exact ⟨way', es', bytes, hname.plain, hname.named, hname.down, hwalk', hplace ▸ hname.isOpen,
    hplace ▸ hunsealed, hway', entry_eq_ok_iff.mpr ⟨hname.short, hlookup⟩⟩

/-- A file that was prepared is there. -/
theorem hasFile_prepare (hroot : fs.root = .folder es) (h : fs.prepare p = .ok fs') :
    fs'.HasFile p := by
  obtain ⟨made, hmade, h⟩ := bind_eq_ok_iff.mp h
  obtain ⟨-, ⟨way, inner, hwalk, hfolder⟩, -⟩ := walk_makeFolders hroot hmade
  rw [append] at h
  split at h
  · exact hasFile_write hwalk hfolder h
  · cases h
  · exact hasFile_write hwalk hfolder h
  · cases h

theorem keeps_prepare (hroot : fs.root = .folder es) (h : fs.prepare p = .ok fs') :
    fs.Keeps fs' := by
  obtain ⟨made, hmade, h⟩ := bind_eq_ok_iff.mp h
  obtain ⟨-, -, hfiles⟩ := walk_makeFolders hroot hmade
  have hfolders := keepsFolders_makeFolders hmade
  obtain ⟨es', hes'⟩ := exists_root hfolders hroot
  exact Keeps.trans ⟨hfolders, hfiles⟩ (keeps_append hes' h)

end FileSystem

end ClassAtlas
