import ClassAtlas.Proofs.FileSystem.Probes
import ClassAtlas.Proofs.Finder.Steady

/-! Folders stay. Files that are written and folders that are created on the way to them leave a
folder at every path that led to one. -/

namespace ClassAtlas

namespace FileNode

variable {root root' root'' node : FileNode} {es : List (String × FileNode)} {name other : String}
  {names place : List String} {sealedPlaces : List (List String)}
  {trail trail' way : List (String × FileNode)} {fault : FileFault}

/-- The node at a place, whose names are those of the entries on the way down. -/
def at? : FileNode → List String → Option FileNode
  | node, [] => some node
  | file _, _ :: _ => none
  | folder es, name :: names => (es.lookup name).bind fun node => node.at? names

theorem at?_append (root : FileNode) (names more : List String) :
    root.at? (names ++ more) = (root.at? names).bind fun node => node.at? more := by
  induction names generalizing root with
  | nil => cases root <;> rfl
  | cons name names ih =>
    cases root with
    | file bytes => rfl
    | folder es =>
      rw [List.cons_append, at?, at?]
      cases es.lookup name with
      | none => rfl
      | some node => exact ih node

theorem at?_singleton_eq_some (h : root.at? [name] = some node) :
    ∃ es, root = folder es ∧ es.lookup name = some node := by
  cases root with
  | file bytes => cases h
  | folder es =>
    refine ⟨es, rfl, ?_⟩
    cases hl : es.lookup name with
    | none => simp [at?, hl] at h
    | some found => simpa [at?, hl] using h

theorem lookup_setEntry (name other : String) (node : FileNode) (es : List (String × FileNode)) :
    (setEntry name node es).lookup other = if other = name then some node else es.lookup other := by
  induction es with
  | nil =>
    by_cases h : other = name
    · simp [setEntry, h]
    · have hbeq : (other == name) = false := by simpa using h
      simp [setEntry, List.lookup_cons, h, hbeq]
  | cons e es ih =>
    obtain ⟨first, found⟩ := e
    by_cases hfirst : first = name
    · subst hfirst
      by_cases h : other = first
      · simp [setEntry, h]
      · have hbeq : (other == first) = false := by simpa using h
        simp [setEntry, List.lookup_cons, h, hbeq]
    · by_cases h : other = first
      · subst h
        simp [setEntry, hfirst]
      · have hbeq : (other == first) = false := by simpa using h
        simp [setEntry, List.lookup_cons, hfirst, hbeq, ih]

/-- Where one tree has a folder, the other has one too. -/
def KeepsFolders (root root' : FileNode) : Prop :=
  ∀ place es, root.at? place = some (folder es) → ∃ es', root'.at? place = some (folder es')

theorem KeepsFolders.refl (root : FileNode) : KeepsFolders root root :=
  fun _ es h => ⟨es, h⟩

theorem KeepsFolders.trans (h : KeepsFolders root root') (h' : KeepsFolders root' root'') :
    KeepsFolders root root'' := by
  intro place es hes
  obtain ⟨es', hes'⟩ := h place es hes
  exact h' place es' hes'

/-- A node that is put where no folder is leaves all folders. -/
theorem keepsFolders_insert (h : ∀ es, root.at? place ≠ some (folder es)) (node : FileNode) :
    KeepsFolders root (root.insert place node) := by
  induction place generalizing root with
  | nil =>
    intro names es hes
    cases root with
    | folder es' => exact absurd rfl (h es')
    | file bytes => cases names <;> simp [at?] at hes
  | cons name place ih =>
    cases root with
    | file bytes => exact .refl _
    | folder entries =>
      intro names es hes
      cases names with
      | nil => exact ⟨_, rfl⟩
      | cons other names =>
        rw [insert, at?, lookup_setEntry]
        rw [at?] at hes
        by_cases hother : other = name
        · subst hother
          obtain ⟨child, hchild, hes⟩ := Option.bind_eq_some_iff.mp hes
          have hfree : ∀ es, child.at? place ≠ some (folder es) := by
            intro es' hes'
            exact h es' (by rw [at?, hchild]; exact hes')
          obtain ⟨es', hes'⟩ := ih hfree names es hes
          exact ⟨es', by simpa [hchild] using hes'⟩
        · exact ⟨es, by simpa [hother] using hes⟩

/-- Each node of a trail is an entry of the one before it. -/
def IsTrail (root : FileNode) : List (String × FileNode) → Prop
  | [] => True
  | (name, node) :: trail => (root.reached trail).at? [name] = some node ∧ IsTrail root trail

theorem isTrail_nil (root : FileNode) : IsTrail root [] :=
  trivial

theorem IsTrail.tail (h : IsTrail root trail) : IsTrail root trail.tail := by
  cases trail with
  | nil => trivial
  | cons e trail => exact h.2

theorem IsTrail.folder_tail (h : IsTrail root trail) (hes : root.reached trail = folder es) :
    ∃ es', root.reached trail.tail = folder es' := by
  cases trail with
  | nil => exact ⟨es, hes⟩
  | cons e trail =>
    obtain ⟨es', hes', -⟩ := at?_singleton_eq_some h.1
    exact ⟨es', hes'⟩

theorem IsTrail.at?_placeOf (h : IsTrail root trail) :
    root.at? (placeOf trail) = some (root.reached trail) := by
  induction trail with
  | nil => cases root <;> rfl
  | cons e trail ih =>
    obtain ⟨name, node⟩ := e
    have hplace : placeOf ((name, node) :: trail) = placeOf trail ++ [name] := by simp [placeOf]
    rw [hplace, at?_append, ih h.2]
    exact h.1

theorem IsTrail.at?_entry (h : IsTrail root trail) (hes : root.reached trail = folder es)
    (name : String) :
    root.at? (placeOf trail ++ [name]) = es.lookup name := by
  rw [at?_append, h.at?_placeOf, hes, Option.bind_some, at?]
  cases es.lookup name with
  | none => rfl
  | some node => cases node <;> rfl

theorem isTrail_cons (hnode : root.reached trail = folder es) (hentry : entry name es = .ok node)
    (h : IsTrail root trail) : IsTrail root ((name, node) :: trail) := by
  refine ⟨?_, h⟩
  rw [hnode, at?, (entry_eq_ok_iff.mp hentry).2]
  cases node <;> rfl

theorem isTrail_of_walk (h : IsTrail root trail)
    (hwalk : root.walk sealedPlaces trail names = .ok way) : IsTrail root way := by
  induction names generalizing trail with
  | nil =>
    obtain rfl : trail = way := by simpa [walk] using hwalk
    exact h
  | cons name names ih =>
    obtain ⟨es, hes, -, ⟨-, hrest⟩ | ⟨-, node, hentry, hrest⟩⟩ := walk_cons_eq_ok_iff.mp hwalk
    · exact ih h.tail hrest
    · exact ih (isTrail_cons hes hentry h) hrest

theorem walk_append (root : FileNode) (sealedPlaces : List (List String))
    (trail : List (String × FileNode)) (names more : List String) :
    root.walk sealedPlaces trail (names ++ more) =
      (root.walk sealedPlaces trail names).bind fun way => root.walk sealedPlaces way more := by
  induction names generalizing trail with
  | nil => rfl
  | cons name names ih =>
    cases hnode : root.reached trail with
    | file bytes => simp [walk, hnode, Except.bind]
    | folder es =>
      rw [List.cons_append, walk_cons hnode, walk_cons hnode]
      split_ifs
      · rfl
      · rw [ih]
      · cases entry name es with
        | error fault => rfl
        | ok node => exact ih _

theorem folder_of_walk (hwalk : root.walk sealedPlaces trail names = .ok way)
    (hway : root.reached way = folder es) : ∃ es', root.reached trail = folder es' := by
  cases names with
  | nil =>
    obtain rfl : trail = way := by simpa [walk] using hwalk
    exact ⟨es, hway⟩
  | cons name names =>
    obtain ⟨es', hes', -⟩ := walk_cons_eq_ok_iff.mp hwalk
    exact ⟨es', hes'⟩

theorem KeepsFolders.reached (hkeeps : KeepsFolders root root') (h : IsTrail root trail)
    (h' : IsTrail root' trail') (hnames : trail'.map Prod.fst = trail.map Prod.fst)
    (hes : root.reached trail = folder es) : ∃ es', root'.reached trail' = folder es' := by
  have hhere := h.at?_placeOf
  rw [hes] at hhere
  obtain ⟨es', hes'⟩ := hkeeps _ _ hhere
  have hthere := h'.at?_placeOf
  rw [placeOf, hnames] at hthere
  exact ⟨es', Option.some.inj (hthere.symm.trans hes')⟩

/-- A way to a folder is still one, with the same names, in a tree that keeps its folders. -/
theorem walk_of_keepsFolders (hkeeps : KeepsFolders root root') (h : IsTrail root trail)
    (h' : IsTrail root' trail') (hnames : trail'.map Prod.fst = trail.map Prod.fst)
    (hwalk : root.walk sealedPlaces trail names = .ok way) (hway : root.reached way = folder es) :
    ∃ way' es', root'.walk sealedPlaces trail' names = .ok way' ∧
      way'.map Prod.fst = way.map Prod.fst ∧ root'.reached way' = folder es' := by
  induction names generalizing trail trail' with
  | nil =>
    obtain rfl : trail = way := by simpa [walk] using hwalk
    obtain ⟨es', hes'⟩ := hkeeps.reached h h' hnames hway
    exact ⟨trail', es', rfl, hnames, hes'⟩
  | cons name names ih =>
    obtain ⟨here, hhere, hopen, hstep⟩ := walk_cons_eq_ok_iff.mp hwalk
    obtain ⟨there, hthere⟩ := hkeeps.reached h h' hnames hhere
    have hopen' : placeOf trail' ∉ sealedPlaces := by rwa [placeOf, hnames]
    rcases hstep with ⟨rfl, hrest⟩ | ⟨hup, node, hentry, hrest⟩
    · have htails : trail'.tail.map Prod.fst = trail.tail.map Prod.fst := by
        rw [List.map_tail, List.map_tail, hnames]
      obtain ⟨way', es', hrest', hway'⟩ := ih h.tail h'.tail htails hrest
      exact ⟨way', es', walk_cons_eq_ok_iff.mpr ⟨there, hthere, hopen', .inl ⟨rfl, hrest'⟩⟩, hway'⟩
    · -- The node is a folder, since the walk goes on from it or ends there, so the other tree has
      -- one.
      have htrail := isTrail_cons hhere hentry h
      obtain ⟨inner, hinner⟩ := folder_of_walk hrest hway
      have hplace := htrail.at?_placeOf
      rw [hinner] at hplace
      obtain ⟨inner', hinner'⟩ := hkeeps _ _ hplace
      have hsame : placeOf ((name, node) :: trail) = placeOf trail' ++ [name] := by
        simp [placeOf, hnames]
      rw [hsame, h'.at?_entry hthere] at hinner'
      have hentry' : entry name there = .ok (folder inner') :=
        entry_eq_ok_iff.mpr ⟨(entry_eq_ok_iff.mp hentry).1, hinner'⟩
      obtain ⟨way', es', hrest', hway'⟩ :=
        ih htrail (isTrail_cons hthere hentry' h') (by simp [hnames]) hrest
      exact ⟨way', es', walk_cons_eq_ok_iff.mpr
        ⟨there, hthere, hopen', .inr ⟨hup, _, hentry', hrest'⟩⟩, hway'⟩

theorem at?_of_walk (hnames : ".." ∉ names) (h : root.walk sealedPlaces trail names = .ok way) :
    (root.reached trail).at? names = some (root.reached way) := by
  induction names generalizing trail with
  | nil =>
    obtain rfl : trail = way := by simpa [walk] using h
    cases root.reached trail <;> rfl
  | cons name names ih =>
    have hrest : ".." ∉ names := fun hmem => hnames (List.mem_cons_of_mem _ hmem)
    obtain ⟨es, hes, -, ⟨rfl, -⟩ | ⟨-, node, hentry, h⟩⟩ := walk_cons_eq_ok_iff.mp h
    · exact absurd List.mem_cons_self hnames
    · rw [hes, at?, (entry_eq_ok_iff.mp hentry).2]
      exact ih hrest h

/-- A walk that is not kept from going on comes to an end where there is no such entry. -/
theorem at?_of_walk_error (hnames : ".." ∉ names) (hlong : fault ≠ .tooLong)
    (hdenied : fault ≠ .denied) (h : root.walk sealedPlaces trail names = .error fault) :
    (root.reached trail).at? names = none := by
  induction names generalizing trail with
  | nil => cases h
  | cons name names ih =>
    have hup : ¬ name = ".." := fun heq => hnames (heq ▸ List.mem_cons_self)
    have hrest : ".." ∉ names := fun hmem => hnames (List.mem_cons_of_mem _ hmem)
    cases hnode : root.reached trail with
    | file bytes => rfl
    | folder es =>
      rw [walk_cons hnode, if_neg hup] at h
      split_ifs at h
      · exact absurd (Except.error.inj h).symm hdenied
      cases hentry : entry name es with
      | error stop =>
        rw [hentry] at h
        obtain rfl : stop = fault := Except.error.inj h
        rcases entry_eq_error_iff.mp hentry with ⟨-, rfl⟩ | ⟨-, hlookup, -⟩
        · exact absurd rfl hlong
        · rw [at?, hlookup]
          rfl
      | ok node =>
        rw [hentry] at h
        rw [at?, (entry_eq_ok_iff.mp hentry).2]
        exact ih hrest h

end FileNode

namespace FileSystem

open FileNode

variable {fs fs' fs'' : FileSystem} {p q : Path} {bytes : List UInt8}

/-- The same working folder, the same sealed places, and folders where there were folders. -/
structure KeepsFolders (fs fs' : FileSystem) : Prop where
  cwd : fs'.cwd = fs.cwd
  sealedPlaces : fs'.sealedPlaces = fs.sealedPlaces
  root : fs.root.KeepsFolders fs'.root

theorem KeepsFolders.trans (h : fs.KeepsFolders fs') (h' : fs'.KeepsFolders fs'') :
    fs.KeepsFolders fs'' :=
  ⟨h'.cwd.trans h.cwd, h'.sealedPlaces.trans h.sealedPlaces, h.root.trans h'.root⟩

theorem isFolder_iff : fs.isFolder p = .ok true ↔ IsPlain p ∧
    ∃ way es, fs.root.walk fs.sealedPlaces [] (fs.components p) = .ok way ∧
      fs.root.reached way = .folder es := by
  rw [isFolder_eq_true_iff]
  constructor
  · rintro ⟨es, hnode⟩
    obtain ⟨hplain, way, hwalk, hway⟩ := node_eq_ok_iff.mp hnode
    exact ⟨hplain, way, es, hwalk, hway⟩
  · rintro ⟨hplain, way, es, hwalk, hway⟩
    exact ⟨es, node_eq_ok_iff.mpr ⟨hplain, way, hwalk, hway⟩⟩

/-- A probe below a folder that does not fail tells what the tree of the folder has there. -/
theorem probe_join {folder : Path} {tree : FileNode} {place : List String}
    {found : Option FileNode} (hfolder : fs.node folder = .ok tree) (hplace : ".." ∉ place)
    (hnull : hasNull (folder.join ⟨.relative, place⟩) = false)
    (h : fs.probe (folder.join ⟨.relative, place⟩) = .ok found) : tree.at? place = found := by
  obtain ⟨-, way, hwalk, rfl⟩ := node_eq_ok_iff.mp hfolder
  have hcomponents : fs.components (folder.join ⟨.relative, place⟩) =
      fs.components folder ++ place := by
    rw [Path.join, if_pos rfl, components, components]
    split_ifs <;> simp
  rw [probe, FileSystem.node, trail, if_neg (by simp [hnull]), hcomponents, walk_append, hwalk] at h
  dsimp only [Except.bind] at h
  by_cases hlong : maxPathSize < (folder.join ⟨.relative, place⟩).size
  · rw [if_pos hlong] at h
    cases h
  rw [if_neg hlong] at h
  cases hon : fs.root.walk fs.sealedPlaces way place with
  | ok there =>
    rw [hon] at h
    rw [at?_of_walk hplace hon]
    exact Except.ok.inj h
  | error fault =>
    rw [hon] at h
    have hmissing : fault ≠ .tooLong ∧ fault ≠ .denied ∧ found = none := by
      cases fault <;> simp_all [Except.map, fail]
    obtain ⟨htooLong, hdenied, rfl⟩ := hmissing
    exact at?_of_walk_error hplace htooLong hdenied hon

theorem isFolder_of_keepsFolders (h : fs.KeepsFolders fs') (hfolder : fs.isFolder p = .ok true) :
    fs'.isFolder p = .ok true := by
  obtain ⟨hplain, way, es, hwalk, hway⟩ := isFolder_iff.mp hfolder
  obtain ⟨way', es', hwalk', -, hway'⟩ :=
    walk_of_keepsFolders h.root (isTrail_nil _) (isTrail_nil _) rfl hwalk hway
  have hcomponents : fs'.components p = fs.components p := by rw [components, components, h.cwd]
  rw [← h.sealedPlaces, ← hcomponents] at hwalk'
  exact isFolder_iff.mpr ⟨hplain, way', es', hwalk', hway'⟩

theorem keepsFolders_addFolders {sealedPlaces : List (List String)} {root root' : FileNode}
    {done names place : List String} (hdone : ".." ∉ done)
    (h : root.addFolders sealedPlaces done names = .ok (root', place)) :
    root.KeepsFolders root' := by
  induction names generalizing root done with
  | nil =>
    obtain ⟨rfl, -⟩ := Prod.mk.inj (Except.ok.inj h)
    exact .refl _
  | cons name names ih =>
    rw [addFolders] at h
    by_cases hsealed : done.reverse ∈ sealedPlaces
    · rw [if_pos hsealed] at h
      cases h
    rw [if_neg hsealed] at h
    by_cases hup : name = ".."
    · rw [if_pos hup] at h
      exact ih (fun hmem => hdone (List.mem_of_mem_tail hmem)) h
    · rw [if_neg hup] at h
      have hnext : ".." ∉ name :: done := by
        rintro (_ | ⟨_, hmem⟩)
        · exact hup rfl
        · exact hdone hmem
      dsimp only at h
      split at h
      · cases h
      · exact ih hnext h
      · next hwalk =>
        have hfree : root.at? (name :: done).reverse = none :=
          at?_of_walk_error (mt List.mem_reverse.mp hnext) (by simp) (by simp) hwalk
        have hnone (es : List (String × FileNode)) :
            root.at? (name :: done).reverse ≠ some (.folder es) := by rw [hfree]; simp
        exact (keepsFolders_insert hnone _).trans (ih hnext h)
      · cases h

theorem makeFolders_eq_ok_iff : fs.makeFolders p = .ok fs' ↔ IsPlain p ∧
    ∃ root place, fs.root.addFolders fs.sealedPlaces [] (fs.components p) = .ok (root, place) ∧
      fs' = { fs with root } := by
  rw [makeFolders]
  split_ifs with hnull hlong
  · simpa [fail] using fun h : IsPlain p => absurd hnull (by simp [h.noNull])
  · simpa [fail] using fun h : IsPlain p => absurd hlong h.size.not_gt
  · have hplain : IsPlain p := ⟨by simpa using hnull, Nat.le_of_not_lt hlong⟩
    rcases fs.root.addFolders fs.sealedPlaces [] (fs.components p) with fault | ⟨root, place⟩
    · simp [fail]
    · simp [hplain, eq_comm]

theorem keepsFolders_makeFolders (h : fs.makeFolders p = .ok fs') : fs.KeepsFolders fs' := by
  obtain ⟨-, root, place, hadd, rfl⟩ := makeFolders_eq_ok_iff.mp h
  exact ⟨rfl, rfl, keepsFolders_addFolders (by simp) hadd⟩

theorem walk_of_trail {way : List (String × FileNode)} (h : fs.trail p = .ok way) :
    fs.root.walk fs.sealedPlaces [] (fs.components p) = .ok way :=
  (trail_eq_ok_iff.mp h).2

theorem parent_eq_self (h : p.parts = []) : p.parent = p := by
  obtain ⟨root, parts⟩ := p
  subst h
  rfl

theorem components_eq_parent (fs : FileSystem) (h : p.parts ≠ []) :
    fs.components p = fs.components p.parent ++ [p.name] := by
  have hparts : p.parts = p.parent.parts ++ [p.name] := by
    rw [Path.parent, Path.name, List.getLast?_eq_some_getLast h, Option.getD_some,
      List.dropLast_append_getLast h]
  have hroot : p.parent.root = p.root := rfl
  rw [components, components, hroot, hparts]
  split_ifs
  · exact (List.append_assoc _ _ _).symm
  · rfl

theorem walk_eq_parent {way : List (String × FileNode)} (hparts : p.parts ≠ [])
    (hwalk : fs.root.walk fs.sealedPlaces [] (fs.components p.parent) = .ok way) :
    fs.root.walk fs.sealedPlaces [] (fs.components p) =
      fs.root.walk fs.sealedPlaces way [p.name] := by
  rw [components_eq_parent fs hparts, walk_append, hwalk]
  rfl

/-- A name that a file below a folder may have. -/
structure FreeName (fs : FileSystem) (p : Path) (way es : List (String × FileNode)) : Prop where
  plain : IsPlain p
  named : p.parts ≠ []
  down : p.name ≠ ".."
  isOpen : placeOf way ∉ fs.sealedPlaces
  short : p.name.utf8ByteSize ≤ maxNameSize
  free : ∀ inner, es.lookup p.name ≠ some (.folder inner)

/-- Where a probe says that a path leads to no folder, its last name is one for a file. -/
theorem freeName_of_isFolder {way es : List (String × FileNode)} (hnull : hasNull p = false)
    (htrail : fs.trail p.parent = .ok way) (hway : fs.root.reached way = .folder es)
    (hfolder : fs.isFolder p = .ok false) : fs.FreeName p way es := by
  obtain ⟨hparent, hwalk⟩ := trail_eq_ok_iff.mp htrail
  have hnone (found : List (String × FileNode)) : fs.node p ≠ .ok (.folder found) := by
    intro h
    rw [isFolder_eq_true_iff.mpr ⟨found, h⟩] at hfolder
    cases hfolder
  have hprobed (e : FileError) : fs.probe p ≠ .error e := by
    intro h
    rw [isFolder_eq_error_iff.mpr h] at hfolder
    cases hfolder
  have hplain : IsPlain p := by
    refine ⟨hnull, Nat.le_of_not_lt fun hlong => hprobed ⟨.tooLong, p⟩ ?_⟩
    refine probe_eq_error_iff.mpr ⟨?_, .inl rfl, rfl⟩
    simp [FileSystem.node, trail, hnull, hlong, Except.map]
  have hparts : p.parts ≠ [] := by
    intro hparts
    rw [parent_eq_self hparts] at hwalk
    exact hnone es (node_eq_ok_iff.mpr ⟨hplain, way, hwalk, hway⟩)
  have hnode : fs.node p = (fs.root.walk fs.sealedPlaces way [p.name]).map fs.root.reached := by
    rw [FileSystem.node, trail, if_neg (by simp [hnull]), if_neg hplain.size.not_gt,
      walk_eq_parent hparts hwalk]
  rw [walk_cons hway] at hnode
  split_ifs at hnode with hsealed hup
  · exact (hprobed ⟨.denied, p⟩ (probe_eq_error_iff.mpr ⟨hnode, .inr rfl, rfl⟩)).elim
  · obtain ⟨above, habove⟩ := (isTrail_of_walk (isTrail_nil _) hwalk).folder_tail hway
    exact absurd (hnode.trans (congrArg Except.ok habove)) (hnone above)
  · cases hentry : entry p.name es with
    | error fault =>
      rw [hentry] at hnode
      rcases entry_eq_error_iff.mp hentry with ⟨-, rfl⟩ | ⟨hshort, hlookup, -⟩
      · exact (hprobed ⟨.tooLong, p⟩ (probe_eq_error_iff.mpr ⟨hnode, .inl rfl, rfl⟩)).elim
      · exact ⟨hplain, hparts, hup, hsealed, hshort, by simp [hlookup]⟩
    | ok node =>
      rw [hentry] at hnode
      obtain ⟨hshort, hlookup⟩ := entry_eq_ok_iff.mp hentry
      refine ⟨hplain, hparts, hup, hsealed, hshort, fun inner hinner => hnone inner ?_⟩
      rw [hlookup] at hinner
      exact hnode.trans (congrArg Except.ok (Option.some.inj hinner))

theorem write_eq_ok (h : fs.write p bytes = .ok fs') :
    ∃ made way, fs.makeFolders p.parent = .ok made ∧ made.trail p.parent = .ok way ∧
      hasNull p = false ∧ made.isFolder p = .ok false ∧
      placeOf way ++ [p.name] ∉ made.sealedPlaces ∧
      fs' = { made with root := made.root.insert (placeOf way ++ [p.name]) (.file bytes) } := by
  obtain ⟨made, hmade, h⟩ := bind_eq_ok_iff.mp h
  cases htrail : made.trail p.parent with
  | error fault => simp [htrail, fail] at h
  | ok way =>
    rw [htrail] at h
    dsimp only at h
    by_cases hnull : hasNull p = true
    · simp [hnull, fail] at h
    · rw [if_neg hnull] at h
      rcases hfolder : made.isFolder p with e | _ | _
      · simp [hfolder] at h
      · rw [hfolder] at h
        dsimp only at h
        by_cases hsealed : placeOf way ++ [p.name] ∈ made.sealedPlaces
        · simp [insertFile, hsealed, fail] at h
        · rw [insertFile, if_neg hsealed] at h
          exact ⟨made, way, hmade, htrail, by simpa using hnull, hfolder, hsealed,
            (Except.ok.inj h).symm⟩
      · simp [hfolder, fail] at h

/-- A folder in the place of a file would be one at its path. -/
theorem at?_ne_folder {way : List (String × FileNode)} (htrail : fs.trail p.parent = .ok way)
    (hnull : hasNull p = false) (hfolder : fs.isFolder p = .ok false)
    (es : List (String × FileNode)) :
    fs.root.at? (placeOf way ++ [p.name]) ≠ some (.folder es) := by
  intro hplace
  have hisTrail := isTrail_of_walk (isTrail_nil _) (walk_of_trail htrail)
  rw [at?_append, hisTrail.at?_placeOf] at hplace
  obtain ⟨entries, hentries, hinner⟩ := at?_singleton_eq_some hplace
  exact (freeName_of_isFolder hnull htrail hentries hfolder).free es hinner

theorem keepsFolders_write (h : fs.write p bytes = .ok fs') : fs.KeepsFolders fs' := by
  obtain ⟨made, way, hmade, htrail, hnull, hfolder, -, rfl⟩ := write_eq_ok h
  exact (keepsFolders_makeFolders hmade).trans
    ⟨rfl, rfl, keepsFolders_insert (at?_ne_folder htrail hnull hfolder) _⟩

theorem keepsFolders_append (h : fs.append p bytes = .ok fs') : fs.KeepsFolders fs' := by
  rw [append] at h
  split at h
  · exact keepsFolders_write h
  · cases h
  · exact keepsFolders_write h
  · cases h

/-- Makes a file ready to take more. It is created, with its folders, where it is missing. -/
def prepare (fs : FileSystem) (path : Path) : Except FileError FileSystem :=
  fs.makeFolders path.parent >>= fun fs => fs.append path []

theorem keepsFolders_prepare (h : fs.prepare p = .ok fs') : fs.KeepsFolders fs' := by
  obtain ⟨made, hmade, happend⟩ := bind_eq_ok_iff.mp h
  exact (keepsFolders_makeFolders hmade).trans (keepsFolders_append happend)

end FileSystem

end ClassAtlas
