import ClassAtlas.Proofs.FileSystem.Probes

/-! The contents of all files of a tree: there are no more of them than the tree has room for, and
what is read at a path is among them. -/

namespace ClassAtlas

namespace FileNode

/-- The contents of the files at and below a node. -/
def contents (node : FileNode) : List (List UInt8) :=
  (node.filesAt []).map Prod.snd

mutual

theorem map_snd_filesAt (place : List String) (node : FileNode) :
    (node.filesAt place).map Prod.snd = node.contents := by
  cases node with
  | file bytes => rfl
  | folder entries =>
    rw [contents, filesAt, filesAt, map_snd_filesIn place entries, map_snd_filesIn [] entries]

theorem map_snd_filesIn (place : List String) (entries : List (String × FileNode)) :
    (filesIn place entries).map Prod.snd = entries.flatMap fun e => e.2.contents := by
  cases entries with
  | nil => rfl
  | cons e entries =>
    obtain ⟨name, node⟩ := e
    rw [filesIn, List.map_append, map_snd_filesAt (name :: place) node,
      map_snd_filesIn place entries, List.flatMap_cons]

end

theorem contents_folder (entries : List (String × FileNode)) :
    (folder entries).contents = entries.flatMap fun e => e.2.contents :=
  map_snd_filesIn [] entries

mutual

theorem sum_contents_le (node : FileNode) :
    (node.contents.map fun bytes => bytes.length + 1).sum ≤ node.size := by
  cases node with
  | file bytes => simp [contents, filesAt, size]
  | folder entries =>
    have h := sum_contents_le_sizeAll entries
    rw [contents_folder, size]
    omega

theorem sum_contents_le_sizeAll (entries : List (String × FileNode)) :
    ((entries.flatMap fun e => e.2.contents).map fun bytes => bytes.length + 1).sum ≤
      sizeAll entries := by
  cases entries with
  | nil => simp [sizeAll]
  | cons e entries =>
    obtain ⟨name, node⟩ := e
    have hnode := sum_contents_le node
    have hentries := sum_contents_le_sizeAll entries
    rw [List.flatMap_cons, List.map_append, List.sum_append, sizeAll]
    exact Nat.add_le_add hnode hentries

end

theorem contents_subset_of_reached {root : FileNode} {trail : List (String × FileNode)}
    (htrail : ∀ e ∈ trail, e.2.contents ⊆ root.contents) :
    (root.reached trail).contents ⊆ root.contents := by
  cases trail with
  | nil => exact List.Subset.refl _
  | cons e trail => exact htrail e List.mem_cons_self

theorem contents_subset_of_walk {root : FileNode} {sealedPlaces : List (List String)}
    {trail way : List (String × FileNode)} {names : List String}
    (hwalk : root.walk sealedPlaces trail names = .ok way)
    (htrail : ∀ e ∈ trail, e.2.contents ⊆ root.contents) :
    ∀ e ∈ way, e.2.contents ⊆ root.contents := by
  induction names generalizing trail with
  | nil =>
    obtain rfl : trail = way := by simpa [walk] using hwalk
    exact htrail
  | cons name names ih =>
    obtain ⟨es, hnode, -, ⟨-, hwalk⟩ | ⟨-, node, hentry, hwalk⟩⟩ := walk_cons_eq_ok_iff.mp hwalk
    · exact ih hwalk fun e he => htrail e (List.mem_of_mem_tail he)
    · refine ih hwalk fun e he => ?_
      rcases List.mem_cons.mp he with rfl | he
      · obtain ⟨-, hlookup⟩ := entry_eq_ok_iff.mp hentry
        obtain ⟨before, behind, hes, -⟩ := List.lookup_eq_some_iff.mp hlookup
        have hmem : (name, node) ∈ es := by simp [hes]
        refine List.Subset.trans ?_ (contents_subset_of_reached htrail)
        rw [hnode, contents_folder]
        exact fun b hb => List.mem_flatMap.mpr ⟨_, hmem, hb⟩
      · exact htrail e he

end FileNode

namespace FileSystem

variable {fs : FileSystem} {path : Path} {bytes : List UInt8}

theorem mem_contents_of_read (h : fs.read path = .ok bytes) : bytes ∈ fs.root.contents := by
  obtain ⟨-, way, hwalk, hway⟩ := node_eq_ok_iff.mp (node_of_read h)
  have hbelow := FileNode.contents_subset_of_walk hwalk (by simp)
  refine FileNode.contents_subset_of_reached hbelow ?_
  rw [hway]
  simp [FileNode.contents, FileNode.filesAt]

end FileSystem

end ClassAtlas
