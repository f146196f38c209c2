import ClassAtlas.FileSystem
import Mathlib.Tactic

/-! What a probe of a path tells. It fails for a path that is too long, for one with a name that is,
and for one through a sealed folder; all else that can be wrong with a path means that nothing is
there. -/

namespace ClassAtlas

namespace FileNode

variable {root node : FileNode} {sealedPlaces : List (List String)} {es : List (String × FileNode)}
  {trail way : List (String × FileNode)} {name : String} {names : List String} {fault : FileFault}

theorem entry_eq_ok_iff :
    entry name es = .ok node ↔ name.utf8ByteSize ≤ maxNameSize ∧ es.lookup name = some node := by
  rw [entry]
  by_cases hlong : maxNameSize < name.utf8ByteSize
  · simp [hlong]
  · rw [if_neg hlong]
    cases es.lookup name <;> simp [Nat.le_of_not_lt hlong]

theorem entry_eq_error_iff : entry name es = .error fault ↔
    (maxNameSize < name.utf8ByteSize ∧ fault = .tooLong) ∨
      name.utf8ByteSize ≤ maxNameSize ∧ es.lookup name = none ∧ fault = .missing := by
  rw [entry]
  by_cases hlong : maxNameSize < name.utf8ByteSize
  · simp [hlong, hlong.not_ge, @eq_comm _ fault]
  · rw [if_neg hlong]
    cases es.lookup name <;> simp [hlong, Nat.le_of_not_lt hlong, @eq_comm _ fault]

theorem walk_cons (h : root.reached trail = folder es) (name : String) (names : List String) :
    root.walk sealedPlaces trail (name :: names) =
      if placeOf trail ∈ sealedPlaces then .error .denied
      else if name = ".." then root.walk sealedPlaces trail.tail names
      else (entry name es).bind fun node =>
        root.walk sealedPlaces ((name, node) :: trail) names := by
  rw [walk, h]
  dsimp only
  split_ifs
  · rfl
  · rfl
  · cases entry name es <;> rfl

/-- A step of a walk starts from a folder that is not sealed, and goes up or to an entry. -/
theorem walk_cons_eq_ok_iff : root.walk sealedPlaces trail (name :: names) = .ok way ↔
    ∃ es, root.reached trail = folder es ∧ placeOf trail ∉ sealedPlaces ∧
      (name = ".." ∧ root.walk sealedPlaces trail.tail names = .ok way ∨
        name ≠ ".." ∧ ∃ node, entry name es = .ok node ∧
          root.walk sealedPlaces ((name, node) :: trail) names = .ok way) := by
  cases hnode : root.reached trail with
  | file bytes => simp [walk, hnode]
  | folder es =>
    rw [walk_cons hnode]
    split_ifs with hsealed hup
    · simp [hsealed]
    · simp [hsealed, hup]
    · cases hentry : entry name es <;> simp [hsealed, hup, hentry, Except.bind]

theorem walk_ne_null : root.walk sealedPlaces trail names ≠ .error .nullCharacter := by
  induction names generalizing trail with
  | nil => simp [walk]
  | cons name names ih =>
    cases hnode : root.reached trail with
    | file bytes => simp [walk, hnode]
    | folder es =>
      rw [walk_cons hnode]
      split_ifs
      · simp
      · exact ih
      · cases hentry : entry name es with
        | error fault =>
          rcases entry_eq_error_iff.mp hentry with ⟨-, rfl⟩ | ⟨-, -, rfl⟩ <;> simp [Except.bind]
        | ok node => exact ih

theorem content_eq_ok_iff {bytes : List UInt8} : root.content sealedPlaces way = .ok bytes ↔
    root.reached way = file bytes ∧ placeOf way ∉ sealedPlaces := by
  rw [content]
  cases root.reached way with
  | folder es => simp
  | file found =>
    dsimp only
    split_ifs with hsealed <;> simp [hsealed]

end FileNode

namespace FileSystem

open FileNode

variable {fs : FileSystem} {p : Path} {way : List (String × FileNode)} {node : FileNode}
  {fault : FileFault} {e : FileError} {bytes : List UInt8}

/-- A path that can be followed, wherever it leads. -/
structure IsPlain (p : Path) : Prop where
  noNull : hasNull p = false
  size : p.size ≤ maxPathSize

theorem isPlain_parent (h : IsPlain p) : IsPlain p.parent where
  noNull := by
    have hall := h.noNull
    rw [hasNull, List.any_eq_false] at hall ⊢
    exact fun part hpart => hall part (List.dropLast_subset _ hpart)
  size := by
    refine le_trans ?_ h.size
    rw [Path.size, Path.size, Path.parent]
    rcases p.parts.eq_nil_or_concat with hparts | ⟨above, last, hparts⟩
    · rw [hparts, List.dropLast_nil]
    · rw [hparts, List.concat_eq_append, List.dropLast_concat, List.foldl_append]
      exact (Nat.le_add_right _ _).trans (Nat.le_succ _)

theorem trail_eq_ok_iff : fs.trail p = .ok way ↔
    IsPlain p ∧ fs.root.walk fs.sealedPlaces [] (fs.components p) = .ok way := by
  rw [trail]
  split_ifs with hnull hlong
  · simpa using fun h : IsPlain p => absurd hnull (by simp [h.noNull])
  · simpa using fun h : IsPlain p => absurd hlong h.size.not_gt
  · have hplain : IsPlain p := ⟨by simpa using hnull, Nat.le_of_not_lt hlong⟩
    simp [hplain]

theorem node_eq_ok_iff : fs.node p = .ok node ↔ IsPlain p ∧
    ∃ way, fs.root.walk fs.sealedPlaces [] (fs.components p) = .ok way ∧
      fs.root.reached way = node := by
  rw [FileSystem.node]
  cases htrail : fs.trail p with
  | error fault =>
    simp only [Except.map, reduceCtorEq, false_iff]
    rintro ⟨hplain, way, hwalk, -⟩
    rw [trail_eq_ok_iff.mpr ⟨hplain, hwalk⟩] at htrail
    cases htrail
  | ok way =>
    obtain ⟨hplain, hwalk⟩ := trail_eq_ok_iff.mp htrail
    simp [Except.map, hplain, hwalk]

theorem node_ne_null (h : hasNull p = false) : fs.node p ≠ .error .nullCharacter := by
  rw [FileSystem.node, trail, if_neg (by simp [h])]
  split_ifs
  · simp [Except.map]
  · cases hwalk : fs.root.walk fs.sealedPlaces [] (fs.components p) with
    | error fault =>
      intro h
      obtain rfl : fault = .nullCharacter := Except.error.inj h
      exact walk_ne_null hwalk
    | ok way => simp [Except.map]

theorem read_of_trail_error (h : fs.trail p = .error fault) : fs.read p = .error ⟨fault, p⟩ := by
  rw [read, h]
  rfl

/-- What is read at a path is what a file there has that is not sealed. -/
theorem read_eq_ok_iff : fs.read p = .ok bytes ↔ ∃ way, fs.trail p = .ok way ∧
    fs.root.reached way = .file bytes ∧ placeOf way ∉ fs.sealedPlaces := by
  cases htrail : fs.trail p with
  | error fault => simp [read_of_trail_error htrail]
  | ok way =>
    rw [read, htrail, Except.bind]
    cases hcontent : fs.root.content fs.sealedPlaces way with
    | error fault => simp [Except.mapError, ← content_eq_ok_iff, hcontent]
    | ok found => simp [Except.mapError, ← content_eq_ok_iff, hcontent]

theorem node_of_read (h : fs.read p = .ok bytes) : fs.node p = .ok (.file bytes) := by
  obtain ⟨way, htrail, hreached, -⟩ := read_eq_ok_iff.mp h
  rw [FileSystem.node, htrail, ← hreached]
  rfl

theorem read_of_folder {es : List (String × FileNode)} (h : fs.node p = .ok (.folder es)) :
    fs.read p = .error ⟨.isFolder, p⟩ := by
  cases htrail : fs.trail p with
  | error fault => simp [FileSystem.node, htrail, Except.map] at h
  | ok way =>
    have hreached : fs.root.reached way = .folder es := by
      simpa [FileSystem.node, htrail, Except.map] using h
    rw [read, htrail, Except.bind, content, hreached]
    rfl

theorem read_of_error (h : fs.node p = .error fault) : fs.read p = .error ⟨fault, p⟩ := by
  refine read_of_trail_error ?_
  cases htrail : fs.trail p <;> simp_all [FileSystem.node, Except.map]

/-- A file that is there can be read, unless it is sealed. -/
theorem read_of_node (h : fs.node p = .ok (.file bytes)) :
    fs.read p = .ok bytes ∨ fs.read p = .error ⟨.denied, p⟩ := by
  cases htrail : fs.trail p with
  | error fault => simp [FileSystem.node, htrail, Except.map] at h
  | ok way =>
    have hreached : fs.root.reached way = .file bytes := by
      simpa [FileSystem.node, htrail, Except.map] using h
    by_cases hsealed : placeOf way ∈ fs.sealedPlaces
    · refine .inr ?_
      rw [read, htrail, Except.bind, content, hreached]
      dsimp only
      rw [if_pos hsealed]
      rfl
    · exact .inl (read_eq_ok_iff.mpr ⟨way, htrail, hreached, hsealed⟩)

theorem probe_eq_some_iff : fs.probe p = .ok (some node) ↔ fs.node p = .ok node := by
  rw [probe]
  rcases fs.node p with fault | found
  · cases fault <;> simp [fail]
  · simp

theorem probe_eq_error_iff : fs.probe p = .error e ↔
    fs.node p = .error e.fault ∧ (e.fault = .tooLong ∨ e.fault = .denied) ∧ e.path = p := by
  obtain ⟨fault, path⟩ := e
  rw [probe]
  rcases fs.node p with found | found
  · cases found <;> cases fault <;> simp [fail, eq_comm]
  · simp

theorem isFile_eq_true_iff : fs.isFile p = .ok true ↔ ∃ bytes, fs.node p = .ok (.file bytes) := by
  simp only [← probe_eq_some_iff]
  rw [isFile]
  rcases fs.probe p with e | _ | ⟨bytes | es⟩ <;> simp [Except.map]

theorem isFile_of_read (h : fs.read p = .ok bytes) : fs.isFile p = .ok true :=
  isFile_eq_true_iff.mpr ⟨bytes, node_of_read h⟩

theorem isFolder_eq_true_iff : fs.isFolder p = .ok true ↔ ∃ es, fs.node p = .ok (.folder es) := by
  simp only [← probe_eq_some_iff]
  rw [isFolder]
  rcases fs.probe p with e | _ | ⟨bytes | es⟩ <;> simp [Except.map]

theorem isFolder_eq_false_iff : fs.isFolder p = .ok false ↔
    fs.probe p = .ok none ∨ ∃ bytes, fs.node p = .ok (.file bytes) := by
  simp only [← probe_eq_some_iff]
  rw [isFolder]
  rcases fs.probe p with e | _ | ⟨bytes | es⟩ <;> simp [Except.map]

/-- All probes of a path fail alike. -/
theorem isFile_eq_error_iff : fs.isFile p = .error e ↔ fs.probe p = .error e := by
  rw [isFile]
  cases fs.probe p <;> simp [Except.map]

theorem isFolder_eq_error_iff : fs.isFolder p = .error e ↔ fs.probe p = .error e := by
  rw [isFolder]
  cases fs.probe p <;> simp [Except.map]

theorem exists?_eq_error_iff : fs.exists? p = .error e ↔ fs.probe p = .error e := by
  rw [exists?]
  cases fs.probe p <;> simp [Except.map]

end FileSystem

end ClassAtlas
