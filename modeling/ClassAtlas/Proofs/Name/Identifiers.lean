import ClassAtlas.Proofs.FileSystem.Places

/-! Names as lists of identifiers. All that a name says follows from its identifiers: its slashed
and its dotted form join them, the simple name is the last one and the package joins the others.
They are names of files as well, which lead to the file of a class. -/

namespace ClassAtlas

theorem cutLast_of_not_sep {α : Type} {sep : α → Bool} {text : List α}
    (h : ∀ c ∈ text, sep c = false) : cutLast sep text = (none, text) := by
  induction text with
  | nil => rfl
  | cons c text ih =>
    obtain ⟨hc, hrest⟩ := List.forall_mem_cons.mp h
    simp [cutLast, ih hrest, hc]

theorem cutLast_append_cons {α : Type} {sep : α → Bool} {front back : List α} {c : α}
    (hc : sep c = true) (hback : ∀ d ∈ back, sep d = false) :
    cutLast sep (front ++ c :: back) = (some front, back) := by
  induction front with
  | nil => simp [cutLast, cutLast_of_not_sep hback, hc]
  | cons d front ih => simp [cutLast, ih]

theorem map_intercalate {α β : Type} (f : α → β) (sep : List α) (parts : List (List α)) :
    (sep.intercalate parts).map f = (sep.map f).intercalate (parts.map (List.map f)) := by
  induction parts with
  | nil => rfl
  | cons part parts ih =>
    cases parts with
    | nil => simp
    | cons next parts =>
      rw [List.map_cons] at ih
      simp only [List.map_cons, List.intercalate_cons_cons, List.map_append, ih]

namespace QualifiedName

variable {n : QualifiedName} {front : List String} {part last : String}

/-- The identifiers of a name, in order. -/
def identifiers (n : QualifiedName) : List String :=
  (pieces isNameSeparator n.text.toList).map String.ofList

theorem identifiers_eq_splitOn (n : QualifiedName) :
    n.identifiers = (n.normalized.toList.splitOn '/').map String.ofList := by
  have hpieces : pieces isNameSeparator n.normalized.toList = n.normalized.toList.splitOn '/' := by
    rw [n.normalized_eq, pieces_congr fun c hc => slash_of_isNameSeparator hc, pieces_eq_splitOnP]
    rfl
  rw [← hpieces, identifiers, normalized, String.toList_ofList, pieces_map_slashed]

theorem identifiers_ne_nil (n : QualifiedName) : n.identifiers ≠ [] := by
  rw [identifiers_eq_splitOn]
  exact List.map_eq_nil_iff.not.mpr (List.splitOn_ne_nil '/' _)

theorem exists_identifiers (n : QualifiedName) : ∃ front last, n.identifiers = front ++ [last] :=
  ⟨_, _, (List.dropLast_append_getLast n.identifiers_ne_nil).symm⟩

theorem isIdentifier_of_mem (h : part ∈ n.identifiers) : isIdentifier part.toList = true := by
  obtain ⟨piece, hpiece, rfl⟩ := List.mem_map.mp h
  rw [String.toList_ofList]
  exact List.all_eq_true.mp n.valid piece hpiece

theorem slash_not_mem_of_mem (h : part ∈ n.identifiers) : '/' ∉ part.toList :=
  not_mem_of_isIdentifier (isIdentifier_of_mem h) (by decide) (by decide)

theorem isFileName_of_mem (h : part ∈ n.identifiers) : Path.IsFileName part := by
  have hname : Path.IsFileName (String.ofList (part.toList ++ [])) :=
    isFileName_of_isIdentifier (isIdentifier_of_mem h) (by simp)
  rwa [List.append_nil, String.ofList_toList] at hname

theorem intercalate_identifiers (n : QualifiedName) :
    "/".intercalate n.identifiers = n.normalized := by
  apply String.toList_inj.mp
  rw [String.toList_intercalate, identifiers_eq_splitOn, List.map_map]
  have hid : String.toList ∘ String.ofList = id := funext fun _ => String.toList_ofList
  rw [hid, List.map_id]
  exact List.intercalate_splitOn '/'

theorem dotted_eq (n : QualifiedName) : n.dotted = ".".intercalate n.identifiers := by
  have hkept : ∀ part ∈ n.identifiers, part.toList.map unslashed = part.toList := by
    intro part hpart
    have hid : ∀ c ∈ part.toList, unslashed c = id c := by
      intro c hc
      have hne : c ≠ '/' := fun h => slash_not_mem_of_mem hpart (h ▸ hc)
      rw [unslashed, if_neg hne, id]
    rw [List.map_congr_left hid, List.map_id]
  have hparts : (n.identifiers.map String.toList).map (List.map unslashed) =
      n.identifiers.map String.toList := by
    rw [List.map_map]
    exact List.map_congr_left hkept
  apply String.toList_inj.mp
  rw [dotted, String.toList_ofList, ← intercalate_identifiers, String.toList_intercalate,
    map_intercalate, hparts, String.toList_intercalate]
  rfl

theorem normalized_of_identifiers (h : n.identifiers = front ++ [last]) (hfront : front ≠ []) :
    n.normalized = "/".intercalate front ++ "/" ++ last := by
  rw [← intercalate_identifiers, h, String.intercalate_append_of_ne_nil hfront (by simp),
    String.intercalate_singleton]

theorem cutLast_normalized (h : n.identifiers = front ++ [last]) :
    cutLast isSlash n.normalized.toList =
      (if front = [] then none else some ("/".intercalate front).toList, last.toList) := by
  have hlast : ∀ c ∈ last.toList, isSlash c = false := by
    intro c hc
    have hslash : '/' ∉ last.toList := slash_not_mem_of_mem (n := n) (by simp [h])
    rw [isSlash, beq_eq_false_iff_ne]
    rintro rfl
    exact hslash hc
  by_cases hfront : front = []
  · subst hfront
    have hlone : n.normalized = last := by
      rw [← intercalate_identifiers, h]
      simp
    rw [if_pos rfl, hlone]
    exact cutLast_of_not_sep hlast
  · rw [if_neg hfront, normalized_of_identifiers h hfront, String.toList_append,
      String.toList_append, List.append_assoc]
    exact cutLast_append_cons rfl hlast

theorem simpleName_eq (h : n.identifiers = front ++ [last]) : n.simpleName = last := by
  rw [simpleName, cutLast_normalized h, String.ofList_toList]

theorem package_eq (h : n.identifiers = front ++ [last]) : n.package = "/".intercalate front := by
  rw [package, cutLast_normalized h]
  by_cases hfront : front = []
  · simp [hfront]
  · rw [if_neg hfront, Option.getD_some, String.ofList_toList]

/-- The way from a folder to the file of a class. -/
def place (n : QualifiedName) : List String :=
  n.identifiers.dropLast ++ [n.simpleName ++ ".class"]

theorem place_ne_nil (n : QualifiedName) : n.place ≠ [] := by
  simp [place]

theorem place_eq (h : n.identifiers = front ++ [last]) :
    n.place = front ++ [last ++ ".class"] := by
  rw [place, simpleName_eq h, h, List.dropLast_concat]

theorem exists_identifier_of_mem_place (h : part ∈ n.place) :
    ∃ text ending, isIdentifier text = true ∧ (ending = [] ∨ ending = ".class".toList) ∧
      part = String.ofList (text ++ ending) := by
  obtain ⟨front, last, hids⟩ := n.exists_identifiers
  rw [place_eq hids] at h
  rcases List.mem_append.mp h with h | h
  · have hpart : isIdentifier part.toList = true := isIdentifier_of_mem (n := n) (by simp [hids, h])
    exact ⟨part.toList, [], hpart, .inl rfl, by simp⟩
  · have hlast : isIdentifier last.toList = true := isIdentifier_of_mem (n := n) (by simp [hids])
    refine ⟨last.toList, ".class".toList, hlast, .inr rfl, ?_⟩
    rw [← String.toList_append, String.ofList_toList, List.mem_singleton.mp h]

theorem isFileName_of_mem_place (h : part ∈ n.place) : Path.IsFileName part := by
  obtain ⟨text, ending, htext, hending, rfl⟩ := exists_identifier_of_mem_place h
  refine isFileName_of_isIdentifier htext ?_
  rcases hending with rfl | rfl <;> decide

theorem null_not_mem_of_mem_place (h : part ∈ n.place) : '\x00' ∉ part.toList := by
  obtain ⟨text, ending, htext, hending, rfl⟩ := exists_identifier_of_mem_place h
  rw [String.toList_ofList, List.mem_append, not_or]
  refine ⟨not_mem_of_isIdentifier htext (by decide) (by decide), ?_⟩
  rcases hending with rfl | rfl <;> decide

theorem intercalate_place (n : QualifiedName) : "/".intercalate n.place = n.resourcePath := by
  obtain ⟨front, last, hids⟩ := n.exists_identifiers
  rw [place_eq hids, resourcePath]
  by_cases hfront : front = []
  · rw [← intercalate_identifiers, hids, hfront]
    simp
  · rw [normalized_of_identifiers hids hfront, String.intercalate_append_of_ne_nil hfront (by simp),
      String.intercalate_singleton]
    simp only [String.append_assoc]

end QualifiedName

end ClassAtlas
