import ClassAtlas.Proofs.FileSystem.Probes
import ClassAtlas.Proofs.Name.Slashes

/-! Places below a folder and their texts. The parts of a place are joined by slashes, and cutting
the text there gives the parts back; identifiers can be parts of a place. -/

namespace ClassAtlas

theorem pieces_eq_splitOnP {α : Type} (sep : α → Bool) (text : List α) :
    pieces sep text = text.splitOnP sep := by
  induction text with
  | nil => rfl
  | cons c cs ih =>
    rw [pieces, ih, List.splitOnP_cons_eq_if_modifyHead]
    obtain ⟨p, ps, hps⟩ := List.exists_cons_of_ne_nil (List.splitOnP_ne_nil sep cs)
    by_cases hc : sep c = true
    · simp [hc]
    · simp [hc, hps]

theorem pieces_congr {α : Type} {sep sep' : α → Bool} {text : List α}
    (h : ∀ c ∈ text, sep c = sep' c) : pieces sep text = pieces sep' text := by
  induction text with
  | nil => rfl
  | cons c cs ih =>
    have hrest := ih fun c hc => h c (List.mem_cons_of_mem _ hc)
    rw [pieces, pieces, h c List.mem_cons_self, hrest]

namespace Path

/-- What a path keeps of a text between slashes. It may lead upwards. -/
def IsPart (part : String) : Prop :=
  part ≠ "" ∧ part ≠ "." ∧ '/' ∉ part.toList

/-- What an entry of a folder can be called. -/
def IsFileName (part : String) : Prop :=
  part ≠ "" ∧ part ≠ "." ∧ part ≠ ".." ∧ '/' ∉ part.toList

instance (part : String) : Decidable (IsFileName part) :=
  inferInstanceAs (Decidable (_ ∧ _))

theorem IsFileName.isPart {part : String} (h : IsFileName part) : IsPart part :=
  ⟨h.1, h.2.1, h.2.2.2⟩

theorem isFileName_of_start {part : String} {c : Char} {cs : List Char}
    (hpart : part.toList = c :: cs) (hc : c ≠ '.') (hslash : '/' ∉ part.toList) :
    IsFileName part := by
  refine ⟨?_, ?_, ?_, hslash⟩
  · rintro rfl
    simp at hpart
  · rintro rfl
    exact hc (List.cons.inj hpart).1.symm
  · rintro rfl
    exact hc (List.cons.inj hpart).1.symm

variable {place : List String}

/-- A text made of parts starts with one, or is empty. -/
theorem exists_start (h : ∀ part ∈ place, IsPart part) :
    ("/".intercalate place).toList = [] ∨
      ∃ c rest, c ≠ '/' ∧ ("/".intercalate place).toList = c :: rest := by
  cases place with
  | nil => exact .inl rfl
  | cons part place =>
    obtain ⟨hne, -, hslash⟩ := h part List.mem_cons_self
    cases hpart : part.toList with
    | nil => exact absurd (String.toList_eq_nil_iff.mp hpart) hne
    | cons c cs =>
      have hc : c ≠ '/' := fun hc => hslash (by simp [hpart, hc])
      have htext : ∃ rest, ("/".intercalate (part :: place)).toList = c :: rest := by
        cases place with
        | nil => exact ⟨cs, by simp [hpart]⟩
        | cons next place => exact ⟨_, by rw [String.intercalate_cons_cons, String.toList_append,
            String.toList_append, hpart]; rfl⟩
      obtain ⟨rest, hrest⟩ := htext
      exact .inr ⟨c, rest, hc, hrest⟩

theorem root_intercalate (h : ∀ part ∈ place, IsPart part) :
    Root.ofText ("/".intercalate place).toList = .relative := by
  rcases exists_start h with htext | ⟨c, rest, hc, htext⟩
  · rw [htext]
    rfl
  · rw [htext]
    unfold Root.ofText
    split <;> simp_all

theorem pieces_intercalate (h : ∀ part ∈ place, IsPart part) (hne : place ≠ []) :
    pieces (· == '/') ("/".intercalate place).toList = place.map String.toList := by
  have hsep : ∀ part ∈ place.map String.toList, '/' ∉ part := by
    intro text htext
    obtain ⟨part, hpart, rfl⟩ := List.mem_map.mp htext
    exact (h part hpart).2.2
  rw [pieces_eq_splitOnP, ← List.splitOn_eq_splitOnP, String.toList_intercalate]
  exact List.splitOn_intercalate '/' hsep (by simpa using hne)

theorem componentsOf_intercalate (h : ∀ part ∈ place, IsPart part) :
    componentsOf ("/".intercalate place).toList = place := by
  by_cases hne : place = []
  · subst hne
    rfl
  · have hparts : ((place.map String.toList).map String.ofList) = place := by
      rw [List.map_map]
      exact List.map_id'' (fun part => String.ofList_toList) place
    have hkept : place.filter (fun part => part != "" && part != ".") = place := by
      refine List.filter_eq_self.mpr fun part hpart => ?_
      obtain ⟨hempty, hdot, -⟩ := h part hpart
      simp [hempty, hdot]
    rw [componentsOf, pieces_intercalate h hne, hparts, hkept]

/-- A text made of file names leads to the place of these names. -/
theorem ofText_intercalate (h : ∀ part ∈ place, IsFileName part) :
    ofText ("/".intercalate place) = ⟨.relative, place⟩ := by
  have hparts : ∀ part ∈ place, IsPart part := fun part hpart => (h part hpart).isPart
  rw [ofText, root_intercalate hparts, componentsOf_intercalate hparts]

end Path

theorem not_mem_of_isIdentifier {text : List Char} (h : isIdentifier text = true) {c : Char}
    (hstart : isIdentifierStart c = false) (hpart : isIdentifierPart c = false) : c ∉ text := by
  cases text with
  | nil => simp
  | cons first cs =>
    have hcs : isIdentifierStart first = true ∧ cs.all isIdentifierPart = true := by
      simpa [isIdentifier] using h
    rintro (_ | ⟨_, hmem⟩)
    · simp [hstart] at hcs
    · have hinner := List.all_eq_true.mp hcs.2 _ hmem
      simp [hpart] at hinner

/-- An identifier is a file name, with an ending and without. -/
theorem isFileName_of_isIdentifier {text ending : List Char} (h : isIdentifier text = true)
    (hending : '/' ∉ ending) : Path.IsFileName (String.ofList (text ++ ending)) := by
  have hslash : '/' ∉ text ++ ending := by
    rw [List.mem_append, not_or]
    exact ⟨not_mem_of_isIdentifier h (by decide) (by decide), hending⟩
  cases text with
  | nil => simp [isIdentifier] at h
  | cons c cs =>
    have hc : c ≠ '.' := by
      rintro rfl
      have hstart : isIdentifierStart '.' = false := by decide
      simp [isIdentifier, hstart] at h
    have htext : (String.ofList (c :: cs ++ ending)).toList = c :: (cs ++ ending) := by simp
    exact Path.isFileName_of_start htext hc (by simpa using hslash)

theorem slash_of_isNameSeparator {name : String} {c : Char} (hc : c ∈ (slashes name).toList) :
    isNameSeparator c = (c == '/') := by
  have hdot : c ≠ '.' := by
    rintro rfl
    obtain ⟨d, -, hd⟩ := List.mem_map.mp (by simpa [slashes] using hc)
    rw [QualifiedName.slashed] at hd
    split_ifs at hd with hsep
    · exact absurd hd (by decide)
    · exact hsep hd
  simp [isNameSeparator, hdot]

end ClassAtlas
