import ClassAtlas.Classpath
import ClassAtlas.Proofs.FileSystem.Places

/-! The text of a classpath. Cut at a separator of one character it gives the classpath back, and
texts that are put together with the separator in between give classpaths that are joined. -/

namespace ClassAtlas

theorem not_sep_of_mem_pieces {α : Type} {sep : α → Bool} {text piece : List α} {c : α}
    (hpiece : piece ∈ pieces sep text) (hc : c ∈ piece) : sep c = false := by
  induction text generalizing piece with
  | nil =>
    obtain rfl : piece = [] := by simpa [pieces] using hpiece
    cases hc
  | cons d text ih =>
    obtain ⟨first, rest, hpieces⟩ : ∃ first rest, pieces sep text = first :: rest :=
      List.exists_cons_of_ne_nil (by simp [pieces_eq_splitOnP])
    rw [pieces, hpieces] at hpiece
    rw [hpieces] at ih
    by_cases hd : sep d = true
    · rw [if_pos hd] at hpiece
      rcases List.mem_cons.mp hpiece with rfl | hmem
      · cases hc
      · exact ih hmem hc
    · rw [if_neg hd] at hpiece
      rcases List.mem_cons.mp hpiece with rfl | hmem
      · rcases List.mem_cons.mp hc with rfl | hc
        · simpa using hd
        · exact ih List.mem_cons_self hc
      · exact ih (List.mem_cons_of_mem _ hmem) hc

theorem cutFrom_singleton (sep : Char) (taken text : List Char) :
    cutFrom [sep] 0 taken text = (text.splitOn sep).modifyHead (taken.reverse ++ ·) := by
  induction text generalizing taken with
  | nil => simp [cutFrom, List.splitOn_eq_splitOnP]
  | cons c cs ih =>
    have hstart : List.isPrefixOf [sep] (c :: cs) = (sep == c) := by simp [List.isPrefixOf]
    rw [cutFrom, hstart, List.splitOn_cons_eq_if_modifyHead]
    by_cases hc : c = sep
    · subst hc
      have hrest := ih []
      rw [beq_self_eq_true, if_pos rfl, if_pos rfl, List.length_singleton, Nat.sub_self, hrest]
      cases cs.splitOn c <;> simp
    · have hsep : (sep == c) = false := by simpa using Ne.symm hc
      have hcut : (c == sep) = false := by simpa using hc
      rw [hsep, hcut, if_neg Bool.false_ne_true, if_neg Bool.false_ne_true, ih,
        List.modifyHead_modifyHead]
      simp [Function.comp_def]

theorem cutAll_singleton (sep : Char) (text : List Char) :
    cutAll [sep] text = text.splitOn sep := by
  rw [cutAll, cutFrom_singleton]
  cases text.splitOn sep <;> rfl

namespace Path

variable {p : Path} {text : String} {part : String}

theorem componentsOf_cons_slash (cs : List Char) : componentsOf ('/' :: cs) = componentsOf cs := by
  rw [componentsOf, pieces]
  simp [componentsOf]

theorem isPart_of_mem_componentsOf {cs : List Char} (h : part ∈ componentsOf cs) : IsPart part := by
  obtain ⟨hmem, hkept⟩ := List.mem_filter.mp h
  obtain ⟨piece, hpiece, rfl⟩ := List.mem_map.mp hmem
  simp only [Bool.and_eq_true, bne_iff_ne] at hkept
  refine ⟨hkept.1, hkept.2, fun hslash => ?_⟩
  rw [String.toList_ofList] at hslash
  exact absurd (not_sep_of_mem_pieces hpiece hslash) (by decide)

/-- The text of a path leads to the path. -/
theorem ofText_toText_of_parts (h : ∀ part ∈ p.parts, IsPart part) : ofText p.toText = p := by
  obtain ⟨root, parts⟩ := p
  have hstart := exists_start h
  have hparts := componentsOf_intercalate h
  rw [toText]
  split_ifs with hempty
  · obtain ⟨rfl, rfl⟩ := hempty
    rfl
  · rw [ofText, String.toList_append]
    cases root with
    | relative =>
      have htext : (Root.text .relative).toList = [] := rfl
      rw [htext, List.nil_append, root_intercalate h, hparts]
    | single =>
      have htext : (Root.text .single).toList = ['/'] := by simp [Root.text]
      rw [htext, List.singleton_append, componentsOf_cons_slash, hparts]
      rcases hstart with hnil | ⟨c, rest, hc, hcons⟩
      · rw [hnil]
        rfl
      · simp [hcons, Root.ofText, hc]
    | double =>
      have htext : (Root.text .double).toList = ['/', '/'] := by simp [Root.text]
      rw [htext, List.cons_append, List.singleton_append, componentsOf_cons_slash,
        componentsOf_cons_slash, hparts]
      rcases hstart with hnil | ⟨c, rest, hc, hcons⟩
      · rw [hnil]
        rfl
      · simp [hcons, Root.ofText, hc]

theorem ofText_toText_ofText (text : String) : ofText (ofText text).toText = ofText text :=
  ofText_toText_of_parts fun _ hpart => isPart_of_mem_componentsOf hpart

end Path

namespace Classpath

variable {c : Char} {p q : Classpath}

/-- Stretches between separators, the blank ones left out. -/
def stretches (c : Char) (text : String) : List String :=
  ((text.toList.splitOn c).filter fun s => !isBlank s).map String.ofList

theorem parse?_singleton (c : Char) (text : String) :
    parse? (String.singleton c) text = some (ofTexts (stretches c text)) := by
  have hsep : (String.singleton c).isEmpty = false := by simp [String.isEmpty_eq_false_iff]
  rw [parse?, if_neg (by simp [hsep]), String.toList_singleton, cutAll_singleton]
  rfl

theorem stretches_append (c : Char) (a b : String) :
    stretches c (a ++ String.singleton c ++ b) = stretches c a ++ stretches c b := by
  have htext : (a ++ String.singleton c ++ b).toList = a.toList ++ c :: b.toList := by simp
  rw [stretches, htext, List.splitOn_append_cons_self, List.filter_append, List.map_append]
  rfl

theorem ofTexts_append (texts more : List String) :
    ofTexts (texts ++ more) = (ofTexts texts).join (ofTexts more) := by
  simp [ofTexts, join]

/-- A path that a separator can stand beside. Some text leads to it, and its own text neither has
the separator in it nor is only white space. -/
structure Separable (c : Char) (p : Path) : Prop where
  read : ∃ text, p = Path.ofText text
  separator : c ∉ p.toText.toList
  shown : isBlank p.toText.toList = false

theorem Separable.ofText_toText {p : Path} (h : Separable c p) : Path.ofText p.toText = p := by
  obtain ⟨text, rfl⟩ := h.read
  exact Path.ofText_toText_ofText text

theorem splitOn_toText (h : ∀ path ∈ p.entries, Separable c path) (hne : p.entries ≠ []) :
    (p.toText (String.singleton c)).toList.splitOn c =
      (p.entries.map Path.toText).map String.toList := by
  have hsep : ∀ text ∈ (p.entries.map Path.toText).map String.toList, c ∉ text := by
    intro text htext
    obtain ⟨_, hshown, rfl⟩ := List.mem_map.mp htext
    obtain ⟨path, hpath, rfl⟩ := List.mem_map.mp hshown
    exact (h path hpath).separator
  rw [toText, String.toList_intercalate, String.toList_singleton]
  exact List.splitOn_intercalate c hsep (by simpa using hne)

/-- A classpath is cut back into the texts of its entries. The text of the empty one is empty, which
is one blank stretch. -/
theorem stretches_toText (h : ∀ path ∈ p.entries, Separable c path) :
    stretches c (p.toText (String.singleton c)) = p.entries.map Path.toText := by
  by_cases hne : p.entries = []
  · rw [toText, hne]
    rfl
  · have hkept : ((p.entries.map Path.toText).map String.toList).filter (fun s => !isBlank s) =
        (p.entries.map Path.toText).map String.toList := by
      refine List.filter_eq_self.mpr fun text htext => ?_
      obtain ⟨_, hshown, rfl⟩ := List.mem_map.mp htext
      obtain ⟨path, hpath, rfl⟩ := List.mem_map.mp hshown
      rw [(h path hpath).shown]
      rfl
    rw [stretches, splitOn_toText h hne, hkept, List.map_map]
    exact List.map_id'' (fun text => String.ofList_toList) _

theorem ofTexts_toText (h : ∀ path ∈ p.entries, Separable c path) :
    ofTexts (p.entries.map Path.toText) = p := by
  have hpaths : (p.entries.map Path.toText).map Path.ofText = p.entries := by
    rw [List.map_map]
    exact (List.map_congr_left fun path hpath => (h path hpath).ofText_toText).trans (List.map_id _)
  rw [ofTexts, hpaths]

/-- Texts put together with the separator in between give classpaths that are joined. A classpath
whose entries a separator can stand beside is what its text is cut into, and so is a joined one. -/
theorem parse?_joined (c : Char) :
    (∀ a b : String, ∃ p q, parse? (String.singleton c) a = some p ∧
      parse? (String.singleton c) b = some q ∧
      parse? (String.singleton c) (a ++ String.singleton c ++ b) = some (p.join q)) ∧
    (∀ p : Classpath, (∀ path ∈ p.entries, Separable c path) →
      parse? (String.singleton c) (p.toText (String.singleton c)) = some p) ∧
    ∀ p q : Classpath, (∀ path ∈ p.entries ++ q.entries, Separable c path) →
      parse? (String.singleton c) ((p.join q).toText (String.singleton c)) = some (p.join q) ∧
      parse? (String.singleton c) (p.toText (String.singleton c) ++ String.singleton c ++
        q.toText (String.singleton c)) = some (p.join q) := by
  have hparse (p : Classpath) (h : ∀ path ∈ p.entries, Separable c path) :
      parse? (String.singleton c) (p.toText (String.singleton c)) = some p := by
    rw [parse?_singleton, stretches_toText h, ofTexts_toText h]
  refine ⟨fun a b => ?_, hparse, fun p q h => ⟨hparse _ h, ?_⟩⟩
  · refine ⟨_, _, parse?_singleton c a, parse?_singleton c b, ?_⟩
    rw [parse?_singleton, stretches_append, ofTexts_append]
  · obtain ⟨hp, hq⟩ := List.forall_mem_append.mp h
    rw [parse?_singleton, stretches_append, ofTexts_append, stretches_toText hp,
      stretches_toText hq, ofTexts_toText hp, ofTexts_toText hq]

theorem parse?_joined_lib :
    let p : Classpath := ofTexts ["build/classes", "/"]
    let q : Classpath := ofTexts ["../lib/a b.jar", ""]
    (∀ path ∈ p.entries ++ q.entries, Separable ':' path) ∧
      parse? (String.singleton ':') "build/classes:/:../lib/a b.jar:." = some (p.join q) := by
  intro p q
  have h : ∀ path ∈ p.entries ++ q.entries, Separable ':' path := by
    intro path hpath
    have hpaths : p.entries ++ q.entries =
        ["build/classes", "/", "../lib/a b.jar", ""].map Path.ofText := rfl
    have hread : ∃ text, path = Path.ofText text := by
      obtain ⟨text, -, rfl⟩ := List.mem_map.mp (hpaths ▸ hpath)
      exact ⟨text, rfl⟩
    have hall : ∀ path ∈ p.entries ++ q.entries,
        ':' ∉ path.toText.toList ∧ isBlank path.toText.toList = false := by decide +kernel
    exact ⟨hread, (hall path hpath).1, (hall path hpath).2⟩
  have htext : (p.join q).toText (String.singleton ':') = "build/classes:/:../lib/a b.jar:." := by
    decide +kernel
  exact ⟨h, htext ▸ ((parse?_joined ':').2.2 p q h).1⟩

end Classpath

end ClassAtlas
