import ClassAtlas.Name.Map
import Mathlib.Tactic

/-! The slashed form of names. Dots and slashes separate identifiers alike, so a text is a qualified
name exactly if its slashed form is one, and all names of one slashed form stand for one class. -/

namespace ClassAtlas

/-- A text with slashes in place of dots. -/
def slashes (text : String) : String :=
  String.ofList (text.toList.map QualifiedName.slashed)

theorem QualifiedName.normalized_eq (n : QualifiedName) : n.normalized = slashes n.text := rfl

theorem slashed_of_isNameSeparator {c : Char} (h : isNameSeparator c = true) :
    isNameSeparator (QualifiedName.slashed c) = true := by
  by_cases hc : c = '.'
  · subst hc
    decide
  · rwa [QualifiedName.slashed, if_neg hc]

theorem slashed_of_not_isNameSeparator {c : Char} (h : isNameSeparator c = false) :
    QualifiedName.slashed c = c := by
  have hc : c ≠ '.' := by
    rintro rfl
    exact absurd h (by decide)
  rw [QualifiedName.slashed, if_neg hc]

theorem pieces_map_slashed (text : List Char) :
    pieces isNameSeparator (text.map QualifiedName.slashed) = pieces isNameSeparator text := by
  induction text with
  | nil => rfl
  | cons c cs ih =>
    rw [List.map_cons, pieces, pieces, ih]
    cases hc : isNameSeparator c with
    | true => simp [slashed_of_isNameSeparator hc]
    | false => simp [slashed_of_not_isNameSeparator hc, hc]

theorem isQualifiedName_slashes (text : String) :
    isQualifiedName (slashes text).toList = isQualifiedName text.toList := by
  simp [isQualifiedName, slashes, pieces_map_slashed]

theorem slashed_slashed (c : Char) :
    QualifiedName.slashed (QualifiedName.slashed c) = QualifiedName.slashed c := by
  by_cases hc : c = '.'
  · subst hc
    decide
  · simp [QualifiedName.slashed, hc]

@[simp] theorem slashes_slashes (text : String) : slashes (slashes text) = slashes text := by
  simp only [slashes, String.toList_ofList, List.map_map]
  exact congrArg _ (List.map_congr_left fun c _ => slashed_slashed c)

theorem QualifiedName.ofText_eq_ok_iff {text : String} {n : QualifiedName} :
    ofText text = .ok n ↔ n.text = text := by
  unfold ofText
  split_ifs with h
  · simp only [Except.ok.injEq]
    exact ⟨fun hn => hn ▸ rfl, fun ht => by obtain ⟨t, hv⟩ := n; subst ht; rfl⟩
  · simp only [false_iff]
    exact fun ht => h (ht ▸ n.valid)

theorem slice_zero (text : String) : slice text.toList 0 text.length = text.toList := by
  simp [slice, ← String.length_toList]

@[simp] theorem QualifiedName.toOwned_toSpan (n : QualifiedName) : n.toSpan.toOwned = n := by
  obtain ⟨t, hv⟩ := n
  simp [toSpan, NameSpan.toOwned, NameSpan.text, slice_zero]

theorem NameSpan.ofText_eq (text : String) :
    NameSpan.ofText text = if h : isQualifiedName text.toList = true then
      .ok (QualifiedName.toSpan ⟨text, h⟩) else .error (.notQualified text) := by
  have hb : (0 : Int) ≤ 0 ∧ (0 : Int) ≤ text.length ∧ (text.length : Int) ≤ text.length := by omega
  rw [ofText, ofBounds, dif_pos hb]
  simp only [Int.toNat_zero, Int.toNat_natCast, slice_zero]
  split_ifs
  · rfl
  · simp

theorem NameLike.toSpan_owned (name : NameLike) :
    (∃ span, name.toSpan = .ok span ∧ span.toOwned.text = name.text) ∨
      ((∃ e, name.toSpan = .error e) ∧ isQualifiedName name.text.toList = false) := by
  cases name with
  | plain text =>
    by_cases h : isQualifiedName text.toList = true
    · exact .inl ⟨QualifiedName.toSpan ⟨text, h⟩, by simp [toSpan, NameSpan.ofText_eq, h],
        by rw [QualifiedName.toOwned_toSpan]; rfl⟩
    · exact .inr ⟨⟨.notQualified text, by simp [toSpan, NameSpan.ofText_eq, h]⟩,
        Bool.eq_false_iff.mpr h⟩
  | span name => exact .inl ⟨name, rfl, rfl⟩
  | owned name => exact .inl ⟨name.toSpan, rfl, by rw [QualifiedName.toOwned_toSpan]; rfl⟩

end ClassAtlas
