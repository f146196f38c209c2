import ClassAtlas.Proofs.Name.Identifiers
import ClassAtlas.Proofs.Name.Map
import ClassAtlas.Proofs.Name.Pattern

/-! The two forms of a name, a span of a longer text and a text of its own. A span is matched in
place and an owned name as a whole, but both are accepted for the same texts and say the same. -/

namespace ClassAtlas

section internalName

variable {text : List Char}

theorem isInternalName_eq_of_dot_not_mem (h : '.' ∉ text) :
    isInternalName text = isQualifiedName text := by
  have hsep : ∀ c ∈ text, isSlash c = isNameSeparator c := by
    intro c hc
    have hne : c ≠ '.' := fun hdot => h (hdot ▸ hc)
    simp [isSlash, isNameSeparator, hne]
  rw [isInternalName, isQualifiedName, pieces_congr hsep]

theorem dot_not_mem_of_isInternalName (h : isInternalName text = true) : '.' ∉ text := by
  intro hdot
  have hslash : isSlash '.' = false := by decide
  obtain ⟨piece, hpiece, hmem⟩ := mem_pieces_of_not_sep hdot hslash
  have hpart := isIdentifierPart_of_mem (List.all_eq_true.mp h piece hpiece) hmem
  exact absurd hpart (by decide)

/-- Internal names are the qualified names without dots. -/
theorem isInternalName_iff :
    isInternalName text = true ↔ isQualifiedName text = true ∧ '.' ∉ text := by
  constructor
  · intro h
    have hdot := dot_not_mem_of_isInternalName h
    exact ⟨isInternalName_eq_of_dot_not_mem hdot ▸ h, hdot⟩
  · rintro ⟨h, hdot⟩
    rwa [isInternalName_eq_of_dot_not_mem hdot]

theorem dot_not_mem_map_slashed (text : List Char) : '.' ∉ text.map QualifiedName.slashed := by
  intro hdot
  obtain ⟨c, -, hc⟩ := List.mem_map.mp hdot
  rw [QualifiedName.slashed] at hc
  split_ifs at hc with h
  · exact absurd hc (by decide)
  · exact h hc

theorem isInternalName_map_slashed (text : List Char) :
    isInternalName (text.map QualifiedName.slashed) = isQualifiedName text := by
  rw [isInternalName_eq_of_dot_not_mem (dot_not_mem_map_slashed text), isQualifiedName,
    pieces_map_slashed, isQualifiedName]

end internalName

namespace QualifiedName

/-- What a name says, read off its identifiers. -/
structure MadeOf (n : QualifiedName) (identifiers : List String) : Prop where
  normalized : n.normalized = "/".intercalate identifiers
  dotted : n.dotted = ".".intercalate identifiers
  simpleName : identifiers.getLast? = some n.simpleName
  package : n.package = "/".intercalate identifiers.dropLast
  resourcePath : n.resourcePath = "/".intercalate identifiers ++ ".class"

theorem madeOf_identifiers (n : QualifiedName) : n.MadeOf n.identifiers := by
  obtain ⟨front, last, h⟩ := n.exists_identifiers
  refine ⟨n.intercalate_identifiers.symm, n.dotted_eq, ?_, ?_, ?_⟩
  · rw [h, List.getLast?_concat, simpleName_eq h]
  · rw [package_eq h, h, List.dropLast_concat]
  · rw [resourcePath, intercalate_identifiers]

end QualifiedName

namespace NameSpan

/-- A span and an owned name that nothing tells apart. -/
structure Alike (v : NameSpan) (n : QualifiedName) : Prop where
  text : v.text = n.text
  toOwned : v.toOwned = n
  ofText : QualifiedName.ofText v.text = .ok n
  toSpan : NameSpan.ofText n.text = .ok n.toSpan
  text_toSpan : n.toSpan.text = v.text
  toOwned_toSpan : n.toSpan.toOwned = n
  beq : (NameLike.span v == .owned n) = true
  beq_left : ∀ other : NameLike, (NameLike.span v == other) = (NameLike.owned n == other)
  beq_right : ∀ other : NameLike, (other == NameLike.span v) = (other == NameLike.owned n)
  key : (NameLike.span v).key = (NameLike.owned n).key

theorem alike_toOwned (v : NameSpan) : v.Alike v.toOwned where
  text := rfl
  toOwned := rfl
  ofText := QualifiedName.ofText_eq_ok_iff.mpr rfl
  toSpan := by rw [NameSpan.ofText_eq, dif_pos v.toOwned.valid]
  text_toSpan := congrArg QualifiedName.text v.toOwned.toOwned_toSpan
  toOwned_toSpan := v.toOwned.toOwned_toSpan
  beq := by simp [NameLike.beq_eq_key, NameLike.key]
  beq_left _ := rfl
  beq_right _ := rfl
  key := rfl

variable {source : String} {start stop : Nat}

theorem ofBounds_eq (hle : start ≤ stop) (hstop : stop ≤ source.length) :
    ofBounds source start stop =
      if h : isQualifiedName (slice source.toList start stop) = true then
        .ok ⟨source, start, stop, hle, hstop, h⟩
      else .error (.notQualified (String.ofList (slice source.toList start stop))) := by
  have hbounds : (0 : Int) ≤ start ∧ (start : Int) ≤ stop ∧ (stop : Int) ≤ source.length := by omega
  rw [ofBounds, dif_pos hbounds]
  simp only [Int.toNat_natCast]

/-- A span is read as the text between its ends. -/
theorem map_toOwned_ofBounds (hle : start ≤ stop) (hstop : stop ≤ source.length) :
    (ofBounds source start stop).map toOwned =
      QualifiedName.ofText (String.ofList (slice source.toList start stop)) := by
  rw [ofBounds_eq hle hstop, QualifiedName.ofText]
  by_cases h : isQualifiedName (slice source.toList start stop) = true
  · have hcopy :
        isQualifiedName (String.ofList (slice source.toList start stop)).toList = true := by
      simpa using h
    rw [dif_pos h, dif_pos hcopy]
    rfl
  · have hcopy :
        ¬ isQualifiedName (String.ofList (slice source.toList start stop)).toList = true := by
      simpa using h
    rw [dif_neg h, dif_neg hcopy]
    rfl

theorem exists_ofBounds_iff (hle : start ≤ stop) (hstop : stop ≤ source.length) :
    (∃ v, ofBounds source start stop = .ok v) ↔
      isQualifiedName (slice source.toList start stop) = true := by
  rw [ofBounds_eq hle hstop]
  split_ifs with h <;> simp [h]

end NameSpan

theorem QualifiedName.exists_ofText_iff {text : String} :
    (∃ n, ofText text = .ok n) ↔ isQualifiedName text.toList = true := by
  rw [ofText]
  split_ifs with h <;> simp [h]

theorem isIdentifier_ne_nil {text : List Char} (h : isIdentifier text = true) : text ≠ [] := by
  rintro rfl
  simp [isIdentifier] at h

theorem isQualifiedName_iff {text : List Char} : isQualifiedName text = true ↔
    ∀ piece ∈ pieces isNameSeparator text, piece ≠ [] ∧ isIdentifier piece = true := by
  rw [isQualifiedName, List.all_eq_true]
  exact forall₂_congr fun piece _ => ⟨fun h => ⟨isIdentifier_ne_nil h, h⟩, And.right⟩

namespace Signature

/-- A class that a type refers to, at any depth. -/
inductive Mentions (name : String) : Signature → Prop
  | object : Mentions name (object name)
  | array {component : Signature} (h : Mentions name component) : Mentions name (array component)
  | arg {args : List Signature} {arg result : Signature} (harg : arg ∈ args)
      (h : Mentions name arg) : Mentions name (method args result)
  | result {args : List Signature} {result : Signature} (h : Mentions name result) :
      Mentions name (method args result)

variable {name : String} {s : Signature}

theorem Mentions.of_every {p : Signature → Bool} (h : s.Mentions name) (hs : s.every p = true) :
    p (Signature.object name) = true := by
  induction h with
  | object => exact hs
  | array _ ih =>
    rw [every, Bool.and_eq_true] at hs
    exact ih hs.2
  | arg harg _ ih =>
    simp only [every, Bool.and_eq_true, everyIn_iff] at hs
    exact ih (hs.1.2 _ harg)
  | result _ ih =>
    simp only [every, Bool.and_eq_true] at hs
    exact ih hs.2

/-- The class names in a type that was read are names in slashed form. -/
theorem exists_ofText_of_mentions {text : String} (h : ofDescriptor text = .ok s)
    (hname : s.Mentions name) : ∃ n, QualifiedName.ofText name = .ok n ∧ n.normalized = name := by
  have hinternal : isInternalName name.toList = true :=
    hname.of_every (ofDescriptor_eq_ok_iff.mp h).2.named
  obtain ⟨hvalid, hdot⟩ := isInternalName_iff.mp hinternal
  obtain ⟨n, hn⟩ := QualifiedName.exists_ofText_iff.mpr hvalid
  refine ⟨n, hn, ?_⟩
  have hslashed : ∀ c ∈ name.toList, QualifiedName.slashed c = id c := by
    intro c hc
    have hne : c ≠ '.' := fun h => hdot (h ▸ hc)
    rw [QualifiedName.slashed, if_neg hne, id]
  rw [QualifiedName.normalized, QualifiedName.ofText_eq_ok_iff.mp hn,
    List.map_congr_left hslashed, List.map_id, String.ofList_toList]

end Signature

namespace NameSpan

/-- A span is a name exactly if the pattern of names matches it in place, if it matches a copy of
it, and if cutting it leaves identifiers only; then the span and the copy cannot be told apart. The
pattern of internal names matches the names without dots, so the classes of a type that was read are
names in slashed form. -/
theorem ofBounds_agrees :
    (∀ (source : String) (start stop : Nat), start ≤ stop → stop ≤ source.length →
      let span := slice source.toList start stop
      ((∃ v, ofBounds source start stop = .ok v) ↔
        ∃ n, QualifiedName.ofText (String.ofList span) = .ok n) ∧
      ((∃ v, ofBounds source start stop = .ok v) ↔
        Pattern.qualifiedName.Spans source.toList start stop) ∧
      ((∃ n, QualifiedName.ofText (String.ofList span) = .ok n) ↔
        Pattern.qualifiedName.Spans span 0 span.length) ∧
      ((∃ v, ofBounds source start stop = .ok v) ↔
        ∀ piece ∈ pieces isNameSeparator span, piece ≠ [] ∧ isIdentifier piece = true) ∧
      (∀ v n, ofBounds source start stop = .ok v →
        QualifiedName.ofText (String.ofList span) = .ok n →
        v.Alike n ∧ n.MadeOf ((pieces isNameSeparator span).map String.ofList)) ∧
      (Pattern.internalName.Spans source.toList start stop ↔ isInternalName span = true)) ∧
    (∀ text : List Char,
      (isInternalName text = true ↔ isQualifiedName text = true ∧ '.' ∉ text) ∧
      isQualifiedName text = isInternalName (text.map QualifiedName.slashed)) ∧
    ∀ (descriptor : String) (s : Signature), Signature.ofDescriptor descriptor = .ok s →
      ∀ name, s.Mentions name → ∃ n, QualifiedName.ofText name = .ok n ∧ n.normalized = name := by
  refine ⟨fun source start stop hle hstop => ?_,
    fun text => ⟨isInternalName_iff, (isInternalName_map_slashed text).symm⟩,
    fun descriptor s h name hname => Signature.exists_ofText_of_mentions h hname⟩
  intro span
  have hstop' : stop ≤ source.toList.length := by rwa [String.length_toList]
  have hspan : (∃ v, ofBounds source start stop = .ok v) ↔ isQualifiedName span = true :=
    exists_ofBounds_iff hle hstop
  have hcopy : (∃ n, QualifiedName.ofText (String.ofList span) = .ok n) ↔
      isQualifiedName span = true := by
    rw [QualifiedName.exists_ofText_iff, String.toList_ofList]
  have hwhole : slice span 0 span.length = span := by simp [slice]
  rw [hspan, hcopy]
  refine ⟨Iff.rfl, ?_, ?_, isQualifiedName_iff, ?_, ?_⟩
  · rw [Pattern.spans_iff hle hstop', Pattern.mem_qualifiedName_iff]
  · rw [Pattern.spans_iff (Nat.zero_le _) (le_refl _), hwhole, Pattern.mem_qualifiedName_iff]
  · intro v n hv hn
    have howned := map_toOwned_ofBounds hle hstop
    rw [hv, hn] at howned
    obtain rfl : v.toOwned = n := Except.ok.inj howned
    have htext : v.toOwned.text.toList = span := by
      rw [QualifiedName.ofText_eq_ok_iff.mp hn, String.toList_ofList]
    have hmade := v.toOwned.madeOf_identifiers
    rw [QualifiedName.identifiers, htext] at hmade
    exact ⟨v.alike_toOwned, hmade⟩
  · rw [Pattern.spans_iff hle hstop', Pattern.mem_internalName_iff]

theorem ofBounds_agrees_object :
    (1 ≤ 4 ∧ 4 ≤ "La/B;".length ∧ Signature.ofDescriptor "La/B;" = .ok (.object "a/B") ∧
      (Signature.object "a/B").Mentions "a/B") ∧
    Pattern.qualifiedName.Spans "La/B;".toList 1 4 ∧
    (∃ v n, ofBounds "La/B;" 1 4 = .ok v ∧ QualifiedName.ofText "a/B" = .ok n ∧ v.Alike n ∧
      n.MadeOf ["a", "B"]) ∧
    ∃ n, QualifiedName.ofText "a/B" = .ok n ∧ n.normalized = "a/B" := by
  have hle : 1 ≤ 4 := by decide
  have hstop : 4 ≤ "La/B;".length := by decide
  have hread : Signature.ofDescriptor "La/B;" = .ok (.object "a/B") := by
    have hwithin : (Signature.object "a/B").Within Descriptor.maxNesting := ⟨rfl, rfl, by decide⟩
    exact Signature.ofDescriptor_eq_ok_iff.mpr ⟨rfl, hwithin⟩
  obtain ⟨hboth, hspan, -, -, hagree, -⟩ := ofBounds_agrees.1 "La/B;" 1 4 hle hstop
  obtain ⟨n, hn⟩ :=
    QualifiedName.exists_ofText_iff.mpr (by decide : isQualifiedName "a/B".toList = true)
  obtain ⟨v, hv⟩ := hboth.mpr ⟨n, hn⟩
  obtain ⟨halike, hmade⟩ := hagree v n hv hn
  exact ⟨⟨hle, hstop, hread, .object⟩, hspan.mp ⟨v, hv⟩, ⟨v, n, hv, hn, halike, hmade⟩,
    ofBounds_agrees.2.2 "La/B;" _ hread "a/B" .object⟩

end NameSpan

end ClassAtlas
