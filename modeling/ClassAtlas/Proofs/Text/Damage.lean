import ClassAtlas.Proofs.Text.ModifiedUtf8

/-! Texts of class files with broken bytes behind them. One broken sequence anywhere makes the whole
be read as standard UTF-8, which has no surrogates, so that characters beyond the first plane are
lost also where they stand in front of it. -/

namespace ClassAtlas

namespace Utf8

variable {surrogates : Bool} {b : UInt8}

/-- A byte that no sequence starts with: it goes on with one, is too small a start, or is in
none. -/
def IsStray (b : UInt8) : Prop :=
  0x80 ≤ b ∧ b < 0xC2 ∨ 0xF4 < b

/-- The characters found, with a replacement for each broken sequence. -/
def charsOf (found : List (Option Nat)) : List Char :=
  found.map fun p => (p.map Char.ofNat).getD replacement

theorem lead_of_isStray (h : IsStray b) : lead surrogates b = .bad := by
  simp only [IsStray, UInt8.le_iff_toNat_le, UInt8.lt_iff_toNat_lt, UInt8.reduceToNat] at h
  simp only [lead, UInt8.lt_iff_toNat_lt, beq_iff_eq, ← UInt8.toNat_inj, UInt8.reduceToNat,
    Bool.and_eq_true]
  split_ifs <;> first | rfl | omega

theorem isStray_tail (n : Nat) : IsStray (tail n) := by
  left
  simp only [UInt8.le_iff_toNat_le, UInt8.lt_iff_toNat_lt, toNat_tail, UInt8.reduceToNat]
  omega

theorem scan_stray (h : IsStray b) (bs : List UInt8) :
    scan surrogates none (b :: bs) = none :: scan surrogates none bs := by
  rw [scan, enter, lead_of_isStray h]

theorem scan_pending_stray {pending : Pending} (h : IsStray b) (hhigh : pending.high < b)
    (bs : List UInt8) :
    scan surrogates (some pending) (b :: bs) = none :: none :: scan surrogates none bs := by
  have hbeyond : ¬ (pending.low ≤ b && b ≤ pending.high) = true := by
    simp [UInt8.not_le.mpr hhigh]
  rw [scan, if_neg hbeyond, enter, lead_of_isStray h]

/-- Standard UTF-8 finds three broken sequences in the three bytes of a surrogate. -/
theorem scan_surrogate {p : Nat} (h : IsSurrogate p) (bs : List UInt8) :
    scan false none (form p ++ bs) = none :: none :: none :: scan false none bs := by
  unfold IsSurrogate at h
  have hthird : p / 4096 = 13 := by omega
  have hform : form p = [UInt8.ofNat (13 + 0xE0), tail (p / 64), tail p] := by
    rw [form, if_neg (by omega), if_neg (by omega), if_pos (by omega), hthird]
  have hlead : lead false (UInt8.ofNat (13 + 0xE0)) = .opens ⟨13, 2, 0x80, 0x9F⟩ :=
    lead_three (by omega)
  have hbeyond : 0x9F < tail (p / 64) := by
    rw [UInt8.lt_iff_toNat_lt, toNat_tail]
    show 0x9F < p / 64 % 64 + 0x80
    omega
  simp only [hform, List.cons_append, List.nil_append]
  rw [scan_lead hlead, scan_pending_stray (isStray_tail _) hbeyond, scan_stray (isStray_tail _)]

end Utf8

namespace ModifiedUtf8

/-- A text in a class file; characters beyond the first plane are two surrogates. -/
def encodeText (text : String) : List UInt8 :=
  encode ((text.toList.map Char.toNat).flatMap Utf16.ofPoint)

/-- Bytes without a broken sequence. -/
def Intact (bytes : List UInt8) : Prop :=
  ∃ ps, Utf8.points? true (foldNull bytes) = some ps

abbrev InFirstPlane (c : Char) : Prop :=
  c.toNat < 0x10000

/-- What is left of a character where a sequence is broken: beyond the first plane the six bytes of
its surrogates are replaced one by one. -/
def spoiled (c : Char) : List Char :=
  if InFirstPlane c then [c] else List.replicate 6 Utf8.replacement

theorem not_isSurrogate (c : Char) : ¬ Utf8.IsSurrogate c.toNat := by
  have hvalid : c.toNat < 0xD800 ∨ 0xDFFF < c.toNat ∧ c.toNat < 0x110000 := c.valid
  unfold Utf8.IsSurrogate
  omega

theorem units_of_inFirstPlane {c : Char} (h : InFirstPlane c) :
    (Utf16.ofPoint c.toNat).map UInt16.toNat = [c.toNat] := by
  rw [Utf16.ofPoint, if_pos h, List.map_singleton, UInt16.toNat_ofNat_of_lt' h]

theorem exists_surrogates {c : Char} (h : ¬ InFirstPlane c) : ∃ high low,
    (Utf16.ofPoint c.toNat).map UInt16.toNat = [high, low] ∧
      Utf8.IsSurrogate high ∧ Utf8.IsSurrogate low := by
  have hlt : c.toNat < 0x110000 := Utf8.toNat_lt c
  have hhigh : (UInt16.ofNat (0xD800 + (c.toNat - 0x10000) / 0x400)).toNat =
      0xD800 + (c.toNat - 0x10000) / 0x400 :=
    UInt16.toNat_ofNat_of_lt' (show _ < 2 ^ 16 by omega)
  have hlow : (UInt16.ofNat (0xDC00 + (c.toNat - 0x10000) % 0x400)).toNat =
      0xDC00 + (c.toNat - 0x10000) % 0x400 :=
    UInt16.toNat_ofNat_of_lt' (show _ < 2 ^ 16 by omega)
  have hunits : (Utf16.ofPoint c.toNat).map UInt16.toNat =
      [0xD800 + (c.toNat - 0x10000) / 0x400, 0xDC00 + (c.toNat - 0x10000) % 0x400] := by
    rw [Utf16.ofPoint, if_neg h, List.map_cons, List.map_singleton, hhigh, hlow]
  exact ⟨_, _, hunits, ⟨by omega, by omega⟩, ⟨by omega, by omega⟩⟩

theorem charsOf_ofPoint (c : Char) (bs : List UInt8) :
    Utf8.charsOf (Utf8.scan false none
      (((Utf16.ofPoint c.toNat).map UInt16.toNat).flatMap Utf8.form ++ bs)) =
      spoiled c ++ Utf8.charsOf (Utf8.scan false none bs) := by
  by_cases hplane : InFirstPlane c
  · rw [units_of_inFirstPlane hplane, List.flatMap_singleton,
      Utf8.scan_form (Utf8.toNat_lt c) (.inr (not_isSurrogate c)), spoiled, if_pos hplane]
    simp [Utf8.charsOf, Char.ofNat_toNat]
  · obtain ⟨high, low, hunits, hhigh, hlow⟩ := exists_surrogates hplane
    rw [hunits, List.flatMap_cons, List.flatMap_singleton, List.append_assoc,
      Utf8.scan_surrogate hhigh, Utf8.scan_surrogate hlow, spoiled, if_neg hplane]
    rfl

theorem charsOf_encodeText (text : String) (bs : List UInt8) :
    Utf8.charsOf (Utf8.scan false none (foldNull (encodeText text ++ bs))) =
      text.toList.flatMap spoiled ++ Utf8.charsOf (Utf8.scan false none (foldNull bs)) := by
  rw [encodeText, foldNull_encode_append]
  induction text.toList with
  | nil => rfl
  | cons c cs ih =>
    rw [List.map_cons, List.flatMap_cons, List.map_append, List.flatMap_append, List.append_assoc,
      charsOf_ofPoint, ih, List.flatMap_cons, List.append_assoc]

theorem decode_units_append (cs : List Char) (us : List UInt16) :
    Utf16.decode ((cs.map Char.toNat).flatMap Utf16.ofPoint ++ us) = cs ++ Utf16.decode us := by
  induction cs with
  | nil => rfl
  | cons c cs ih =>
    rw [List.map_cons, List.flatMap_cons, List.append_assoc, Utf16.decode_ofPoint_append, ih,
      List.cons_append]

theorem points?_encodeText (text : String) (bs : List UInt8) :
    Utf8.points? true (foldNull (encodeText text ++ bs)) = (Utf8.points? true (foldNull bs)).map
      (((text.toList.map Char.toNat).flatMap Utf16.ofPoint).map UInt16.toNat ++ ·) := by
  have hpoints : ∀ p ∈ ((text.toList.map Char.toNat).flatMap Utf16.ofPoint).map UInt16.toNat,
      p < 0x110000 := List.forall_mem_map.mpr fun u _ => unit_lt u
  rw [encodeText, foldNull_encode_append, Utf8.points?_forms_append hpoints]

theorem decode_of_intact {bs : List UInt8} (h : Intact bs) (text : String) :
    decode (encodeText text ++ bs) = text ++ decode bs := by
  obtain ⟨ps, hps⟩ := h
  simp only [decode, points?_encodeText, hps, Option.map_some]
  rw [List.flatMap_append, Utf16.flatMap_ofPoint_units, decode_units_append, String.ofList_append,
    String.ofList_toList]

theorem decode_of_not_intact {bs : List UInt8} (h : ¬ Intact bs) (text : String) :
    decode (encodeText text ++ bs) = String.ofList (text.toList.flatMap spoiled) ++ decode bs := by
  have hnone : Utf8.points? true (foldNull bs) = none :=
    Option.eq_none_iff_forall_not_mem.mpr fun ps hps => h ⟨ps, hps⟩
  simp only [decode, points?_encodeText, hnone, Option.map_none]
  exact (congrArg String.ofList (charsOf_encodeText text bs)).trans String.ofList_append

theorem flatMap_spoiled_eq {cs : List Char} (h : ∀ c ∈ cs, InFirstPlane c) :
    cs.flatMap spoiled = cs := by
  induction cs with
  | nil => rfl
  | cons c cs ih =>
    obtain ⟨hc, hrest⟩ := List.forall_mem_cons.mp h
    rw [List.flatMap_cons, ih hrest, spoiled, if_pos hc, List.singleton_append]

/-- A text is still there in front of other characters only if none of its own are spoiled. -/
theorem inFirstPlane_of_isPrefix {cs more : List Char} (h : cs <+: cs.flatMap spoiled ++ more) :
    ∀ c ∈ cs, InFirstPlane c := by
  induction cs with
  | nil => simp
  | cons c cs ih =>
    by_cases hplane : InFirstPlane c
    · rw [List.flatMap_cons, spoiled, if_pos hplane, List.singleton_append, List.cons_append,
        List.cons_prefix_cons] at h
      exact List.forall_mem_cons.mpr ⟨hplane, ih h.2⟩
    · -- The replacement character lies in the first plane, so it is another one.
      rw [List.flatMap_cons, spoiled, if_neg hplane, List.replicate_succ, List.cons_append,
        List.cons_append, List.cons_prefix_cons] at h
      exact absurd (h.1 ▸ (by decide : InFirstPlane Utf8.replacement)) hplane

theorem eq_null_of_intact {b : UInt8} {bs : List UInt8} (hb : Utf8.IsStray b)
    (h : Intact (b :: bs)) : b = 0xC0 ∧ bs.head? = some 0x80 := by
  by_contra hnull
  have hfold : foldNull (b :: bs) = b :: foldNull bs := by
    cases bs with
    | nil => rfl
    | cons c bs => rw [foldNull, if_neg fun hbc => hnull ⟨hbc.1, congrArg some hbc.2⟩]
  obtain ⟨ps, hps⟩ := h
  rw [hfold, Utf8.points?, Utf8.scan_stray hb, List.mapM_cons] at hps
  cases hps

/-- What bytes behind an encoded text do to it. It keeps its characters if there is no broken
sequence in those bytes. Else each of its characters beyond the first plane is replaced, so that it
is still there only if it has none. Behind a byte that no sequence starts with all is well only if
that is the first of the two bytes of NUL. -/
theorem decode_encodeText_append (text : String) (bs : List UInt8) :
    decode (encodeText text) = text ∧
    (Intact bs → decode (encodeText text ++ bs) = text ++ decode bs) ∧
    (¬ Intact bs →
      decode (encodeText text ++ bs) = String.ofList (text.toList.flatMap spoiled) ++ decode bs) ∧
    (text.toList <+: (decode (encodeText text ++ bs)).toList ↔
      Intact bs ∨ ∀ c ∈ text.toList, InFirstPlane c) ∧
    ∀ b rest, bs = b :: rest → Utf8.IsStray b → Intact bs → b = 0xC0 ∧ rest.head? = some 0x80 := by
  refine ⟨?alone, fun h => decode_of_intact h text, fun h => decode_of_not_intact h text, ?kept,
    fun b rest hbs hb h => eq_null_of_intact hb (hbs ▸ h)⟩
  case alone =>
    have hnone : Intact [] := ⟨[], rfl⟩
    have hempty : decode [] = "" := by decide
    have h := decode_of_intact hnone text
    rwa [List.append_nil, hempty, String.append_empty] at h
  case kept =>
    constructor
    · intro h
      by_cases hintact : Intact bs
      · exact .inl hintact
      · rw [decode_of_not_intact hintact, String.toList_append, String.toList_ofList] at h
        exact .inr (inFirstPlane_of_isPrefix h)
    · intro h
      by_cases hintact : Intact bs
      · rw [decode_of_intact hintact, String.toList_append]
        exact List.prefix_append _ _
      · rw [decode_of_not_intact hintact, flatMap_spoiled_eq (h.resolve_left hintact),
          String.toList_append, String.toList_ofList]
        exact List.prefix_append _ _

theorem decode_encodeText_append_smile :
    Intact [0xC0, 0x80] ∧ decode (encodeText "a😀" ++ [0xC0, 0x80]) = "a😀" ++ decode [0xC0, 0x80] ∧
    ¬ Intact [0xFF] ∧
      decode (encodeText "a😀" ++ [0xFF]) = "a\uFFFD\uFFFD\uFFFD\uFFFD\uFFFD\uFFFD\uFFFD" := by
  have hnull : Intact [0xC0, 0x80] := ⟨[0], by decide⟩
  have hstray : Utf8.IsStray 0xFF := .inr (by decide)
  obtain ⟨-, -, hspoiled, -, hfirst⟩ := decode_encodeText_append "a😀" [0xFF]
  have hbroken : ¬ Intact [0xFF] := fun h => absurd (hfirst _ _ rfl hstray h).1 (by decide)
  exact ⟨hnull, (decode_encodeText_append "a😀" _).2.1 hnull, hbroken,
    (hspoiled hbroken).trans (by decide +kernel)⟩

/-- A text in front of a byte that no sequence starts with need not be kept. -/
theorem not_all_kept : ¬ ∀ (text : String) (b : UInt8) (rest : List UInt8), Utf8.IsStray b →
    (decode (encodeText text)).toList <+: (decode (encodeText text ++ b :: rest)).toList := by
  intro h
  have hkept := h "😀" 0xFF [] (.inr (by decide))
  have hlost :
      ¬ (decode (encodeText "😀")).toList <+: (decode (encodeText "😀" ++ [0xFF])).toList := by
    decide +kernel
  exact hlost hkept

end ModifiedUtf8

end ClassAtlas
