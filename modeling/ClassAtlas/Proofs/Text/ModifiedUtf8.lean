import ClassAtlas.Proofs.Text.Utf8
import ClassAtlas.Text.ModifiedUtf8

/-! Modified UTF-8 decoded: it gives back the units it was made from, with their surrogates paired,
and standard UTF-8 is decoded as such. -/

namespace ClassAtlas

namespace Utf16

/-- The text that 16-bit units stand for. A high surrogate and the low one behind it are one
character; every other surrogate is replaced. -/
inductive Spells : List UInt16 → List Char → Prop
  | nil : Spells [] []
  | pair {high low : UInt16} {us : List UInt16} {c : Char} {cs : List Char}
    (hhigh : isHigh high = true) (hlow : isLow low = true)
    (hc : c.toNat = 0x10000 + (high.toNat - 0xD800) * 0x400 + (low.toNat - 0xDC00))
    (h : Spells us cs) : Spells (high :: low :: us) (c :: cs)
  | plain {u : UInt16} {us : List UInt16} {c : Char} {cs : List Char} (hhigh : isHigh u = false)
    (hlow : isLow u = false) (hc : c.toNat = u.toNat) (h : Spells us cs) :
      Spells (u :: us) (c :: cs)
  | lone {u : UInt16} {us : List UInt16} {cs : List Char}
    (hlone : isLow u = true ∨ isHigh u = true ∧ ∀ v, us.head? = some v → isLow v = false)
    (h : Spells us cs) : Spells (u :: us) (Char.ofNat 0xFFFD :: cs)

variable {u v : UInt16} {us : List UInt16} {cs : List Char}

theorem isHigh_iff : isHigh u = true ↔ 0xD800 ≤ u.toNat ∧ u.toNat < 0xDC00 := by
  simp only [isHigh, Bool.and_eq_true, decide_eq_true_eq, UInt16.le_iff_toNat_le,
    UInt16.lt_iff_toNat_lt, UInt16.reduceToNat]

theorem isLow_iff : isLow u = true ↔ 0xDC00 ≤ u.toNat ∧ u.toNat < 0xE000 := by
  simp only [isLow, Bool.and_eq_true, decide_eq_true_eq, UInt16.le_iff_toNat_le,
    UInt16.lt_iff_toNat_lt, UInt16.reduceToNat]

theorem toNat_charOfNat {n : Nat} (h : n.isValidChar) : (Char.ofNat n).toNat = n := by
  rw [Char.ofNat, dif_pos h]
  rfl

theorem spells_single (hnext : isHigh u = true → ∀ v, us.head? = some v → isLow v = false)
    (h : Spells us cs) : Spells (u :: us) (single u :: cs) := by
  by_cases hlow : isLow u = true
  · rw [single, if_pos (by simp [hlow])]
    exact .lone (.inl hlow) h
  · by_cases hhigh : isHigh u = true
    · rw [single, if_pos (by simp [hhigh])]
      exact .lone (.inr ⟨hhigh, hnext hhigh⟩) h
    · have hvalid : u.toNat.isValidChar := by
        have hlt : u.toNat < 2 ^ 16 := u.toNat_lt
        rw [isHigh_iff] at hhigh
        rw [isLow_iff] at hlow
        unfold Nat.isValidChar
        omega
      rw [single, if_neg (by simp [hlow, hhigh])]
      exact .plain (by simpa using hhigh) (by simpa using hlow) (toNat_charOfNat hvalid) h

theorem spells_decode (us : List UInt16) : Spells us (decode us) := by
  induction us using decode.induct with
  | case1 => exact .nil
  | case2 u => exact spells_single (by simp) .nil
  | case3 u v us hpair ih =>
    obtain ⟨hhigh, hlow⟩ := Bool.and_eq_true_iff.mp hpair
    have hu := isHigh_iff.mp hhigh
    have hv := isLow_iff.mp hlow
    rw [decode, if_pos hpair]
    refine .pair hhigh hlow (toNat_charOfNat ?_) ih
    unfold Nat.isValidChar
    omega
  | case4 u v us hpair ih =>
    rw [decode, if_neg hpair]
    refine spells_single (fun hhigh w hw => ?_) ih
    obtain rfl : v = w := Option.some.inj hw
    simpa [hhigh] using hpair

theorem decode_cons_of_not_isHigh (h : isHigh u = false) :
    decode (u :: us) = single u :: decode us := by
  cases us with
  | nil => rfl
  | cons v us => rw [decode, h, Bool.false_and, if_neg Bool.false_ne_true]

theorem decode_pair (hu : isHigh u = true) (hv : isLow v = true) :
    decode (u :: v :: us) = pair u v :: decode us := by
  rw [decode, if_pos (by rw [hu, hv]; rfl)]

theorem decode_cons_of_not_isLow (h : ∀ v, us.head? = some v → isLow v = false) :
    decode (u :: us) = single u :: decode us := by
  cases us with
  | nil => rfl
  | cons v us =>
    have hv : isLow v = false := h v rfl
    rw [decode, hv, Bool.and_false, if_neg Bool.false_ne_true]

/-- Units stand for one text only. -/
theorem spells_iff : Spells us cs ↔ decode us = cs := by
  constructor
  · intro h
    induction h with
    | nil => rfl
    | pair hhigh hlow hc _ ih => rw [decode_pair hhigh hlow, ih, pair, ← hc, Char.ofNat_toNat]
    | plain hhigh hlow hc _ ih =>
      rw [decode_cons_of_not_isHigh hhigh, ih, single, hhigh, hlow, ← hc, Char.ofNat_toNat]
      rfl
    | @lone u us cs hlone _ ih =>
      have hsingle : single u = Char.ofNat 0xFFFD := by
        rw [single, if_pos]
        rcases hlone with hlow | ⟨hhigh, -⟩
        · rw [hlow, Bool.or_true]
        · rw [hhigh, Bool.true_or]
      have hcons : decode (u :: us) = single u :: decode us := by
        rcases hlone with hlow | ⟨-, hnext⟩
        · have hhigh : isHigh u = false := by
            rw [isLow_iff] at hlow
            rw [Bool.eq_false_iff, Ne, isHigh_iff]
            omega
          exact decode_cons_of_not_isHigh hhigh
        · exact decode_cons_of_not_isLow hnext
      rw [hcons, hsingle, ih]
  · rintro rfl
    exact spells_decode us

theorem decode_ofPoint_append (c : Char) (us : List UInt16) :
    decode (ofPoint c.toNat ++ us) = c :: decode us := by
  have hvalid : c.toNat < 0xD800 ∨ 0xDFFF < c.toNat ∧ c.toNat < 0x110000 := c.valid
  unfold ofPoint
  split_ifs with hplane
  · have hunit : (UInt16.ofNat c.toNat).toNat = c.toNat := UInt16.toNat_ofNat_of_lt' hplane
    have hhigh : isHigh (UInt16.ofNat c.toNat) = false := by
      rw [Bool.eq_false_iff, Ne, isHigh_iff, hunit]
      omega
    have hlow : isLow (UInt16.ofNat c.toNat) = false := by
      rw [Bool.eq_false_iff, Ne, isLow_iff, hunit]
      omega
    rw [List.singleton_append, decode_cons_of_not_isHigh hhigh, single, hhigh, hlow, hunit,
      Char.ofNat_toNat]
    rfl
  · have hhigh : (UInt16.ofNat (0xD800 + (c.toNat - 0x10000) / 0x400)).toNat =
        0xD800 + (c.toNat - 0x10000) / 0x400 :=
      UInt16.toNat_ofNat_of_lt' (show _ < 2 ^ 16 by omega)
    have hlow : (UInt16.ofNat (0xDC00 + (c.toNat - 0x10000) % 0x400)).toNat =
        0xDC00 + (c.toNat - 0x10000) % 0x400 :=
      UInt16.toNat_ofNat_of_lt' (show _ < 2 ^ 16 by omega)
    have hpoint : 0x10000 + (0xD800 + (c.toNat - 0x10000) / 0x400 - 0xD800) * 0x400 +
        (0xDC00 + (c.toNat - 0x10000) % 0x400 - 0xDC00) = c.toNat := by
      omega
    rw [List.cons_append, List.singleton_append, decode_pair (isHigh_iff.mpr (by omega))
      (isLow_iff.mpr (by omega)), pair, hhigh, hlow, hpoint, Char.ofNat_toNat]

theorem decode_points (cs : List Char) : decode ((cs.map Char.toNat).flatMap ofPoint) = cs := by
  induction cs with
  | nil => rfl
  | cons c cs ih => rw [List.map_cons, List.flatMap_cons, decode_ofPoint_append, ih]

theorem flatMap_ofPoint_units (us : List UInt16) : (us.map UInt16.toNat).flatMap ofPoint = us := by
  induction us with
  | nil => rfl
  | cons u us ih =>
    have hunit : ofPoint u.toNat = [u] := by
      rw [ofPoint, if_pos u.toNat_lt, UInt16.ofNat_toNat]
    rw [List.map_cons, List.flatMap_cons, ih, hunit, List.singleton_append]

end Utf16

namespace ModifiedUtf8

/-- A unit in a class file; each surrogate has a sequence of its own. -/
def ofUnit (u : UInt16) : List UInt8 :=
  if u = 0 then [0xC0, 0x80] else Utf8.form u.toNat

def encode (us : List UInt16) : List UInt8 :=
  us.flatMap ofUnit

theorem foldNull_cons_of_ne {b : UInt8} (h : b ≠ 0xC0) (bs : List UInt8) :
    foldNull (b :: bs) = b :: foldNull bs := by
  cases bs with
  | nil => rfl
  | cons c bs => rw [foldNull, if_neg fun hbc => h hbc.1]

theorem foldNull_append {front : List UInt8} (h : 0xC0 ∉ front) (bs : List UInt8) :
    foldNull (front ++ bs) = front ++ foldNull bs := by
  induction front with
  | nil => rfl
  | cons b front ih =>
    have hb : b ≠ 0xC0 := fun hb => h (hb ▸ List.mem_cons_self)
    rw [List.cons_append, foldNull_cons_of_ne hb, ih fun hmem => h (List.mem_cons_of_mem _ hmem),
      List.cons_append]

theorem not_mem_form {p : Nat} (hp : p < 0x110000) : 0xC0 ∉ Utf8.form p := by
  have hbyte : ∀ n, n < 256 → n ≠ 0xC0 → (0xC0 : UInt8) ≠ UInt8.ofNat n := by
    intro n hn hne he
    have hnat : (0xC0 : UInt8).toNat = n := he ▸ Utf8.toNat_ofNat hn
    exact hne hnat.symm
  have htail : ∀ n, (0xC0 : UInt8) ≠ Utf8.tail n := fun n => hbyte _ (by omega) (by omega)
  have htails : ∀ ns : List Nat, 0xC0 ∉ ns.map Utf8.tail := by
    intro ns hmem
    obtain ⟨n, -, hn⟩ := List.mem_map.mp hmem
    exact htail n hn.symm
  unfold Utf8.form
  split_ifs
  · exact List.not_mem_cons_of_ne_of_not_mem (hbyte p (by omega) (by omega)) (htails [])
  · exact List.not_mem_cons_of_ne_of_not_mem (hbyte _ (by omega) (by omega)) (htails [p])
  · exact List.not_mem_cons_of_ne_of_not_mem (hbyte _ (by omega) (by omega)) (htails [p / 64, p])
  · exact List.not_mem_cons_of_ne_of_not_mem (hbyte _ (by omega) (by omega))
      (htails [p / 4096, p / 64, p])

theorem foldNull_forms {ps : List Nat} (h : ∀ p ∈ ps, p < 0x110000) :
    foldNull (ps.flatMap Utf8.form) = ps.flatMap Utf8.form := by
  induction ps with
  | nil => rfl
  | cons p ps ih =>
    have hp : p < 0x110000 := h p List.mem_cons_self
    have hrest : ∀ q ∈ ps, q < 0x110000 := fun q hq => h q (List.mem_cons_of_mem _ hq)
    rw [List.flatMap_cons, foldNull_append (not_mem_form hp), ih hrest]

theorem unit_lt (u : UInt16) : u.toNat < 0x110000 := by
  have hu : u.toNat < 2 ^ 16 := u.toNat_lt
  omega

theorem foldNull_encode_append (us : List UInt16) (bs : List UInt8) :
    foldNull (encode us ++ bs) = (us.map UInt16.toNat).flatMap Utf8.form ++ foldNull bs := by
  induction us with
  | nil => rfl
  | cons u us ih =>
    have hu : u.toNat < 0x110000 := unit_lt u
    rw [encode, List.flatMap_cons, ← encode, List.map_cons, List.flatMap_cons, List.append_assoc,
      List.append_assoc, ← ih, ofUnit]
    split_ifs with hzero
    · subst hzero
      rfl
    · exact foldNull_append (not_mem_form hu) _

theorem foldNull_encode (us : List UInt16) :
    foldNull (encode us) = (us.map UInt16.toNat).flatMap Utf8.form := by
  simpa [foldNull] using foldNull_encode_append us []

theorem decode_of_points {bytes : List UInt8} {ps : List Nat} (h : ∀ p ∈ ps, p < 0x110000)
    (hbytes : foldNull bytes = ps.flatMap Utf8.form) :
    decode bytes = String.ofList (Utf16.decode (ps.flatMap Utf16.ofPoint)) := by
  simp only [decode, hbytes, Utf8.points?_forms h]

/-- Units that were encoded for a class file are decoded to the text they stand for, and standard
UTF-8 is decoded to its text. -/
theorem decode_encode_and_utf8 :
    (∀ (us : List UInt16) (cs : List Char),
      decode (encode us) = String.ofList cs ↔ Utf16.Spells us cs) ∧
    ∀ (bytes : List UInt8) (text : String),
      String.fromUTF8? ⟨bytes.toArray⟩ = some text → decode bytes = text := by
  constructor
  · intro us cs
    have hpoints : ∀ p ∈ us.map UInt16.toNat, p < 0x110000 :=
      List.forall_mem_map.mpr fun u _ => unit_lt u
    rw [decode_of_points hpoints (foldNull_encode us), Utf16.flatMap_ofPoint_units,
      String.ofList_inj, Utf16.spells_iff]
  · intro bytes text htext
    have hpoints : ∀ p ∈ text.toList.map Char.toNat, p < 0x110000 :=
      List.forall_mem_map.mpr fun c _ => Utf8.toNat_lt c
    have hfold : foldNull bytes = (text.toList.map Char.toNat).flatMap Utf8.form := by
      rw [Utf8.bytes_of_fromUTF8? htext]
      exact foldNull_forms hpoints
    rw [decode_of_points hpoints hfold, Utf16.decode_points, String.ofList_toList]

theorem decode_encode_and_utf8_smile :
    String.fromUTF8? ⟨#[0x41, 0xF0, 0x9F, 0x98, 0x80]⟩ = some "A😀" ∧
    decode [0x41, 0xF0, 0x9F, 0x98, 0x80] = "A😀" := by
  have htext : String.fromUTF8? ⟨#[0x41, 0xF0, 0x9F, 0x98, 0x80]⟩ = some "A😀" := by
    decide +kernel
  exact ⟨htext, decode_encode_and_utf8.2 _ _ htext⟩

/-- A leading mark of byte order, a pair, its halves the other way round, and NUL. -/
example : decode (encode [0xFEFF, 0xD83D, 0xDE00, 0xDE00, 0xD83D, 0]) =
    "\uFEFF😀\uFFFD\uFFFD\x00" := by
  decide +kernel

end ModifiedUtf8

end ClassAtlas
