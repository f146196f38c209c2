import ClassAtlas.Text.Utf8
import Mathlib.Tactic

/-! Code points, surrogates among them, as sequences of one to four bytes, and that such sequences
are read back. -/

namespace ClassAtlas.Utf8

/-- The lowest six bits of a number as a byte that goes on with a sequence. -/
def tail (n : Nat) : UInt8 :=
  UInt8.ofNat (n % 64 + 0x80)

/-- The shortest sequence that has room for the bits of a code point. -/
def form (p : Nat) : List UInt8 :=
  if p < 0x80 then [UInt8.ofNat p]
  else if p < 0x800 then [UInt8.ofNat (p / 64 + 0xC0), tail p]
  else if p < 0x10000 then [UInt8.ofNat (p / 4096 + 0xE0), tail (p / 64), tail p]
  else [UInt8.ofNat (p / 262144 + 0xF0), tail (p / 4096), tail (p / 64), tail p]

variable {surrogates : Bool} {p q : Nat}

/-- A code point that sixteen-bit units use for halves of characters. -/
def IsSurrogate (p : Nat) : Prop :=
  0xD800 ≤ p ∧ p < 0xE000

theorem toNat_ofNat {n : Nat} (h : n < 256) : (UInt8.ofNat n).toNat = n :=
  UInt8.toNat_ofNat_of_lt' h

theorem toNat_tail (n : Nat) : (tail n).toNat = n % 64 + 0x80 :=
  toNat_ofNat (by omega)

theorem lead_one (h : p < 0x80) : lead surrogates (UInt8.ofNat p) = .single p := by
  have hb : (UInt8.ofNat p).toNat = p := toNat_ofNat (by omega)
  simp only [lead, UInt8.lt_iff_toNat_lt, hb, UInt8.reduceToNat]
  rw [if_pos h]

theorem lead_two (hlow : 2 ≤ q) (hhigh : q < 32) :
    lead surrogates (UInt8.ofNat (q + 0xC0)) = .opens ⟨q, 1, 0x80, 0xBF⟩ := by
  have hb : (UInt8.ofNat (q + 0xC0)).toNat = q + 0xC0 := toNat_ofNat (by omega)
  simp only [lead, UInt8.lt_iff_toNat_lt, hb, UInt8.reduceToNat, Nat.add_sub_cancel]
  rw [if_neg (by omega), if_neg (by omega), if_pos (by omega)]

theorem lead_three (hq : q < 16) : lead surrogates (UInt8.ofNat (q + 0xE0)) =
    .opens ⟨q, 2, if q = 0 then 0xA0 else 0x80,
      if q = 13 ∧ surrogates = false then 0x9F else 0xBF⟩ := by
  interval_cases q <;> cases surrogates <;> rfl

theorem lead_four (hq : q < 5) : lead surrogates (UInt8.ofNat (q + 0xF0)) =
    .opens ⟨q, 3, if q = 0 then 0x90 else 0x80, if q = 4 then 0x8F else 0xBF⟩ := by
  interval_cases q <;> cases surrogates <;> rfl

theorem scan_lead {b : UInt8} {pending : Pending} (h : lead surrogates b = .opens pending)
    (bs : List UInt8) : scan surrogates none (b :: bs) = scan surrogates (some pending) bs := by
  rw [scan, enter, h]

theorem scan_tail {low high : UInt8} {n : Nat} (hlow : low.toNat ≤ n % 64 + 0x80)
    (hhigh : n % 64 + 0x80 ≤ high.toNat) (value owed : Nat) (bs : List UInt8) :
    scan surrogates (some ⟨value, owed, low, high⟩) (tail n :: bs) =
      if owed = 1 then some (value * 64 + n % 64) :: scan surrogates none bs
      else scan surrogates (some ⟨value * 64 + n % 64, owed - 1, 0x80, 0xBF⟩) bs := by
  have hbounds : (low ≤ tail n && tail n ≤ high) = true := by
    simp only [Bool.and_eq_true, decide_eq_true_eq, UInt8.le_iff_toNat_le, toNat_tail]
    exact ⟨hlow, hhigh⟩
  rw [scan, if_pos hbounds, toNat_tail, Nat.add_sub_cancel]

theorem tail_le (n : Nat) : n % 64 + 0x80 ≤ (0xBF : UInt8).toNat := by
  show n % 64 + 0x80 ≤ 0xBF
  omega

/-- Behind the first two bytes of a sequence any that goes on will do. -/
theorem scan_next (value owed n : Nat) (bs : List UInt8) :
    scan surrogates (some ⟨value, owed, 0x80, 0xBF⟩) (tail n :: bs) =
      if owed = 1 then some (value * 64 + n % 64) :: scan surrogates none bs
      else scan surrogates (some ⟨value * 64 + n % 64, owed - 1, 0x80, 0xBF⟩) bs :=
  scan_tail (Nat.le_add_left _ _) (tail_le n) value owed bs

theorem scan_form (hp : p < 0x110000) (hs : surrogates = true ∨ ¬ IsSurrogate p)
    (bs : List UInt8) :
    scan surrogates none (form p ++ bs) = some p :: scan surrogates none bs := by
  unfold form
  split_ifs with h1 h2 h3
  · rw [List.singleton_append, scan, enter, lead_one h1]
  · have hvalue : p / 64 * 64 + p % 64 = p := Nat.div_add_mod' p 64
    simp only [List.cons_append, List.nil_append]
    rw [scan_lead (lead_two (by omega) (by omega)), scan_next, if_pos rfl, hvalue]
  · have hvalue : (p / 4096 * 64 + p / 64 % 64) * 64 + p % 64 = p := by omega
    simp only [List.cons_append, List.nil_append]
    rw [scan_lead (lead_three (by omega))]
    -- The byte behind E0 is large enough, since a shorter sequence would do otherwise.
    have hlow : (if p / 4096 = 0 then (0xA0 : UInt8) else 0x80).toNat ≤ p / 64 % 64 + 0x80 := by
      split_ifs
      · show 0xA0 ≤ p / 64 % 64 + 0x80
        omega
      · exact Nat.le_add_left _ _
    -- The byte behind ED is small enough, since the code point would be a surrogate otherwise.
    have hhigh : p / 64 % 64 + 0x80 ≤
        (if p / 4096 = 13 ∧ surrogates = false then (0x9F : UInt8) else 0xBF).toNat := by
      split_ifs with hsurrogate
      · show p / 64 % 64 + 0x80 ≤ 0x9F
        have hplain : ¬ IsSurrogate p := hs.resolve_left (by simp [hsurrogate.2])
        unfold IsSurrogate at hplain
        omega
      · exact tail_le _
    rw [scan_tail hlow hhigh, if_neg (by simp), scan_next, if_pos (by simp), hvalue]
  · have hvalue : ((p / 262144 * 64 + p / 4096 % 64) * 64 + p / 64 % 64) * 64 + p % 64 = p := by
      omega
    simp only [List.cons_append, List.nil_append]
    rw [scan_lead (lead_four (by omega))]
    -- Likewise behind F0, and behind F4 it is small enough for the last code point.
    have hlow : (if p / 262144 = 0 then (0x90 : UInt8) else 0x80).toNat ≤
        p / 4096 % 64 + 0x80 := by
      split_ifs
      · show 0x90 ≤ p / 4096 % 64 + 0x80
        omega
      · exact Nat.le_add_left _ _
    have hhigh : p / 4096 % 64 + 0x80 ≤
        (if p / 262144 = 4 then (0x8F : UInt8) else 0xBF).toNat := by
      split_ifs
      · show p / 4096 % 64 + 0x80 ≤ 0x8F
        omega
      · exact tail_le _
    rw [scan_tail hlow hhigh, if_neg (by simp), scan_next, if_neg (by simp), scan_next,
      if_pos (by simp), hvalue]

theorem scan_forms_append {ps : List Nat} (h : ∀ p ∈ ps, p < 0x110000) (bs : List UInt8) :
    scan true none (ps.flatMap form ++ bs) = ps.map some ++ scan true none bs := by
  induction ps with
  | nil => rfl
  | cons p ps ih =>
    obtain ⟨hp, hrest⟩ := List.forall_mem_cons.mp h
    rw [List.flatMap_cons, List.append_assoc, scan_form hp (.inl rfl), ih hrest, List.map_cons,
      List.cons_append]

theorem mapM_some_append (ps : List Nat) (found : List (Option Nat)) :
    (ps.map some ++ found).mapM id = (found.mapM id).map (ps ++ ·) := by
  induction ps with
  | nil => simp
  | cons p ps ih =>
    rw [List.map_cons, List.cons_append, List.mapM_cons, ih]
    cases found.mapM id <;> rfl

theorem points?_forms_append {ps : List Nat} (h : ∀ p ∈ ps, p < 0x110000) (bs : List UInt8) :
    points? true (ps.flatMap form ++ bs) = (points? true bs).map (ps ++ ·) := by
  rw [points?, scan_forms_append h, mapM_some_append, points?]

theorem points?_forms {ps : List Nat} (h : ∀ p ∈ ps, p < 0x110000) :
    points? true (ps.flatMap form) = some ps := by
  have hall := points?_forms_append h []
  rw [List.append_nil] at hall
  rw [hall]
  exact congrArg some (List.append_nil ps)

theorem toNat_lt (c : Char) : c.toNat < 0x110000 := by
  rcases c.valid with h | h
  · exact h.trans (by omega)
  · exact h.2

theorem utf8EncodeChar_eq (c : Char) : String.utf8EncodeChar c = form c.toNat := by
  have hlt : c.toNat < 0x110000 := toNat_lt c
  have hval : c.val.toNat = c.toNat := rfl
  simp only [String.utf8EncodeChar, form, tail, hval]
  by_cases h1 : c.toNat < 0x80
  · rw [if_pos (by omega), if_pos h1]
  · rw [if_neg (by omega), if_neg h1]
    by_cases h2 : c.toNat < 0x800
    · rw [if_pos (by omega), if_pos h2, Nat.mod_eq_of_lt (by omega : c.toNat / 64 < 0x20)]
    · rw [if_neg (by omega), if_neg h2]
      by_cases h3 : c.toNat < 0x10000
      · rw [if_pos (by omega), if_pos h3, Nat.mod_eq_of_lt (by omega : c.toNat / 4096 < 0x10)]
      · rw [if_neg (by omega), if_neg h3,
          Nat.mod_eq_of_lt (by omega : c.toNat / 262144 < 0x08)]

/-- The bytes of a text are the sequences of its characters. -/
theorem bytes_of_fromUTF8? {bytes : List UInt8} {text : String}
    (h : String.fromUTF8? ⟨bytes.toArray⟩ = some text) :
    bytes = (text.toList.map Char.toNat).flatMap form := by
  unfold String.fromUTF8? at h
  split_ifs at h with hvalid
  have htext : text.toByteArray = ⟨bytes.toArray⟩ := by
    rw [← Option.some.inj h]
    rfl
  have hencode : text.toByteArray = text.toList.utf8Encode := by
    rw [← String.toByteArray_ofList, String.ofList_toList]
  have hlist : bytes = text.toList.flatMap String.utf8EncodeChar := by
    have hdata := congrArg (fun b => b.data.toList) (htext.symm.trans hencode)
    simpa [List.utf8Encode] using hdata
  rw [hlist, List.flatMap_map]
  exact List.flatMap_congr fun c _ => utf8EncodeChar_eq c

end ClassAtlas.Utf8
