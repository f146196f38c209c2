import ClassAtlas.ClassFile.Cursor
import Mathlib.Tactic

/-! Numbers as bytes, the highest byte first, and the words that are put together from bytes. -/

namespace ClassAtlas

/-- The lowest `size` bytes of a number, the highest first. -/
def bigEndian : (size : Nat) → (n : Nat) → List UInt8
  | 0, _ => []
  | size + 1, n => UInt8.ofNat (n / 256 ^ size) :: bigEndian size n

/-- The number some bytes stand for, the highest first; `high` stands for the bytes before them. -/
def valueFrom (high : Nat) : List UInt8 → Nat
  | [] => high
  | b :: bs => valueFrom (high * 256 + b.toNat) bs

@[simp] theorem bigEndian_length (size n : Nat) : (bigEndian size n).length = size := by
  induction size with
  | zero => rfl
  | succ size ih => simp [bigEndian, ih]

theorem valueFrom_eq (bs : List UInt8) (high : Nat) :
    valueFrom high bs = high * 256 ^ bs.length + valueFrom 0 bs := by
  induction bs generalizing high with
  | nil => simp [valueFrom]
  | cons b bs ih =>
    rw [valueFrom, ih, valueFrom, ih (0 * 256 + b.toNat), List.length_cons]
    ring

theorem valueFrom_lt (bs : List UInt8) : valueFrom 0 bs < 256 ^ bs.length := by
  induction bs with
  | nil => simp [valueFrom]
  | cons b bs ih =>
    have hb : b.toNat + 1 ≤ 256 := b.toNat_lt
    have hm : (b.toNat + 1) * 256 ^ bs.length ≤ 256 * 256 ^ bs.length :=
      Nat.mul_le_mul_right _ hb
    rw [Nat.add_mul] at hm
    rw [valueFrom, valueFrom_eq, List.length_cons, pow_succ', Nat.zero_mul, Nat.zero_add]
    omega

theorem bigEndian_add_mul (size high n : Nat) :
    bigEndian size (high * 256 ^ size + n) = bigEndian size n := by
  induction size generalizing high with
  | zero => rfl
  | succ size ih =>
    have hp : 0 < 256 ^ size := Nat.pow_pos (by omega)
    have he : high * 256 ^ (size + 1) + n = n + 256 ^ size * (high * 256) := by ring
    have ht : high * 256 ^ (size + 1) + n = high * 256 * 256 ^ size + n := by ring
    rw [bigEndian, bigEndian, he, Nat.add_mul_div_left _ _ hp, ← he, ht, ih]
    congr 1
    apply UInt8.toNat_inj.mp
    simp

theorem bigEndian_valueFrom (bs : List UInt8) : bigEndian bs.length (valueFrom 0 bs) = bs := by
  induction bs with
  | nil => rfl
  | cons b bs ih =>
    have hp : 0 < 256 ^ bs.length := Nat.pow_pos (by omega)
    have hd : (b.toNat * 256 ^ bs.length + valueFrom 0 bs) / 256 ^ bs.length = b.toNat := by
      rw [Nat.mul_comm, Nat.mul_add_div hp, Nat.div_eq_of_lt (valueFrom_lt bs), Nat.add_zero]
    rw [valueFrom, valueFrom_eq, Nat.zero_mul, Nat.zero_add, List.length_cons, bigEndian, hd,
      bigEndian_add_mul, ih, UInt8.ofNat_toNat]

theorem valueFrom_bigEndian (size high n : Nat) (h : n < 256 ^ size) :
    valueFrom high (bigEndian size n) = high * 256 ^ size + n := by
  induction size generalizing high n with
  | zero => simp [bigEndian, valueFrom] at h ⊢; omega
  | succ size ih =>
    have hp : 0 < 256 ^ size := Nat.pow_pos (by omega)
    have hq : n / 256 ^ size < 256 := by
      rw [Nat.div_lt_iff_lt_mul hp, ← pow_succ']
      exact h
    have hn : n / 256 ^ size * 256 ^ size + n % 256 ^ size = n := Nat.div_add_mod' n _
    have he : bigEndian size n = bigEndian size (n % 256 ^ size) := by
      conv_lhs => rw [← hn]
      exact bigEndian_add_mul size _ _
    rw [bigEndian, valueFrom, he, ih _ _ (Nat.mod_lt _ hp), UInt8.toNat_ofNat_of_lt' hq,
      Nat.add_mul, pow_succ']
    nlinarith [hn]

theorem eq_bigEndian_iff (size : Nat) {n : Nat} (h : n < 256 ^ size) (bs : List UInt8) :
    bs = bigEndian size n ↔ bs.length = size ∧ valueFrom 0 bs = n := by
  constructor
  · rintro rfl
    exact ⟨bigEndian_length size n, by simpa using valueFrom_bigEndian size 0 n h⟩
  · rintro ⟨rfl, rfl⟩
    exact (bigEndian_valueFrom bs).symm

namespace Read

theorem word_toNat (a b : UInt8) : (word a b).toNat = valueFrom 0 [a, b] := by
  have hb : b.toNat < 2 ^ 8 := b.toNat_lt
  have ha : a.toNat < 2 ^ 8 := a.toNat_lt
  have hs : a.toNat <<< 8 < 2 ^ 16 := by rw [Nat.shiftLeft_eq]; omega
  simp only [word, UInt16.toNat_or, UInt16.toNat_shiftLeft, UInt8.toNat_toUInt16,
    UInt16.toNat_ofNat, valueFrom]
  rw [show 8 % 2 ^ 16 % 16 = 8 from rfl, Nat.mod_eq_of_lt hs, ← Nat.shiftLeft_add_eq_or_of_lt hb,
    Nat.shiftLeft_eq]
  omega

theorem doubleWord_toNat (a b c d : UInt8) :
    (doubleWord a b c d).toNat = valueFrom 0 [a, b, c, d] := by
  have hl : (word c d).toNat < 2 ^ 16 := (word c d).toNat_lt
  have hh : (word a b).toNat < 2 ^ 16 := (word a b).toNat_lt
  have hs : (word a b).toNat <<< 16 < 2 ^ 32 := by rw [Nat.shiftLeft_eq]; omega
  simp only [doubleWord, UInt32.toNat_or, UInt32.toNat_shiftLeft, UInt16.toNat_toUInt32,
    UInt32.toNat_ofNat]
  rw [show 16 % 2 ^ 32 % 32 = 16 from rfl, Nat.mod_eq_of_lt hs,
    ← Nat.shiftLeft_add_eq_or_of_lt hl, Nat.shiftLeft_eq, word_toNat, word_toNat]
  simp only [valueFrom]
  omega

theorem quadWord_toNat (a b c d e f g h : UInt8) :
    ((doubleWord a b c d).toUInt64 <<< 32 ||| (doubleWord e f g h).toUInt64).toNat =
      valueFrom 0 [a, b, c, d, e, f, g, h] := by
  have hl : (doubleWord e f g h).toNat < 2 ^ 32 := (doubleWord e f g h).toNat_lt
  have hh : (doubleWord a b c d).toNat < 2 ^ 32 := (doubleWord a b c d).toNat_lt
  have hs : (doubleWord a b c d).toNat <<< 32 < 2 ^ 64 := by rw [Nat.shiftLeft_eq]; omega
  simp only [UInt64.toNat_or, UInt64.toNat_shiftLeft, UInt32.toNat_toUInt64, UInt64.toNat_ofNat]
  rw [show 32 % 2 ^ 64 % 64 = 32 from rfl, Nat.mod_eq_of_lt hs,
    ← Nat.shiftLeft_add_eq_or_of_lt hl, Nat.shiftLeft_eq, doubleWord_toNat, doubleWord_toNat]
  simp only [valueFrom]
  omega

end Read

end ClassAtlas
