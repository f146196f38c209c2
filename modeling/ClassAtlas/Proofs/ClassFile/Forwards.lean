import ClassAtlas.ClassFile.FreeCursor
import ClassAtlas.Proofs.ClassFile.Streaming
import ClassAtlas.Proofs.Finder.Steady

/-! Within its bytes, the cursor that may go back goes forwards as the one of the decoders does, and
a step that fails leaves it where it is. -/

namespace ClassAtlas

namespace Read

variable {α : Type} {x : Read α} {size : Nat} {first second what : String} {c d : Cursor}

theorem Takes.exists_drop (h : x.Takes what size) (rest : List UInt8) (hsize : size ≤ rest.length) :
    ∃ a, ∀ offset, x ⟨offset, rest⟩ = .ok (a, ⟨offset + size, rest.drop size⟩) := by
  obtain ⟨a, ha⟩ := h.whole (rest.take size) (List.length_take_of_le hsize)
  refine ⟨a, fun offset => ?_⟩
  have hback := ha offset (rest.drop size)
  rwa [List.take_append_drop] at hback

theorem word_toNat_eq (a b : UInt8) : (word a b).toNat = a.toNat * 2 ^ 8 + b.toNat := by
  rw [word_toNat]
  simp only [valueFrom]
  omega

theorem doubleWord_toNat_eq (a b d e : UInt8) :
    (doubleWord a b d e).toNat = (word a b).toNat * 2 ^ 16 + (word d e).toNat := by
  rw [doubleWord_toNat, word_toNat, word_toNat]
  simp only [valueFrom]
  omega

theorem u16_eq_ok_iff {n : UInt16} : u16 what c = .ok (n, d) ↔ ∃ high low between,
    u8 first c = .ok (high, between) ∧ u8 second between = .ok (low, d) ∧
      n.toNat = high.toNat * 2 ^ 8 + low.toNat := by
  obtain ⟨offset, rest⟩ := c
  constructor
  · intro h
    rcases rest with _ | ⟨a, _ | ⟨b, rest⟩⟩ <;> cases h
    exact ⟨_, _, _, rfl, rfl, word_toNat_eq a b⟩
  · rintro ⟨high, low, between, hhigh, hlow, hn⟩
    rcases rest with _ | ⟨a, _ | ⟨b, rest⟩⟩ <;> cases hhigh <;> cases hlow
    have hsame : n = word high low := UInt16.toNat_inj.mp (hn.trans (word_toNat_eq high low).symm)
    rw [hsame]
    rfl

theorem u32_eq_ok_iff {n : UInt32} : u32 what c = .ok (n, d) ↔ ∃ high low between,
    u16 first c = .ok (high, between) ∧ u16 second between = .ok (low, d) ∧
      n.toNat = high.toNat * 2 ^ 16 + low.toNat := by
  obtain ⟨offset, rest⟩ := c
  constructor
  · intro h
    rcases rest with _ | ⟨a, _ | ⟨b, _ | ⟨d, _ | ⟨e, rest⟩⟩⟩⟩ <;> cases h
    exact ⟨_, _, _, rfl, rfl, doubleWord_toNat_eq a b d e⟩
  · rintro ⟨high, low, between, hhigh, hlow, hn⟩
    rcases rest with _ | ⟨a, _ | ⟨b, _ | ⟨d, _ | ⟨e, rest⟩⟩⟩⟩ <;> cases hhigh <;> cases hlow
    have hsame : n = doubleWord a b d e :=
      UInt32.toNat_inj.mp (hn.trans (doubleWord_toNat_eq a b d e).symm)
    rw [hsame]
    rfl

end Read

namespace FreeCursor

/-- The cursor lies within its bytes. -/
structure Inside (c : FreeCursor) : Prop where
  nonneg : 0 ≤ c.offset
  le_length : c.offset ≤ c.bytes.length

/-- The decoders' cursor at the same place. -/
def toCursor (c : FreeCursor) : Cursor :=
  ⟨c.offset.toNat, c.bytes.drop c.offset.toNat⟩

/-- A step goes as one of the decoders does from the same place, and stays there if that fails. -/
def Follows {α : Type} (c : FreeCursor) (x : FreeRead α) (y : Read α) : Prop :=
  match y c.toCursor with
  | .ok (a, m) => answer x c = .ok a ∧ (after x c).toCursor = m ∧ (after x c).Inside ∧
      (after x c).bytes = c.bytes
  | .error e => answer x c = .error (.layout e.fault e.offset) ∧ after x c = c

variable {α β : Type} {c d : FreeCursor} {size : Nat} {what : String}

theorem inside_ofBytes (bytes : List UInt8) : (ofBytes bytes).Inside :=
  ⟨le_rfl, Int.natCast_nonneg _⟩

theorem Inside.exists_place (h : c.Inside) :
    ∃ place : Nat, c.offset = place ∧ place ≤ c.bytes.length ∧
      c.toCursor = ⟨place, c.bytes.drop place⟩ := by
  obtain ⟨place, hplace⟩ := Int.eq_ofNat_of_zero_le h.nonneg
  have hle := h.le_length
  refine ⟨place, hplace, by omega, ?_⟩
  rw [toCursor, hplace]
  rfl

theorem index_natCast (c : FreeCursor) (place : Nat) : c.index place = place := by
  have hnonneg : ¬ (place : Int) < 0 := by omega
  rw [index, if_neg hnonneg, Int.toNat_natCast]

theorem answer_advance (c : FreeCursor) (size : Int) (what : String) :
    answer (advance size what) c =
      if c.remaining < size then
        .error (.layout (.truncated what size.toNat (size - c.remaining).toNat) c.offset)
      else .ok c.offset := by
  rw [advance, answer_get_bind]
  split <;> rfl

theorem after_advance (c : FreeCursor) (size : Int) (what : String) :
    after (advance size what) c =
      if c.remaining < size then c else { c with offset := c.offset + size } := by
  rw [advance, after_get_bind]
  split <;> rfl

/-- A read goes as one of the decoders does that takes as many bytes: it fails in the same way where
there are too few, and it gives the same where there are enough. -/
theorem follows_of_takes {f : Int → FreeRead α} {y : Read α} (hy : y.Takes what size) (h : c.Inside)
    (hf : ∀ place a rest, c.offset = (place : Nat) →
      (∀ offset, y ⟨offset, c.bytes.drop place⟩ = .ok (a, ⟨offset + size, rest⟩)) →
      answer (f place) ⟨c.bytes, place + size⟩ = .ok a ∧
        after (f place) ⟨c.bytes, place + size⟩ = ⟨c.bytes, place + size⟩) :
    c.Follows (advance size what >>= f) y := by
  obtain ⟨place, hplace, hle, hcursor⟩ := h.exists_place
  have hlength : (c.bytes.drop place).length = c.bytes.length - place := List.length_drop
  have hremaining : c.remaining = c.bytes.length - place := by rw [remaining, hplace]
  rw [Follows, hcursor]
  by_cases hshort : c.remaining < size
  · have hmissing : ((size : Int) - c.remaining).toNat = size - (c.bytes.drop place).length := by
      omega
    rw [hy.short place _ (by omega), answer_bind, after_bind, answer_advance, after_advance,
      if_pos hshort, if_pos hshort, hmissing, hplace]
    exact ⟨rfl, rfl⟩
  · obtain ⟨a, ha⟩ := hy.exists_drop (c.bytes.drop place) (by omega)
    obtain ⟨hanswer, hafter⟩ := hf place a _ hplace ha
    have hnonneg : 0 ≤ (place : Int) + size := by omega
    have hend : (place : Int) + size ≤ c.bytes.length := by omega
    rw [ha, answer_bind, after_bind, answer_advance, after_advance, if_neg hshort, if_neg hshort,
      hplace]
    dsimp only
    rw [hafter, List.drop_drop]
    exact ⟨hanswer, rfl, ⟨hnonneg, hend⟩, rfl⟩

theorem follows_number {y : Read α} (hy : y.Takes what size) (h : c.Inside) :
    c.Follows (number size what y) y := by
  refine follows_of_takes hy h fun place a rest hplace hread => ?_
  have hrun : y.run (c.bytes.drop place) = .ok a := by
    rw [Read.run, Cursor.ofBytes, hread]
  rw [answer_get_bind, after_get_bind, if_neg (by simp), index_natCast, hrun]
  exact ⟨rfl, rfl⟩

theorem follows_take (size : Nat) (what : String) (h : c.Inside) :
    c.Follows (take size what) (Read.bytes size what) := by
  refine follows_of_takes (Read.takes_bytes size what) h fun place bs rest hplace hread => ?_
  obtain ⟨front, ⟨hsize, hfront⟩, hrest, -⟩ := (Read.recognizes_bytes size what _ _ _).mp (hread 0)
  subst hfront
  have hbytes : c.bytes.drop place = front ++ rest := hrest
  have htaken : (c.bytes.drop place).take (place + size - place) = front := by
    rw [hbytes, Nat.add_sub_cancel_left, List.take_left' hsize]
  have hend : (place : Int) + size = (place + size : Nat) := rfl
  rw [answer_get_bind, after_get_bind, hend, index_natCast, index_natCast]
  refine ⟨?_, rfl⟩
  rw [← htaken]
  rfl

theorem follows_atEnd (what : String) (h : c.Inside) :
    c.Follows (atEnd what) (Read.atEnd what) := by
  obtain ⟨place, hplace, hle, hcursor⟩ := h.exists_place
  have hlength : (c.bytes.drop place).length = c.bytes.length - place := List.length_drop
  have hremaining : c.remaining = c.bytes.length - place := by rw [remaining, hplace]
  rw [Follows, hcursor, atEnd, answer_get_bind, after_get_bind]
  cases hrest : c.bytes.drop place with
  | nil =>
    rw [hrest, List.length_nil] at hlength
    rw [if_neg (by omega)]
    have hafter : after (pure () : FreeRead Unit) c = c := rfl
    rw [hafter, hcursor, hrest]
    exact ⟨rfl, rfl, h, rfl⟩
  | cons b bs =>
    have hcount : c.remaining.toNat = (b :: bs).length := by
      rw [← hrest]
      omega
    rw [hrest, List.length_cons] at hlength
    rw [if_pos (by omega), hcount, hplace]
    exact ⟨rfl, rfl⟩

theorem Follows.map {x : FreeRead α} {y : Read α} (h : c.Follows x y) (f : α → β) :
    c.Follows (do return f (← x)) (do return f (← y)) := by
  rw [Follows] at h ⊢
  cases hy : y c.toCursor with
  | ok r =>
    rw [hy] at h
    obtain ⟨hanswer, hafter, hplace⟩ := h
    rw [Read.bind_of_ok _ hy, answer_bind, after_bind, hanswer]
    exact ⟨rfl, hafter, hplace⟩
  | error e =>
    rw [hy] at h
    obtain ⟨hanswer, hafter⟩ := h
    rw [Read.bind_of_error _ hy, answer_bind, after_bind, hanswer]
    exact ⟨rfl, hafter⟩

theorem Inside.eq_of_toCursor (h : c.Inside) (h' : d.Inside) (hbytes : c.bytes = d.bytes)
    (hcursor : c.toCursor = d.toCursor) : c = d := by
  have htoNat : c.offset.toNat = d.offset.toNat := congrArg Cursor.offset hcursor
  have hc := h.nonneg
  have hd := h'.nonneg
  have hoffset : c.offset = d.offset := by omega
  cases c
  cases d
  cases hbytes
  cases hoffset
  rfl

theorem Follows.ok_iff {x : FreeRead α} {y : Read α} {a : α} (h : c.Follows x y) :
    answer x c = .ok a ∧ after x c = d ↔
      y c.toCursor = .ok (a, d.toCursor) ∧ d.Inside ∧ d.bytes = c.bytes := by
  rw [Follows] at h
  cases hy : y c.toCursor with
  | error e =>
    rw [hy] at h
    simp [h.1]
  | ok r =>
    obtain ⟨b, m⟩ := r
    rw [hy] at h
    obtain ⟨hanswer, hcursor, hinside, hbytes⟩ := h
    rw [hanswer, ← hcursor]
    constructor
    · rintro ⟨hb, rfl⟩
      obtain rfl := Except.ok.inj hb
      exact ⟨rfl, hinside, hbytes⟩
    · rintro ⟨hb, hd, hbytes'⟩
      obtain ⟨rfl, hsame⟩ := Prod.mk.inj (Except.ok.inj hb)
      exact ⟨rfl, hinside.eq_of_toCursor hd (hbytes.trans hbytes'.symm) hsame⟩

theorem Follows.error_iff {x : FreeRead α} {y : Read α} (h : c.Follows x y) :
    (∃ e, answer x c = .error e) ↔ ∃ e, y c.toCursor = .error e := by
  rw [Follows] at h
  cases hy : y c.toCursor with
  | error e =>
    rw [hy] at h
    simp [h.1]
  | ok r =>
    rw [hy] at h
    simp [h.1]

theorem Follows.after_of_error {x : FreeRead α} {y : Read α} {e : FreeError} (h : c.Follows x y)
    (hx : answer x c = .error e) : after x c = c := by
  obtain ⟨e', hy⟩ := h.error_iff.mp ⟨e, hx⟩
  rw [Follows, hy] at h
  exact h.2

theorem Inside.length_rest (h : c.Inside) : (c.toCursor.rest.length : Int) = c.remaining := by
  obtain ⟨place, hplace, hle, hcursor⟩ := h.exists_place
  rw [hcursor, remaining, hplace, List.length_drop]
  omega

/-- A read that stands for two reads of the decoders stands for two reads of the cursor as well. -/
theorem halves_iff {x : FreeRead α} {x₁ x₂ : FreeRead β} {y : Read α} {y₁ y₂ : Read β} {a : α}
    {P : β → β → Prop} (hx : ∀ c : FreeCursor, c.Inside → c.Follows x y)
    (h₁ : ∀ c : FreeCursor, c.Inside → c.Follows x₁ y₁)
    (h₂ : ∀ c : FreeCursor, c.Inside → c.Follows x₂ y₂)
    (hy : ∀ {m k}, y m = .ok (a, k) ↔ ∃ high low between,
      y₁ m = .ok (high, between) ∧ y₂ between = .ok (low, k) ∧ P high low) (h : c.Inside) :
    answer x c = .ok a ∧ after x c = d ↔ ∃ high low, answer x₁ c = .ok high ∧
      answer x₂ (after x₁ c) = .ok low ∧ after x₂ (after x₁ c) = d ∧ P high low := by
  rw [(hx c h).ok_iff, hy]
  constructor
  · rintro ⟨⟨high, low, between, hhigh, hlow, hsum⟩, hinside, hbytes⟩
    have hfirst := h₁ c h
    rw [Follows, hhigh] at hfirst
    obtain ⟨hanswer, rfl, hinside', hbytes'⟩ := hfirst
    obtain ⟨hanswer', hd⟩ := (h₂ _ hinside').ok_iff.mpr ⟨hlow, hinside, hbytes.trans hbytes'.symm⟩
    exact ⟨high, low, hanswer, hanswer', hd, hsum⟩
  · rintro ⟨high, low, hhigh, hlow, hd, hsum⟩
    obtain ⟨hhigh, hinside, hbytes⟩ := (h₁ c h).ok_iff.mp ⟨hhigh, rfl⟩
    obtain ⟨hlow, hinside', hbytes'⟩ := (h₂ _ hinside).ok_iff.mp ⟨hlow, hd⟩
    exact ⟨⟨high, low, _, hhigh, hlow, hsum⟩, hinside', hbytes'.trans hbytes⟩

theorem after_atEnd (c : FreeCursor) (what : String) : after (atEnd what) c = c := by
  rw [atEnd, after_get_bind]
  split <;> rfl

theorem exists_error_atEnd_iff (c : FreeCursor) (what : String) :
    (∃ e, answer (atEnd what) c = .error e) ↔ c.remaining ≠ 0 := by
  rw [atEnd, answer_get_bind]
  by_cases hrest : c.remaining ≠ 0
  · exact iff_of_true ⟨_, by rw [if_pos hrest]; rfl⟩ hrest
  · refine iff_of_false ?_ hrest
    rintro ⟨e, he⟩
    rw [if_neg hrest] at he
    cases he

end FreeCursor

end ClassAtlas
