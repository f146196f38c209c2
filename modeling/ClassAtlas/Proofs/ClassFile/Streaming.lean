import ClassAtlas.Proofs.ClassFile.Recognition

/-! How a read depends on the bytes behind those it takes: not at all, unless it runs out of bytes.
Then its fault says how many bytes there were. -/

namespace ClassAtlas

namespace Cursor

/-- The offset behind the last byte. -/
def limit (c : Cursor) : Nat :=
  c.offset + c.rest.length

def extend (c : Cursor) (more : List UInt8) : Cursor :=
  ⟨c.offset, c.rest ++ more⟩

@[simp] theorem extend_nil (c : Cursor) : c.extend [] = c := by
  rw [extend, List.append_nil]

end Cursor

/-- A read from the error's offset on found fewer bytes than it needed, and none behind `limit`. -/
def LayoutError.RunsOut (e : LayoutError) (limit : Nat) : Prop :=
  ∃ what needed missing, e.fault = .truncated what needed missing ∧ 0 < missing ∧ missing ≤ needed ∧
    e.offset + (needed - missing) = limit

namespace Read

variable {α β : Type} {start size : Nat} {what : String} {x : Read α} {c d : Cursor} {a : α}
  {e : LayoutError}

/-- Steps from `start` on that meet the end of the bytes only by running out of them. -/
structure Streams (start : Nat) (x : Read α) : Prop where
  result {c d : Cursor} {a : α} (hc : start ≤ c.offset) (h : x c = .ok (a, d)) :
    c.offset ≤ d.offset ∧ d.limit = c.limit ∧ ∀ more, x (c.extend more) = .ok (a, d.extend more)
  failure {c : Cursor} {e : LayoutError} (hc : start ≤ c.offset) (h : x c = .error e) :
    e.offset ≤ c.limit ∧ (e.RunsOut c.limit ∨ ∀ more, x (c.extend more) = .error e)

/-- A step that takes a fixed number of bytes, whatever they are. -/
structure Takes (x : Read α) (what : String) (size : Nat) : Prop where
  whole (front : List UInt8) (h : front.length = size) :
    ∃ a, ∀ offset back, x ⟨offset, front ++ back⟩ = .ok (a, ⟨offset + size, back⟩)
  short (offset : Nat) (rest : List UInt8) (h : rest.length < size) :
    x ⟨offset, rest⟩ = .error ⟨.truncated what size (size - rest.length), offset⟩

theorem bind_of_ok (f : α → Read β) (h : x c = .ok (a, d)) : (x >>= f) c = f a d := by
  simp only [Bind.bind, Read.bind, h]

theorem bind_of_error (f : α → Read β) (h : x c = .error e) : (x >>= f) c = .error e := by
  simp only [Bind.bind, Read.bind, h]

theorem Takes.exists_of_le (h : x.Takes what size) (hsize : size ≤ c.rest.length) :
    ∃ a, x c = .ok (a, ⟨c.offset + size, c.rest.drop size⟩) ∧ ∀ more, x (c.extend more) =
      .ok (a, Cursor.extend ⟨c.offset + size, c.rest.drop size⟩ more) := by
  have hlength : (c.rest.take size).length = size := List.length_take_of_le hsize
  obtain ⟨a, ha⟩ := h.whole _ hlength
  have hmore : ∀ more, x (c.extend more) =
      .ok (a, Cursor.extend ⟨c.offset + size, c.rest.drop size⟩ more) := by
    intro more
    have hrest := ha c.offset (c.rest.drop size ++ more)
    rwa [← List.append_assoc, List.take_append_drop] at hrest
  exact ⟨a, by simpa using hmore [], hmore⟩

theorem Takes.streams (h : x.Takes what size) (start : Nat) : Streams start x where
  result {c d a} _ hx := by
    by_cases hsize : size ≤ c.rest.length
    · obtain ⟨a', hwhole, hmore⟩ := h.exists_of_le hsize
      obtain ⟨rfl, rfl⟩ := Prod.mk.inj (Except.ok.inj (hwhole.symm.trans hx))
      refine ⟨Nat.le_add_right _ _, ?_, hmore⟩
      simp only [Cursor.limit, List.length_drop]
      omega
    · rw [h.short c.offset c.rest (by omega)] at hx
      cases hx
  failure {c e} _ hx := by
    by_cases hsize : size ≤ c.rest.length
    · obtain ⟨a, hwhole, -⟩ := h.exists_of_le hsize
      rw [hwhole] at hx
      cases hx
    · rw [h.short c.offset c.rest (by omega)] at hx
      obtain rfl := Except.error.inj hx
      have hfound : size - (size - c.rest.length) = c.rest.length := by omega
      have hlimit : c.offset + (size - (size - c.rest.length)) = c.limit := by
        rw [hfound, Cursor.limit]
      exact ⟨Nat.le_add_right _ _,
        .inl ⟨what, size, size - c.rest.length, rfl, by omega, by omega, hlimit⟩⟩

theorem Takes.map (h : x.Takes what size) (f : α → β) :
    (x >>= fun a => Pure.pure (f a)).Takes what size where
  whole front hfront := by
    obtain ⟨a, ha⟩ := h.whole front hfront
    exact ⟨f a, fun offset back => bind_of_ok _ (ha offset back)⟩
  short offset rest hrest := bind_of_error _ (h.short offset rest hrest)

theorem takes_u8 (what : String) : (u8 what).Takes what 1 where
  whole front h := by
    obtain ⟨a, rfl⟩ := List.length_eq_one_iff.mp h
    exact ⟨a, fun _ _ => rfl⟩
  short offset rest h := by
    obtain rfl : rest = [] := List.eq_nil_of_length_eq_zero (by omega)
    rfl

theorem takes_u16 (what : String) : (u16 what).Takes what 2 where
  whole front h := by
    obtain ⟨a, b, rfl⟩ := List.length_eq_two.mp h
    exact ⟨word a b, fun _ _ => rfl⟩
  short offset rest h := by
    match rest, h with
    | [], _ => rfl
    | [_], _ => rfl

theorem takes_u32 (what : String) : (u32 what).Takes what 4 where
  whole front h := by
    match front, h with
    | [a, b, d, e], _ => exact ⟨doubleWord a b d e, fun _ _ => rfl⟩
  short offset rest h := by
    match rest, h with
    | [], _ => rfl
    | [_], _ => rfl
    | [_, _], _ => rfl
    | [_, _, _], _ => rfl

theorem takes_u64 (what : String) : (u64 what).Takes what 8 where
  whole front h := by
    match front, h with
    | [a, b, d, e, f, g, i, j], _ => exact ⟨_, fun _ _ => rfl⟩
  short offset rest h := by
    match rest, h with
    | [], _ => rfl
    | [_], _ => rfl
    | [_, _], _ => rfl
    | [_, _, _], _ => rfl
    | [_, _, _, _], _ => rfl
    | [_, _, _, _, _], _ => rfl
    | [_, _, _, _, _, _], _ => rfl
    | [_, _, _, _, _, _, _], _ => rfl

theorem split_of_lt {n : Nat} {bs : List UInt8} (h : bs.length < n) :
    split n bs = .error (n - bs.length) := by
  induction n generalizing bs with
  | zero => omega
  | succ n ih =>
    cases bs with
    | nil => rfl
    | cons b bs =>
      have hlt : bs.length < n := by simpa using h
      rw [split, ih hlt, List.length_cons, Nat.add_sub_add_right]

theorem takes_bytes (size : Nat) (what : String) : (bytes size what).Takes what size where
  whole front h := by
    refine ⟨front, fun offset back => ?_⟩
    have hsplit : split size (front ++ back) = .ok (front, back) := split_eq_ok_iff.mpr ⟨h, rfl⟩
    simp only [bytes, hsplit]
  short offset rest h := by
    simp only [bytes, split_of_lt h]

theorem streams_pure (start : Nat) (a : α) : Streams start (Pure.pure a : Read α) where
  result {c d b} _ h := by
    obtain ⟨rfl, rfl⟩ := Prod.mk.inj (Except.ok.inj h)
    exact ⟨le_rfl, rfl, fun _ => rfl⟩
  failure _ h := by cases h

theorem streams_failAt {offset : Nat} (h : offset ≤ start) (fault : LayoutFault) :
    Streams start (failAt offset fault : Read α) where
  result _ h := by cases h
  failure {c e} hc he := by
    obtain rfl := Except.error.inj he
    have hoffset : offset ≤ c.limit := by
      rw [Cursor.limit]
      omega
    exact ⟨hoffset, .inr fun _ => rfl⟩

theorem Streams.bind {f : α → Read β} (hx : Streams start x) (hf : ∀ a, Streams start (f a)) :
    Streams start (x >>= f) where
  result {c d b} hc h := by
    obtain ⟨a, m, hm, hb⟩ := bind_eq_ok_iff.mp h
    obtain ⟨hle, hlimit, hmore⟩ := hx.result hc hm
    obtain ⟨hle', hlimit', hmore'⟩ := (hf a).result (hc.trans hle) hb
    refine ⟨hle.trans hle', hlimit'.trans hlimit, fun more => ?_⟩
    rw [bind_of_ok f (hmore more), hmore' more]
  failure {c e} hc h := by
    cases hm : x c with
    | error e' =>
      rw [bind_of_error f hm] at h
      obtain rfl := Except.error.inj h
      obtain ⟨hoffset, hout⟩ := hx.failure hc hm
      exact ⟨hoffset, hout.imp_right fun hmore more => bind_of_error f (hmore more)⟩
    | ok r =>
      obtain ⟨a, m⟩ := r
      rw [bind_of_ok f hm] at h
      obtain ⟨hle, hlimit, hmore⟩ := hx.result hc hm
      obtain ⟨hoffset, hout⟩ := (hf a).failure (hc.trans hle) h
      rw [hlimit] at hoffset hout
      refine ⟨hoffset, hout.imp_right fun hmore' more => ?_⟩
      rw [bind_of_ok f (hmore more), hmore' more]

theorem Streams.map (hx : Streams start x) (f : α → β) :
    Streams start (x >>= fun a => Pure.pure (f a)) :=
  hx.bind fun a => streams_pure start (f a)

/-- An offset that is asked for lies before all that is read later. -/
theorem Streams.offset_bind {f : Nat → Read α} (hf : ∀ n, start ≤ n → Streams n (f n)) :
    Streams start (offset >>= f) where
  result {c _ _} hc h := (hf c.offset hc).result le_rfl h
  failure {c _} hc h := (hf c.offset hc).failure le_rfl h

theorem Streams.timesOnto (hx : Streams start x) (n : Nat) (done : List α) :
    Streams start (timesOnto x n done) := by
  induction n generalizing done with
  | zero => exact streams_pure start done.reverse
  | succ n ih => exact hx.bind fun a => ih (a :: done)

theorem Streams.counted (hx : Streams start x) (what : String) :
    Streams start (counted what x) :=
  ((takes_u16 what).streams start).bind fun n => hx.timesOnto n.toNat []

end Read

end ClassAtlas
