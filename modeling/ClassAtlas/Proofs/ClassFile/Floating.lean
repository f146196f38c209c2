import ClassAtlas.Proofs.ClassFile.Streaming

/-! Reads that do the same wherever their bytes stand. With more bytes in front, all that changes is
the offset they end at or blame. -/

namespace ClassAtlas

/-- The error as it shows with more bytes in front. -/
def LayoutError.later (e : LayoutError) (more : Nat) : LayoutError :=
  ⟨e.fault, more + e.offset⟩

def Cursor.later (c : Cursor) (more : Nat) : Cursor :=
  ⟨more + c.offset, c.rest⟩

namespace Read

variable {α β : Type} {x : Read α} {size : Nat} {what : String}

/-- A step that does the same wherever its bytes stand. -/
structure Floats (x : Read α) : Prop where
  result {c d : Cursor} {a : α} (more : Nat) (h : x c = .ok (a, d)) :
    x (c.later more) = .ok (a, d.later more)
  failure {c : Cursor} {e : LayoutError} (more : Nat) (h : x c = .error e) :
    x (c.later more) = .error (e.later more)

theorem floats_pure (a : α) : (Pure.pure a : Read α).Floats where
  result more h := by
    obtain ⟨rfl, rfl⟩ := Prod.mk.inj (Except.ok.inj h)
    rfl
  failure _ h := by cases h

theorem floats_atEnd (what : String) : (atEnd what).Floats where
  result more h := by
    obtain ⟨hrest, rfl⟩ := atEnd_eq_ok_iff.mp h
    exact atEnd_eq_ok_iff.mpr ⟨hrest, rfl⟩
  failure {c e} more h := by
    obtain ⟨offset, rest⟩ := c
    cases rest with
    | nil => cases h
    | cons b rest =>
      obtain rfl := Except.error.inj h
      rfl

theorem Takes.floats (h : x.Takes what size) : x.Floats where
  result {c d a} more hx := by
    by_cases hsize : size ≤ c.rest.length
    · obtain ⟨a', ha⟩ := h.whole (c.rest.take size) (List.length_take_of_le hsize)
      have hwhole (offset : Nat) :
          x ⟨offset, c.rest⟩ = .ok (a', ⟨offset + size, c.rest.drop size⟩) := by
        have hrest := ha offset (c.rest.drop size)
        rwa [List.take_append_drop] at hrest
      obtain ⟨rfl, rfl⟩ := Prod.mk.inj (Except.ok.inj ((hwhole c.offset).symm.trans hx))
      rw [Cursor.later, hwhole, Cursor.later, Nat.add_assoc]
    · rw [h.short c.offset c.rest (by omega)] at hx
      cases hx
  failure {c e} more hx := by
    by_cases hsize : size ≤ c.rest.length
    · obtain ⟨a, hwhole, -⟩ := h.exists_of_le hsize
      rw [hwhole] at hx
      cases hx
    · have hshort (offset : Nat) := h.short offset c.rest (by omega)
      rw [hshort c.offset] at hx
      obtain rfl := Except.error.inj hx
      exact hshort (more + c.offset)

theorem Floats.bind {f : α → Read β} (hx : x.Floats) (hf : ∀ a, (f a).Floats) :
    (x >>= f).Floats where
  result {c d b} more h := by
    obtain ⟨a, m, hm, hb⟩ := bind_eq_ok_iff.mp h
    rw [bind_of_ok f (hx.result more hm)]
    exact (hf a).result more hb
  failure {c e} more h := by
    cases hm : x c with
    | error e' =>
      rw [bind_of_error f hm] at h
      obtain rfl := Except.error.inj h
      exact bind_of_error f (hx.failure more hm)
    | ok r =>
      rw [bind_of_ok f hm] at h
      rw [bind_of_ok f (hx.result more hm)]
      exact (hf r.1).failure more h

theorem Floats.timesOnto (hx : x.Floats) (n : Nat) (done : List α) :
    (timesOnto x n done).Floats := by
  induction n generalizing done with
  | zero => exact floats_pure done.reverse
  | succ n ih => exact hx.bind fun a => ih (a :: done)

end Read

end ClassAtlas
