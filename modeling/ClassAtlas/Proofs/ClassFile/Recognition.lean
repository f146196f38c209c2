import ClassAtlas.Proofs.ClassFile.BigEndian

/-! Which byte strings a read takes. A read recognizes a layout if it succeeds exactly on the byte
strings that the layout gives to its value, whatever follows them, and stops behind them. -/

namespace ClassAtlas.Read

variable {α β : Type}

theorem bind_assoc_apply {γ : Type} (x : Read α) (f : α → Read β) (g : β → Read γ) :
    x >>= f >>= g = x >>= fun a => f a >>= g := by
  funext c
  simp only [Bind.bind, Read.bind]
  cases x c <;> rfl

instance : LawfulMonad Read :=
  LawfulMonad.mk' Read (fun x => by
    funext c
    simp only [Functor.map, Read.bind]
    cases x c <;> rfl) (fun _ _ => rfl) bind_assoc_apply

theorem bind_eq_ok_iff {x : Read α} {f : α → Read β} {c c' : Cursor} {b : β} :
    (x >>= f) c = .ok (b, c') ↔ ∃ a d, x c = .ok (a, d) ∧ f a d = .ok (b, c') := by
  simp only [Bind.bind, Read.bind]
  cases hx : x c with
  | error e => simp
  | ok r =>
    obtain ⟨a, d⟩ := r
    simp

/-- The read succeeds on a cursor exactly if a layout of its value comes next, and stops behind
it. -/
def Recognizes (x : Read α) (Layout : α → List UInt8 → Prop) : Prop :=
  ∀ c a c', x c = .ok (a, c') ↔
    ∃ bs, Layout a bs ∧ c.rest = bs ++ c'.rest ∧ c'.offset = c.offset + bs.length

variable {x : Read α} {L : α → List UInt8 → Prop}

theorem Recognizes.congr {M : α → List UInt8 → Prop} (h : x.Recognizes L)
    (he : ∀ a bs, L a bs ↔ M a bs) : x.Recognizes M := by
  intro c a c'
  simp only [h c a c', he]

theorem recognizes_pure (a : α) :
    (Pure.pure a : Read α).Recognizes fun b bs => b = a ∧ bs = [] := by
  rintro ⟨offset, rest⟩ b ⟨offset', rest'⟩
  simp only [Pure.pure, Read.pure, Except.ok.injEq, Prod.mk.injEq, Cursor.mk.injEq]
  constructor
  · rintro ⟨rfl, rfl, rfl⟩
    exact ⟨[], ⟨rfl, rfl⟩, rfl, rfl⟩
  · rintro ⟨bs, ⟨rfl, rfl⟩, hr, ho⟩
    exact ⟨rfl, ho.symm, hr⟩

theorem Recognizes.bind {f : α → Read β} {M : α → β → List UInt8 → Prop} (hx : x.Recognizes L)
    (hf : ∀ a, (f a).Recognizes (M a)) :
    (x >>= f).Recognizes fun b bs =>
      ∃ a front back, L a front ∧ M a b back ∧ bs = front ++ back := by
  intro c b c'
  rw [bind_eq_ok_iff]
  constructor
  · rintro ⟨a, d, hd, hb⟩
    obtain ⟨front, hl, hr, ho⟩ := (hx c a d).mp hd
    obtain ⟨back, hm, hr', ho'⟩ := (hf a d b c').mp hb
    refine ⟨front ++ back, ⟨a, front, back, hl, hm, rfl⟩, ?_, ?_⟩
    · rw [hr, hr', List.append_assoc]
    · rw [ho', ho, List.length_append, Nat.add_assoc]
  · rintro ⟨bs, ⟨a, front, back, hl, hm, rfl⟩, hr, ho⟩
    refine ⟨a, ⟨c.offset + front.length, back ++ c'.rest⟩, ?_, ?_⟩
    · exact (hx c a _).mpr ⟨front, hl, by simpa using hr, rfl⟩
    · refine (hf a _ b c').mpr ⟨back, hm, rfl, ?_⟩
      simpa [Nat.add_assoc] using ho

theorem Recognizes.map {f : α → β} (hx : x.Recognizes L) :
    (x >>= fun a => Pure.pure (f a)).Recognizes fun b bs => ∃ a, L a bs ∧ b = f a := by
  refine (hx.bind fun a => recognizes_pure (f a)).congr fun b bs => ?_
  constructor
  · rintro ⟨a, front, back, hl, ⟨rfl, rfl⟩, rfl⟩
    exact ⟨a, by simpa using hl, rfl⟩
  · rintro ⟨a, hl, rfl⟩
    exact ⟨a, bs, [], hl, ⟨rfl, rfl⟩, by simp⟩

theorem recognizes_fail (offset : Nat) (fault : LayoutFault) :
    (failAt offset fault : Read α).Recognizes fun _ _ => False := by
  intro c a c'
  simp [failAt]

theorem Recognizes.offset_bind {f : Nat → Read α} (hf : ∀ n, (f n).Recognizes L) :
    (offset >>= f).Recognizes L := by
  intro c a c'
  exact hf c.offset c a c'

theorem recognizes_u8 (what : String) :
    (u8 what).Recognizes fun v bs => bs = bigEndian 1 v.toNat := by
  rintro ⟨offset, rest⟩ v ⟨offset', rest'⟩
  simp only [eq_bigEndian_iff 1 v.toNat_lt, u8]
  constructor
  · intro h
    rcases rest with _ | ⟨a, rest⟩ <;> simp at h
    obtain ⟨rfl, rfl, rfl⟩ := h
    exact ⟨[a], ⟨rfl, by simp [valueFrom]⟩, rfl, rfl⟩
  · rintro ⟨bs, ⟨hl, hv⟩, rfl, rfl⟩
    obtain ⟨a, rfl⟩ := List.length_eq_one_iff.mp hl
    have hv' : a = v := UInt8.toNat_inj.mp (by simpa [valueFrom] using hv)
    simp [hv']

theorem recognizes_u16 (what : String) :
    (u16 what).Recognizes fun v bs => bs = bigEndian 2 v.toNat := by
  rintro ⟨offset, rest⟩ v ⟨offset', rest'⟩
  simp only [eq_bigEndian_iff 2 v.toNat_lt, u16]
  constructor
  · intro h
    rcases rest with _ | ⟨a, _ | ⟨b, rest⟩⟩ <;> simp at h
    obtain ⟨rfl, rfl, rfl⟩ := h
    exact ⟨[a, b], ⟨rfl, (word_toNat a b).symm⟩, rfl, rfl⟩
  · rintro ⟨bs, ⟨hl, hv⟩, rfl, rfl⟩
    obtain ⟨a, b, rfl⟩ := List.length_eq_two.mp hl
    have hv' : word a b = v := UInt16.toNat_inj.mp ((word_toNat a b).trans hv)
    simp [hv']

theorem recognizes_u32 (what : String) :
    (u32 what).Recognizes fun v bs => bs = bigEndian 4 v.toNat := by
  rintro ⟨offset, rest⟩ v ⟨offset', rest'⟩
  simp only [eq_bigEndian_iff 4 v.toNat_lt, u32]
  constructor
  · intro h
    rcases rest with _ | ⟨a, _ | ⟨b, _ | ⟨d, _ | ⟨e, rest⟩⟩⟩⟩ <;> simp at h
    obtain ⟨rfl, rfl, rfl⟩ := h
    exact ⟨[a, b, d, e], ⟨rfl, (doubleWord_toNat a b d e).symm⟩, rfl, rfl⟩
  · rintro ⟨bs, ⟨hl, hv⟩, rfl, rfl⟩
    match bs, hl with
    | [a, b, d, e], _ =>
      have hv' : doubleWord a b d e = v := UInt32.toNat_inj.mp ((doubleWord_toNat a b d e).trans hv)
      simp [hv']

theorem recognizes_u64 (what : String) :
    (u64 what).Recognizes fun v bs => bs = bigEndian 8 v.toNat := by
  rintro ⟨offset, rest⟩ v ⟨offset', rest'⟩
  simp only [eq_bigEndian_iff 8 v.toNat_lt, u64]
  constructor
  · intro h
    rcases rest with _ |
      ⟨a, _ | ⟨b, _ | ⟨d, _ | ⟨e, _ | ⟨f, _ | ⟨g, _ | ⟨i, _ | ⟨j, rest⟩⟩⟩⟩⟩⟩⟩⟩ <;>
      simp at h
    obtain ⟨rfl, rfl, rfl⟩ := h
    exact ⟨[a, b, d, e, f, g, i, j], ⟨rfl, (quadWord_toNat a b d e f g i j).symm⟩, rfl, rfl⟩
  · rintro ⟨bs, ⟨hl, hv⟩, rfl, rfl⟩
    match bs, hl with
    | [a, b, d, e, f, g, i, j], _ =>
      have hv' := UInt64.toNat_inj.mp ((quadWord_toNat a b d e f g i j).trans hv)
      simp [hv']

theorem split_eq_ok_iff {n : Nat} {bs front back : List UInt8} :
    split n bs = .ok (front, back) ↔ front.length = n ∧ bs = front ++ back := by
  induction n generalizing bs front back with
  | zero => cases front <;> simp [split, eq_comm]
  | succ n ih =>
    cases bs with
    | nil => cases front <;> simp [split]
    | cons b bs =>
      rw [split]
      cases hs : split n bs with
      | error missing =>
        cases front with
        | nil => simp
        | cons a front =>
          simp only [reduceCtorEq, List.length_cons, Nat.add_right_cancel_iff, List.cons_append,
            List.cons.injEq, false_iff, not_and]
          rintro hl - hb
          have hh := ih.mpr ⟨hl, hb⟩
          rw [hs] at hh
          cases hh
      | ok r =>
        have hr := ih.mp (show split n bs = .ok (r.1, r.2) from hs)
        obtain ⟨hl, hb⟩ := hr
        cases front with
        | nil => simp
        | cons a front =>
          simp only [Except.ok.injEq, Prod.mk.injEq, List.cons.injEq, List.length_cons,
            Nat.add_right_cancel_iff, List.cons_append]
          constructor
          · rintro ⟨⟨rfl, rfl⟩, rfl⟩
            exact ⟨hl, rfl, hb⟩
          · rintro ⟨hl', rfl, hb'⟩
            have hh := (ih.mpr ⟨hl', hb'⟩).symm.trans hs
            simp only [Except.ok.injEq] at hh
            simp [← hh]

theorem recognizes_bytes (size : Nat) (what : String) :
    (bytes size what).Recognizes fun v bs => v.length = size ∧ bs = v := by
  rintro ⟨offset, rest⟩ v ⟨offset', rest'⟩
  simp only [bytes]
  cases hs : split size rest with
  | error missing =>
    simp only [reduceCtorEq, false_iff]
    rintro ⟨bs, ⟨hl, rfl⟩, hr, -⟩
    have hh := (split_eq_ok_iff.mpr ⟨hl, hr⟩).symm.trans hs
    cases hh
  | ok r =>
    obtain ⟨hl, hb⟩ := split_eq_ok_iff.mp hs
    simp only [Except.ok.injEq, Prod.mk.injEq, Cursor.mk.injEq]
    constructor
    · rintro ⟨rfl, rfl, rfl⟩
      exact ⟨r.1, ⟨hl, rfl⟩, hb, by rw [hl]⟩
    · rintro ⟨bs, ⟨hl', rfl⟩, hr, ho⟩
      have hh := (split_eq_ok_iff.mpr ⟨hl', hr⟩).symm.trans hs
      simp only [Except.ok.injEq] at hh
      subst hh
      exact ⟨rfl, by rw [ho, hl'], rfl⟩

def InTurn (L : α → List UInt8 → Prop) : List α → List UInt8 → Prop
  | [], bs => bs = []
  | a :: as, bs => ∃ front back, L a front ∧ InTurn L as back ∧ bs = front ++ back

theorem inTurn_iff {P : α → Prop} {write : α → List UInt8} (as : List α) (bs : List UInt8) :
    InTurn (fun a bs => P a ∧ bs = write a) as bs ↔ (∀ a ∈ as, P a) ∧ bs = as.flatMap write := by
  induction as generalizing bs with
  | nil => simp [InTurn]
  | cons a as ih =>
    simp only [InTurn, ih, List.forall_mem_cons, List.flatMap_cons]
    constructor
    · rintro ⟨front, back, ⟨ha, rfl⟩, ⟨has, rfl⟩, rfl⟩
      exact ⟨⟨ha, has⟩, rfl⟩
    · rintro ⟨⟨ha, has⟩, rfl⟩
      exact ⟨write a, as.flatMap write, ⟨ha, rfl⟩, ⟨has, rfl⟩, rfl⟩

theorem Recognizes.timesOnto (hx : x.Recognizes L) (n : Nat) (done : List α) :
    (timesOnto x n done).Recognizes fun as bs =>
      ∃ more, as = done.reverse ++ more ∧ more.length = n ∧ InTurn L more bs := by
  induction n generalizing done with
  | zero =>
    refine (recognizes_pure done.reverse).congr fun as bs => ?_
    constructor
    · rintro ⟨rfl, rfl⟩
      exact ⟨[], by simp, rfl, rfl⟩
    · rintro ⟨more, rfl, hl, hb⟩
      obtain rfl := List.eq_nil_of_length_eq_zero hl
      exact ⟨by simp, hb⟩
  | succ n ih =>
    refine (hx.bind fun a => ih (a :: done)).congr fun as bs => ?_
    constructor
    · rintro ⟨a, front, back, ha, ⟨more, rfl, rfl, hm⟩, rfl⟩
      exact ⟨a :: more, by simp, rfl, front, back, ha, hm, rfl⟩
    · rintro ⟨more, rfl, hl, hm⟩
      cases more with
      | nil => simp at hl
      | cons a more =>
        obtain ⟨front, back, ha, hm, rfl⟩ := hm
        exact ⟨a, front, back, ha, ⟨more, by simp, by simpa using hl, hm⟩, rfl⟩

theorem Recognizes.times (hx : x.Recognizes L) (n : Nat) :
    (times n x).Recognizes fun as bs => as.length = n ∧ InTurn L as bs :=
  (hx.timesOnto n []).congr fun as bs => by simp

theorem Recognizes.counted {P : α → Prop} {write : α → List UInt8} (what : String)
    (hx : x.Recognizes fun a bs => P a ∧ bs = write a) :
    (counted what x).Recognizes fun as bs =>
      (as.length < 2 ^ 16 ∧ ∀ a ∈ as, P a) ∧ bs = bigEndian 2 as.length ++ as.flatMap write := by
  refine ((recognizes_u16 what).bind fun n => hx.times n.toNat).congr fun as bs => ?_
  simp only [inTurn_iff]
  constructor
  · rintro ⟨n, front, back, rfl, ⟨hl, hp, rfl⟩, rfl⟩
    rw [hl]
    exact ⟨⟨n.toNat_lt, hp⟩, rfl⟩
  · rintro ⟨⟨hl, hp⟩, rfl⟩
    have hn : (UInt16.ofNat as.length).toNat = as.length := UInt16.toNat_ofNat_of_lt' hl
    exact ⟨UInt16.ofNat as.length, _, _, rfl, ⟨hn.symm, hp, rfl⟩, by rw [hn]⟩

theorem atEnd_eq_ok_iff {what : String} {c c' : Cursor} :
    atEnd what c = .ok ((), c') ↔ c.rest = [] ∧ c' = c := by
  obtain ⟨offset, rest⟩ := c
  cases rest <;> simp [atEnd, eq_comm]

/-- A read with nothing after it takes a byte string exactly if that is a layout of its value. -/
theorem Recognizes.run_atEnd_iff (hx : x.Recognizes L) (what : String) (bytes : List UInt8)
    (a : α) : (x >>= fun a => atEnd what >>= fun _ => Pure.pure a).run bytes = .ok a ↔
      L a bytes := by
  have hrun : (x >>= fun a => atEnd what >>= fun _ => Pure.pure a).run bytes = .ok a ↔
      ∃ c', x (.ofBytes bytes) = .ok (a, c') ∧ c'.rest = [] := by
    simp only [Read.run]
    constructor
    · intro h
      split at h <;> cases h
      rename_i d hd
      obtain ⟨b, c', hb, he⟩ := bind_eq_ok_iff.mp hd
      obtain ⟨_, c, hc, hp⟩ := bind_eq_ok_iff.mp he
      obtain ⟨rfl, -⟩ := Prod.mk.inj (Except.ok.inj hp)
      exact ⟨c', hb, (atEnd_eq_ok_iff.mp hc).1⟩
    · rintro ⟨c', hx', he⟩
      have hd : (x >>= fun a => atEnd what >>= fun _ => Pure.pure a) (.ofBytes bytes) =
          .ok (a, c') :=
        bind_eq_ok_iff.mpr ⟨a, c', hx', bind_eq_ok_iff.mpr
          ⟨(), c', atEnd_eq_ok_iff.mpr ⟨he, rfl⟩, rfl⟩⟩
      rw [hd]
  rw [hrun]
  constructor
  · rintro ⟨c', hc, he⟩
    obtain ⟨bs, hl, hr, -⟩ := (hx _ _ _).mp hc
    have hb : bytes = bs := by simpa [Cursor.ofBytes, he] using hr
    exact hb ▸ hl
  · intro hl
    exact ⟨⟨bytes.length, []⟩, (hx _ _ _).mpr ⟨bytes, hl, by simp [Cursor.ofBytes]⟩, rfl⟩

end ClassAtlas.Read
