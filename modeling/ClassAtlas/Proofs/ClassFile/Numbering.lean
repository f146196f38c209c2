import ClassAtlas.Proofs.ClassFile.OwnName

/-! How the entries of a pool are numbered. Each has the index behind the slots of those before it,
and no other index leads to an entry. -/

namespace ClassAtlas

namespace Entry

/-- The slots an entry fills. -/
def inSlots (e : Entry) : List (Option Entry) :=
  some e :: List.replicate (e.slots - 1) none

theorem inSlots_of_one {e : Entry} (h : e.slots = 1) : e.inSlots = [some e] := by
  simp [inSlots, h]

theorem inSlots_of_two {e : Entry} (h : e.slots = 2) : e.inSlots = [some e, none] := by
  simp [inSlots, h]

theorem slots_eq_one_or_two (e : Entry) : e.slots = 1 ∨ e.slots = 2 := by
  by_cases h : e.slots = 2
  · exact .inr h
  · exact .inl (slots_eq_one_of_ne h)

theorem length_inSlots (e : Entry) : e.inSlots.length = e.slots := by
  rcases e.slots_eq_one_or_two with h | h
  · simp [inSlots_of_one h, h]
  · simp [inSlots_of_two h, h]

theorem getElem?_inSlots_iff {e : Entry} {i : Nat} {slot : Option Entry} :
    e.inSlots[i]? = some slot ↔
      i = 0 ∧ slot = some e ∨ e.slots = 2 ∧ i = 1 ∧ slot = none := by
  rcases e.slots_eq_one_or_two with h | h
  · rw [inSlots_of_one h]
    cases i <;> simp [h, eq_comm]
  · rw [inSlots_of_two h]
    match i with
    | 0 => simp [eq_comm]
    | 1 => simp [h, eq_comm]
    | i + 2 => simp

end Entry

namespace Pool

variable {entries others : List Entry} {slots : List (Option Entry)} {e : Entry} {k i : Nat}

def slotsOf (entries : List Entry) : Nat :=
  (entries.map Entry.slots).sum

/-- The index of the entry at position `k`. -/
def indexOf (entries : List Entry) (k : Nat) : Nat :=
  1 + slotsOf (entries.take k)

theorem slotsOf_take_succ (e : Entry) (entries : List Entry) (k : Nat) :
    slotsOf ((e :: entries).take (k + 1)) = e.slots + slotsOf (entries.take k) := by
  simp [slotsOf]

theorem exists_entries_of_paired (h : Paired slots) :
    ∃ entries : List Entry, slots = entries.flatMap Entry.inSlots := by
  induction h with
  | nil => exact ⟨[], rfl⟩
  | @single e slots he _ ih =>
    obtain ⟨entries, rfl⟩ := ih
    exact ⟨e :: entries, by simp [Entry.inSlots_of_one he]⟩
  | @double e slots he _ ih =>
    obtain ⟨entries, rfl⟩ := ih
    exact ⟨e :: entries, by simp [Entry.inSlots_of_two he]⟩

theorem length_flatMap_inSlots (entries : List Entry) :
    (entries.flatMap Entry.inSlots).length = slotsOf entries := by
  simp [List.length_flatMap, Entry.length_inSlots, slotsOf]

theorem bytesOf_flatMap_inSlots (entries : List Entry) :
    bytesOf (entries.flatMap Entry.inSlots) = entries.flatMap Entry.bytes := by
  induction entries with
  | nil => rfl
  | cons e entries ih =>
    have happend (front back : List (Option Entry)) :
        bytesOf (front ++ back) = bytesOf front ++ bytesOf back := by simp [bytesOf]
    have hfirst : bytesOf e.inSlots = e.bytes := by
      rcases e.slots_eq_one_or_two with h | h
      · simp [Entry.inSlots_of_one h, bytesOf]
      · simp [Entry.inSlots_of_two h, bytesOf]
    rw [List.flatMap_cons, happend, hfirst, ih, List.flatMap_cons]

theorem mem_flatMap_inSlots : some e ∈ entries.flatMap Entry.inSlots ↔ e ∈ entries := by
  simp [List.mem_flatMap, Entry.inSlots, List.mem_replicate, eq_comm]

theorem getElem?_flatMap_inSlots_iff {slot : Option Entry} :
    (entries.flatMap Entry.inSlots)[i]? = some slot ↔ ∃ k e j, entries[k]? = some e ∧
      e.inSlots[j]? = some slot ∧ i = slotsOf (entries.take k) + j := by
  induction entries generalizing i with
  | nil => simp
  | cons a entries ih =>
    have hzero : slotsOf ((a :: entries).take 0) = 0 := rfl
    by_cases hi : i < a.slots
    · rw [List.flatMap_cons, List.getElem?_append_left (by rwa [Entry.length_inSlots])]
      constructor
      · intro h
        exact ⟨0, a, i, rfl, h, by omega⟩
      · rintro ⟨k, e, j, hk, hj, rfl⟩
        cases k with
        | zero =>
          obtain rfl : a = e := by simpa using hk
          rwa [hzero, Nat.zero_add]
        | succ k =>
          rw [slotsOf_take_succ] at hi
          omega
    · rw [List.flatMap_cons, List.getElem?_append_right (by rw [Entry.length_inSlots]; omega),
        Entry.length_inSlots, ih]
      constructor
      · rintro ⟨k, e, j, hk, hj, h⟩
        refine ⟨k + 1, e, j, by simpa using hk, hj, ?_⟩
        rw [slotsOf_take_succ]
        omega
      · rintro ⟨k, e, j, hk, hj, h⟩
        cases k with
        | zero =>
          obtain rfl : a = e := by simpa using hk
          have hlt : j < a.inSlots.length := (List.getElem?_eq_some_iff.mp hj).1
          rw [Entry.length_inSlots] at hlt
          omega
        | succ k =>
          rw [slotsOf_take_succ] at h
          exact ⟨k, e, j, by simpa using hk, hj, by omega⟩

theorem get?_eq_some_iff {p : Pool} (hp : p.slots = entries.flatMap Entry.inSlots) {index : Int} :
    p.get? index = some e ↔ ∃ k, entries[k]? = some e ∧ index = indexOf entries k := by
  have hslot : p.get? index = some e ↔ 1 ≤ index ∧ p.slots[(index - 1).toNat]? = some (some e) := by
    rw [get?]
    by_cases hlow : index < 1
    · simp [hlow]
    · simp [hlow, Option.join_eq_some_iff, Int.not_lt.mp hlow]
  rw [hslot, hp, getElem?_flatMap_inSlots_iff]
  simp only [Entry.getElem?_inSlots_iff, indexOf]
  constructor
  · rintro ⟨hlow, k, a, j, hk, ⟨rfl, ha⟩ | ⟨-, -, ha⟩, hindex⟩
    · obtain rfl := Option.some.inj ha
      exact ⟨k, hk, by omega⟩
    · cases ha
  · rintro ⟨k, hk, rfl⟩
    exact ⟨by omega, k, e, 0, hk, .inl ⟨rfl, rfl⟩, by omega⟩

theorem get?_eq_none_iff {p : Pool} (hp : p.slots = entries.flatMap Entry.inSlots) {index : Int} :
    p.get? index = none ↔ index < 1 ∨ p.size < index ∨
      ∃ k e, entries[k]? = some e ∧ e.slots = 2 ∧ index = indexOf entries k + 1 := by
  by_cases hlow : index < 1
  · simp [get?, hlow]
  rw [get?, if_neg hlow]
  by_cases hhigh : p.size < index
  · have hnone : p.slots[(index - 1).toNat]? = none := by
      rw [List.getElem?_eq_none_iff]
      rw [size] at hhigh
      omega
    simp only [hnone, Option.join_none, hhigh, true_or, or_true]
  have hslot :
      p.slots[(index - 1).toNat]?.join = none ↔ p.slots[(index - 1).toNat]? = some none := by
    have hlt : (index - 1).toNat < p.slots.length := by
      rw [size] at hhigh
      omega
    rw [List.getElem?_eq_getElem hlt, Option.join_some, Option.some.injEq]
  rw [hslot, hp, getElem?_flatMap_inSlots_iff]
  simp only [Entry.getElem?_inSlots_iff, indexOf, hlow, hhigh, false_or]
  constructor
  · rintro ⟨k, a, j, hk, ⟨-, ha⟩ | ⟨htwo, rfl, -⟩, hindex⟩
    · cases ha
    · exact ⟨k, a, hk, htwo, by omega⟩
  · rintro ⟨k, a, hk, htwo, hindex⟩
    exact ⟨k, a, 1, hk, .inr ⟨htwo, rfl, trivial⟩, by omega⟩

theorem usedFrom_flatMap_inSlots (start k : Nat) :
    (usedFrom start (entries.flatMap Entry.inSlots))[k]? =
      entries[k]?.map fun e => (start + slotsOf (entries.take k), e) := by
  induction entries generalizing start k with
  | nil => rfl
  | cons a entries ih =>
    have hfirst : usedFrom start ((a :: entries).flatMap Entry.inSlots) =
        (start, a) :: usedFrom (start + a.slots) (entries.flatMap Entry.inSlots) := by
      rcases a.slots_eq_one_or_two with h | h
      · simp [Entry.inSlots_of_one h, usedFrom, h]
      · simp [Entry.inSlots_of_two h, usedFrom, h]
    rw [hfirst]
    cases k with
    | zero => simp [slotsOf]
    | succ k =>
      rw [List.getElem?_cons_succ, ih, slotsOf_take_succ, List.getElem?_cons_succ, Nat.add_assoc]

theorem start_le_of_mem_usedFrom {start : Nat} {used : Nat × Entry}
    (h : used ∈ usedFrom start slots) :
    start ≤ used.1 := by
  induction slots generalizing start with
  | nil => simp [usedFrom] at h
  | cons slot slots ih =>
    cases slot with
    | none =>
      have hle := ih h
      omega
    | some e =>
      rcases List.mem_cons.mp h with rfl | h
      · simp
      · have hle := ih h
        omega

theorem pairwise_usedFrom (start : Nat) (slots : List (Option Entry)) :
    (usedFrom start slots).Pairwise fun a b => a.1 < b.1 := by
  induction slots generalizing start with
  | nil => exact .nil
  | cons slot slots ih =>
    cases slot with
    | none => exact ih (start + 1)
    | some e =>
      refine List.pairwise_cons.mpr ⟨fun used h => ?_, ih (start + 1)⟩
      have hle := start_le_of_mem_usedFrom h
      show start < used.1
      omega

theorem slots_of_getLast?_eq_some (h : Paired slots) (hlast : slots.getLast? = some (some e)) :
    e.slots = 1 := by
  induction h with
  | nil => simp at hlast
  | @single a slots ha _ ih =>
    by_cases hslots : slots = []
    · obtain rfl : a = e := by simpa [hslots] using hlast
      exact ha
    · exact ih (by rwa [List.getLast?_cons_of_ne_nil hslots] at hlast)
  | @double a slots _ _ ih =>
    by_cases hslots : slots = []
    · simp [hslots] at hlast
    · exact ih (by simpa [List.getLast?_cons_of_ne_nil, hslots] using hlast)

/-- Entries that fill as many slots are told apart by their bytes, whatever follows these. -/
theorem entries_eq_of_bytes {back back' : List UInt8} (hentries : ∀ e ∈ entries, e.Storable)
    (hothers : ∀ e ∈ others, e.Storable) (hslots : slotsOf entries = slotsOf others)
    (hbytes : entries.flatMap Entry.bytes ++ back = others.flatMap Entry.bytes ++ back') :
    entries = others := by
  have hpositive (e : Entry) (entries : List Entry) : slotsOf (e :: entries) ≠ 0 := by
    have hone := e.slots_eq_one_or_two
    simp only [slotsOf, List.map_cons, List.sum_cons]
    omega
  induction entries generalizing others with
  | nil =>
    cases others with
    | nil => rfl
    | cons b others => exact absurd hslots.symm (hpositive b others)
  | cons a entries ih =>
    cases others with
    | nil => exact absurd hslots (hpositive a entries)
    | cons b others =>
      obtain ⟨ha, hentries'⟩ := List.forall_mem_cons.mp hentries
      obtain ⟨hb, hothers'⟩ := List.forall_mem_cons.mp hothers
      -- Both entries are what the reader finds at the front of the same bytes.
      have hread (e : Entry) (he : e.Storable) (rest : List UInt8) :
          ClassFile.readEntry ⟨0, e.bytes ++ rest⟩ = .ok (e, ⟨e.bytes.length, rest⟩) :=
        (ClassFile.recognizes_entry _ _ _).mpr ⟨e.bytes, ⟨he, rfl⟩, rfl, (Nat.zero_add _).symm⟩
      rw [List.flatMap_cons, List.append_assoc, List.flatMap_cons, List.append_assoc] at hbytes
      have hfirst := hread a ha (entries.flatMap Entry.bytes ++ back)
      rw [hbytes, hread b hb] at hfirst
      obtain ⟨hab, hcursor⟩ := Prod.mk.inj (Except.ok.inj hfirst)
      have hrest := (Cursor.mk.inj hcursor).2
      subst hab
      have hless : slotsOf entries = slotsOf others := by
        simp only [slotsOf, List.map_cons, List.sum_cons] at hslots
        exact Nat.add_left_cancel hslots
      rw [ih hentries' hothers' hless hrest.symm]

end Pool

namespace ClassFile

open Pool

/-- The pool entries in a file, in their order. Behind the first eight bytes comes a count, one more
than the slots of the entries or zero for none, and then one entry after the other. -/
structure HoldsEntries (file : List UInt8) (entries : List Entry) : Prop where
  storable : ∀ e ∈ entries, e.Storable
  stored : ∃ head count back, head.length = 8 ∧ count < 2 ^ 16 ∧ slotsOf entries = count - 1 ∧
    file = head ++ bigEndian 2 count ++ (entries.flatMap Entry.bytes ++ back)

theorem HoldsEntries.eq {file : List UInt8} {entries others : List Entry}
    (h : HoldsEntries file entries) (h' : HoldsEntries file others) : others = entries := by
  obtain ⟨head, count, back, hhead, hcount, hslots, hfile⟩ := h.stored
  obtain ⟨head', count', back', hhead', hcount', hslots', hfile'⟩ := h'.stored
  have hsame := hfile.symm.trans hfile'
  have hlengths : (head ++ bigEndian 2 count).length = (head' ++ bigEndian 2 count').length := by
    simp [hhead, hhead']
  obtain ⟨hfront, hback⟩ := List.append_inj hsame hlengths
  have hcounts : bigEndian 2 count = bigEndian 2 count' :=
    (List.append_inj hfront (hhead.trans hhead'.symm)).2
  have hequal : count = count' := by
    have hvalue := valueFrom_bigEndian 2 0 count hcount
    rw [hcounts, valueFrom_bigEndian 2 0 count' hcount'] at hvalue
    omega
  exact (entries_eq_of_bytes h.storable h'.storable (by omega) hback).symm

theorem exists_holdsEntries {file : List UInt8} {c : ClassFile} (h : ofBytes file = .ok c) :
    ∃ entries, HoldsEntries file entries ∧ c.pool.slots = entries.flatMap Entry.inSlots := by
  obtain ⟨d, hfront⟩ := readFront_of_ofBytes h
  obtain ⟨count, ⟨hstorable, hannounced⟩, hfile⟩ := exists_bytes_of_readFront hfront
  obtain ⟨entries, hslots⟩ := exists_entries_of_paired hstorable.paired
  have hslots : c.pool.slots = entries.flatMap Entry.inSlots := hslots
  have hsize : c.pool.size = slotsOf entries := by rw [size, hslots, length_flatMap_inSlots]
  have hcount : count < 2 ^ 16 ∧ slotsOf entries = count - 1 := by
    have hlt : c.pool.size + 1 < 2 ^ 16 := hstorable.size_lt
    rcases hannounced with hone | ⟨hnone, hzero⟩
    · have hone : count = c.pool.size + 1 := hone
      omega
    · have hnone : c.pool.size = 0 := List.length_eq_zero_iff.mpr hnone
      omega
  refine ⟨entries, ⟨fun e he => ?_, ?_⟩, hslots⟩
  · have hmem : some e ∈ c.pool.slots := by rwa [hslots, mem_flatMap_inSlots]
    exact hstorable.entries e hmem
  · have hbytes : Pool.bytesOf c.front.pool.slots = entries.flatMap Entry.bytes := by
      rw [← bytesOf_flatMap_inSlots, ← hslots]
      rfl
    refine ⟨bigEndian 4 magic.toNat ++ bigEndian 2 c.front.minorVersion.toNat ++
      bigEndian 2 c.front.majorVersion.toNat, count, bigEndian 2 c.front.accessFlags.toNat ++
      bigEndian 2 c.front.thisClass.toNat ++ d.rest, by simp, hcount.1, hcount.2, ?_⟩
    rw [hfile, Front.bytes, hbytes]
    simp only [List.append_assoc]

/-- The entries of a class file are numbered in their order: each has the index behind the slots of
those before it. No other index leads to an entry, neither outside the pool nor at the second slot
of an entry, and listing the pool gives each entry once with its index. -/
theorem ofBytes_numbered {file : List UInt8} {c : ClassFile} (h : ofBytes file = .ok c) :
    ∃ entries, HoldsEntries file entries ∧ (∀ others, HoldsEntries file others → others = entries) ∧
      (∀ (index : Int) (e : Entry), c.pool.get? index = some e ↔
        ∃ k, entries[k]? = some e ∧ index = indexOf entries k) ∧
      (∀ index : Int, c.pool.get? index = none ↔ index < 1 ∨ c.pool.size < index ∨
        ∃ k e, entries[k]? = some e ∧ e.slots = 2 ∧ index = indexOf entries k + 1) ∧
      (∀ k, c.pool.toList[k]? = entries[k]?.map fun e => (indexOf entries k, e)) ∧
      c.pool.toList.Pairwise (fun a b => a.1 < b.1) ∧
      ∀ e, c.pool.slots.getLast? = some (some e) → e.slots = 1 := by
  have hpaired := (ofBytes_eq_ok_iff.mp h).1.pool.paired
  obtain ⟨entries, hholds, hslots⟩ := exists_holdsEntries h
  refine ⟨entries, hholds, fun others => hholds.eq, fun index e => get?_eq_some_iff hslots,
    fun index => get?_eq_none_iff hslots, fun k => ?_, pairwise_usedFrom 1 _,
    fun e => slots_of_getLast?_eq_some hpaired⟩
  rw [toList, hslots]
  exact usedFrom_flatMap_inSlots 1 k

def longHeld : ClassFile :=
  ⟨0, 52, ⟨[some (.utf8 [0x41] "A"), some (.long (-2)), none, some (.classRef 1)]⟩, 0x21,
    4, 0, [], [], [], []⟩

theorem holdsEntries_longHeld :
    HoldsEntries (longHeld.bytes 5) [.utf8 [0x41] "A", .long (-2), .classRef 1] where
  storable := by
    have htext : "A" = ModifiedUtf8.decode [0x41] := by decide
    simp [Entry.Storable, IsIndex, ← htext]
  stored :=
    ⟨(longHeld.bytes 5).take 8, 5, (longHeld.bytes 5).drop 26, by decide, by decide, by decide,
    by decide⟩

theorem ofBytes_numbered_long : ofBytes (longHeld.bytes 5) = .ok longHeld ∧
    HoldsEntries (longHeld.bytes 5) [.utf8 [0x41] "A", .long (-2), .classRef 1] ∧
    longHeld.pool.get? 2 = some (.long (-2)) ∧ longHeld.pool.get? 3 = none ∧
    longHeld.pool.get? 4 = some (.classRef 1) ∧ longHeld.pool.get? (-1) = none ∧
    longHeld.pool.toList[2]? = some (4, .classRef 1) := by
  have h : ofBytes (longHeld.bytes 5) = .ok longHeld := by decide +kernel
  obtain ⟨entries, -, hunique, hget, hnone, hlist, -⟩ := ofBytes_numbered h
  obtain rfl := hunique _ holdsEntries_longHeld
  refine ⟨h, holdsEntries_longHeld, (hget 2 _).mpr ⟨1, rfl, rfl⟩, ?_, (hget 4 _).mpr ⟨2, rfl, rfl⟩,
    (hnone (-1)).mpr (.inl (by decide)), hlist 2⟩
  exact (hnone 3).mpr (.inr (.inr ⟨1, _, rfl, rfl, rfl⟩))

end ClassFile

end ClassAtlas
