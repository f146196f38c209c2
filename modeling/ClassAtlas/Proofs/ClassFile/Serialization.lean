import ClassAtlas.ClassFile.Reader
import ClassAtlas.Proofs.ClassFile.Format
import ClassAtlas.Proofs.ClassFile.Recognition

/-! Reading class files accepts exactly what writing produces: each part of the reader recognizes
the bytes of its part of the format. -/

namespace ClassAtlas

open Read

theorem isIndex_toNat (v : UInt16) : IsIndex v.toNat :=
  ⟨Int.natCast_nonneg _, by exact_mod_cast v.toNat_lt⟩

theorem IsIndex.exists_word {n : Int} (h : IsIndex n) : ∃ v : UInt16, n = v.toNat := by
  have hn : n.toNat < 2 ^ 16 := by have := h.2; omega
  refine ⟨UInt16.ofNat n.toNat, ?_⟩
  rw [UInt16.toNat_ofNat_of_lt' hn, Int.toNat_of_nonneg h.1]

theorem EntryKind.ofTag?_eq_some_iff {tag : UInt8} {kind : EntryKind} :
    EntryKind.ofTag? tag = some kind ↔ kind.tag = tag := by
  constructor
  · intro h
    simpa using List.find?_some h
  · rintro rfl
    cases kind <;> rfl

theorem EntryKind.tag_inj {k l : EntryKind} : k.tag = l.tag ↔ k = l := by
  constructor
  · intro h
    have hk : EntryKind.ofTag? l.tag = some k := EntryKind.ofTag?_eq_some_iff.mpr h
    rw [EntryKind.ofTag?_eq_some_iff.mpr rfl] at hk
    exact (Option.some.inj hk).symm
  · rintro rfl
    rfl

theorem Entry.slots_eq_one_of_ne {e : Entry} (h : e.slots ≠ 2) : e.slots = 1 := by
  cases e <;> simp_all [Entry.slots, Entry.kind, EntryKind.slots]

namespace Pool

theorem paired_cons_iff_of_one {e : Entry} {slots : List (Option Entry)} (h : e.slots = 1) :
    Paired (some e :: slots) ↔ Paired slots := by
  constructor
  · intro hp
    cases hp with
    | single _ hp => exact hp
    | double he => omega
  · exact .single h

theorem paired_cons_iff_of_two {e : Entry} {slots : List (Option Entry)} (h : e.slots = 2) :
    Paired (some e :: slots) ↔ ∃ rest, slots = none :: rest ∧ Paired rest := by
  constructor
  · intro hp
    cases hp with
    | single he => omega
    | double _ hp => exact ⟨_, rfl, hp⟩
  · rintro ⟨rest, rfl, hp⟩
    exact .double h hp

end Pool

namespace ClassFile

theorem recognizes_utf8 : readUtf8.Recognizes fun e bs =>
    (e.kind = .utf8 ∧ e.Storable) ∧ bs = e.body := by
  refine ((recognizes_u16 _).bind fun size => (recognizes_bytes size.toNat _).map).congr ?_
  intro e bs
  constructor
  · rintro ⟨size, front, back, rfl, ⟨raw, ⟨hl, rfl⟩, rfl⟩, rfl⟩
    refine ⟨⟨rfl, ?_, rfl⟩, by simp [Entry.body, hl]⟩
    rw [hl]
    exact size.toNat_lt
  · rintro ⟨⟨hk, hs⟩, rfl⟩
    cases e <;> cases hk
    rename_i raw text
    obtain ⟨hl, rfl⟩ := hs
    have hn : (UInt16.ofNat raw.length).toNat = raw.length := UInt16.toNat_ofNat_of_lt' hl
    exact ⟨UInt16.ofNat raw.length, _, raw, rfl, ⟨raw, ⟨hn.symm, rfl⟩, rfl⟩, by rw [hn]; rfl⟩

theorem exists_toInt32 {value : Int} (h : -2 ^ 31 ≤ value ∧ value < 2 ^ 31) :
    ∃ v : UInt32, value = v.toInt32.toInt :=
  ⟨(Int32.ofInt value).toUInt32, (Int32.toInt_ofInt_of_le h.1 h.2).symm⟩

theorem toNat_of_toInt32 (v : UInt32) : (v.toInt32.toInt % 2 ^ 32).toNat = v.toNat := by
  have h : v.toInt32.toInt = (v.toNat : Int).bmod (2 ^ 32) := BitVec.toInt_eq_toNat_bmod v.toBitVec
  have hv : v.toNat < 2 ^ 32 := v.toNat_lt
  have hm : (v.toNat : Int).bmod (2 ^ 32) % 2 ^ 32 = v.toNat % 2 ^ 32 := Int.bmod_emod
  rw [h, hm]
  omega

theorem exists_toInt64 {value : Int} (h : -2 ^ 63 ≤ value ∧ value < 2 ^ 63) :
    ∃ v : UInt64, value = v.toInt64.toInt :=
  ⟨(Int64.ofInt value).toUInt64, (Int64.toInt_ofInt_of_le h.1 h.2).symm⟩

theorem toNat_of_toInt64 (v : UInt64) : (v.toInt64.toInt % 2 ^ 64).toNat = v.toNat := by
  have h : v.toInt64.toInt = (v.toNat : Int).bmod (2 ^ 64) := BitVec.toInt_eq_toNat_bmod v.toBitVec
  have hv : v.toNat < 2 ^ 64 := v.toNat_lt
  have hm : (v.toNat : Int).bmod (2 ^ 64) % 2 ^ 64 = v.toNat % 2 ^ 64 := Int.bmod_emod
  rw [h, hm]
  omega

theorem recognizes_index {x : Read UInt16} {kind : EntryKind} {make : Int → Entry}
    (hx : x.Recognizes fun v bs => bs = bigEndian 2 v.toNat)
    (hmake : ∀ n, (make n).kind = kind ∧ ((make n).Storable ↔ IsIndex n) ∧
      (make n).body = bigEndian 2 n.toNat)
    (hall : ∀ e : Entry, e.kind = kind → ∃ n, e = make n) :
    (x >>= fun v => Pure.pure (make v.toNat)).Recognizes fun e bs =>
      (e.kind = kind ∧ e.Storable) ∧ bs = e.body := by
  refine hx.map.congr fun e bs => ?_
  constructor
  · rintro ⟨v, rfl, rfl⟩
    obtain ⟨hk, hs, hb⟩ := hmake v.toNat
    exact ⟨⟨hk, hs.mpr (isIndex_toNat v)⟩, hb.symm⟩
  · rintro ⟨⟨hk, hs⟩, rfl⟩
    obtain ⟨n, rfl⟩ := hall e hk
    obtain ⟨-, hs', hb⟩ := hmake n
    obtain ⟨v, rfl⟩ := (hs'.mp hs).exists_word
    exact ⟨v, hb, rfl⟩

theorem recognizes_indices {first second : String} {kind : EntryKind} {make : Int → Int → Entry}
    (hmake : ∀ a b, (make a b).kind = kind ∧ ((make a b).Storable ↔ IsIndex a ∧ IsIndex b) ∧
      (make a b).body = bigEndian 2 a.toNat ++ bigEndian 2 b.toNat)
    (hall : ∀ e : Entry, e.kind = kind → ∃ a b, e = make a b) :
    (readPair first second make).Recognizes fun e bs =>
      (e.kind = kind ∧ e.Storable) ∧ bs = e.body := by
  refine ((recognizes_u16 _).bind fun a => (recognizes_u16 _).map).congr fun e bs => ?_
  constructor
  · rintro ⟨a, front, back, rfl, ⟨b, rfl, rfl⟩, rfl⟩
    obtain ⟨hk, hs, hb⟩ := hmake a.toNat b.toNat
    exact ⟨⟨hk, hs.mpr ⟨isIndex_toNat a, isIndex_toNat b⟩⟩, hb.symm⟩
  · rintro ⟨⟨hk, hs⟩, rfl⟩
    obtain ⟨m, n, rfl⟩ := hall e hk
    obtain ⟨-, hs', hb⟩ := hmake m n
    obtain ⟨⟨a, rfl⟩, ⟨b, rfl⟩⟩ := (hs'.mp hs).imp IsIndex.exists_word IsIndex.exists_word
    exact ⟨a, _, _, rfl, ⟨b, rfl, rfl⟩, hb⟩

theorem recognizes_methodHandle : (readBody .methodHandle).Recognizes fun e bs =>
    (e.kind = .methodHandle ∧ e.Storable) ∧ bs = e.body := by
  refine ((recognizes_u8 _).bind fun kind => (recognizes_u16 _).map).congr fun e bs => ?_
  constructor
  · rintro ⟨kind, front, back, rfl, ⟨index, rfl, rfl⟩, rfl⟩
    refine ⟨⟨rfl, ⟨Int.natCast_nonneg _, ?_⟩, isIndex_toNat index⟩, rfl⟩
    exact_mod_cast kind.toNat_lt
  · rintro ⟨⟨hk, hs⟩, rfl⟩
    cases e <;> cases hk
    rename_i kind index
    obtain ⟨⟨h0, hl⟩, hi⟩ := hs
    obtain ⟨index, rfl⟩ := hi.exists_word
    have hlt : kind.toNat < 2 ^ 8 := by omega
    have hn : (UInt8.ofNat kind.toNat).toNat = kind.toNat := UInt8.toNat_ofNat_of_lt' hlt
    refine ⟨UInt8.ofNat kind.toNat, _, _, rfl, ⟨index, rfl, ?_⟩, by rw [hn]; rfl⟩
    rw [hn, Int.toNat_of_nonneg h0]

theorem recognizes_body (kind : EntryKind) : (readBody kind).Recognizes fun e bs =>
    (e.kind = kind ∧ e.Storable) ∧ bs = e.body := by
  cases kind with
  | utf8 => exact recognizes_utf8
  | integer =>
    refine (recognizes_u32 _).map.congr fun e bs => ?_
    constructor
    · rintro ⟨v, rfl, rfl⟩
      exact ⟨⟨rfl, v.toInt32.le_toInt, v.toInt32.toInt_lt⟩, by rw [Entry.body, toNat_of_toInt32]⟩
    · rintro ⟨⟨hk, hs⟩, rfl⟩
      cases e <;> cases hk
      obtain ⟨v, rfl⟩ := exists_toInt32 hs
      exact ⟨v, by rw [Entry.body, toNat_of_toInt32], rfl⟩
  | float =>
    refine (recognizes_u32 _).map.congr fun e bs => ?_
    constructor
    · rintro ⟨v, rfl, rfl⟩
      exact ⟨⟨rfl, trivial⟩, rfl⟩
    · rintro ⟨⟨hk, hs⟩, rfl⟩
      cases e <;> cases hk
      exact ⟨_, rfl, rfl⟩
  | long =>
    refine (recognizes_u64 _).map.congr fun e bs => ?_
    constructor
    · rintro ⟨v, rfl, rfl⟩
      exact ⟨⟨rfl, v.toInt64.le_toInt, v.toInt64.toInt_lt⟩, by rw [Entry.body, toNat_of_toInt64]⟩
    · rintro ⟨⟨hk, hs⟩, rfl⟩
      cases e <;> cases hk
      obtain ⟨v, rfl⟩ := exists_toInt64 hs
      exact ⟨v, by rw [Entry.body, toNat_of_toInt64], rfl⟩
  | double =>
    refine (recognizes_u64 _).map.congr fun e bs => ?_
    constructor
    · rintro ⟨v, rfl, rfl⟩
      exact ⟨⟨rfl, trivial⟩, rfl⟩
    · rintro ⟨⟨hk, hs⟩, rfl⟩
      cases e <;> cases hk
      exact ⟨_, rfl, rfl⟩
  | classRef =>
    exact recognizes_index (recognizes_u16 _) (fun n => ⟨rfl, Iff.rfl, rfl⟩)
      (fun e hk => by cases e <;> cases hk; exact ⟨_, rfl⟩)
  | string =>
    exact recognizes_index (recognizes_u16 _) (fun n => ⟨rfl, Iff.rfl, rfl⟩)
      (fun e hk => by cases e <;> cases hk; exact ⟨_, rfl⟩)
  | methodType =>
    exact recognizes_index (recognizes_u16 _) (fun n => ⟨rfl, Iff.rfl, rfl⟩)
      (fun e hk => by cases e <;> cases hk; exact ⟨_, rfl⟩)
  | fieldRef =>
    exact recognizes_indices (fun a b => ⟨rfl, Iff.rfl, rfl⟩)
      (fun e hk => by cases e <;> cases hk; exact ⟨_, _, rfl⟩)
  | methodRef =>
    exact recognizes_indices (fun a b => ⟨rfl, Iff.rfl, rfl⟩)
      (fun e hk => by cases e <;> cases hk; exact ⟨_, _, rfl⟩)
  | interfaceMethodRef =>
    exact recognizes_indices (fun a b => ⟨rfl, Iff.rfl, rfl⟩)
      (fun e hk => by cases e <;> cases hk; exact ⟨_, _, rfl⟩)
  | nameAndType =>
    exact recognizes_indices (fun a b => ⟨rfl, Iff.rfl, rfl⟩)
      (fun e hk => by cases e <;> cases hk; exact ⟨_, _, rfl⟩)
  | methodHandle => exact recognizes_methodHandle
  | invokeDynamic =>
    exact recognizes_indices (fun a b => ⟨rfl, Iff.rfl, rfl⟩)
      (fun e hk => by cases e <;> cases hk; exact ⟨_, _, rfl⟩)

theorem recognizes_entry : readEntry.Recognizes fun e bs => e.Storable ∧ bs = e.bytes := by
  refine Recognizes.offset_bind fun start => ?_
  refine ((recognizes_u8 _).bind
    (M := fun tag e bs => (e.kind.tag = tag ∧ e.Storable) ∧ bs = e.body) fun tag => ?_).congr
      fun e bs => ?_
  · cases ht : EntryKind.ofTag? tag with
    | none =>
      refine (recognizes_fail start (.unknownTag tag)).congr fun e bs => ?_
      simp only [false_iff]
      rintro ⟨⟨hk, -⟩, -⟩
      rw [EntryKind.ofTag?_eq_some_iff.mpr hk] at ht
      cases ht
    | some kind =>
      refine (recognizes_body kind).congr fun e bs => ?_
      rw [← EntryKind.ofTag?_eq_some_iff.mp ht, EntryKind.tag_inj]
  · constructor
    · rintro ⟨tag, front, back, rfl, ⟨⟨rfl, hs⟩, rfl⟩, rfl⟩
      exact ⟨hs, by simp [Entry.bytes, bigEndian]⟩
    · rintro ⟨hs, rfl⟩
      exact ⟨e.kind.tag, _, _, rfl, ⟨⟨rfl, hs⟩, rfl⟩, by simp [Entry.bytes, bigEndian]⟩

theorem recognizes_slots_after (total left start : Nat) (done : List (Option Entry)) (e : Entry) :
    (∀ l ≤ left, ∀ done, (readSlots total l done).Recognizes fun slots bs =>
      ∃ more, slots = done.reverse ++ more ∧ more.length = l ∧ Pool.Paired more ∧
        Pool.EntriesStorable more ∧ bs = Pool.bytesOf more) →
    (if e.slots = 2 then
      match left with
      | 0 => failAt start (.noSecondSlot e.kind.name.toUpper total)
      | left + 1 => readSlots total left (none :: some e :: done)
    else readSlots total left (some e :: done)).Recognizes fun slots bs =>
      ∃ more, slots = done.reverse ++ some e :: more ∧ more.length = left ∧
        Pool.Paired (some e :: more) ∧ Pool.EntriesStorable more ∧ bs = Pool.bytesOf more := by
  intro ih
  by_cases he : e.slots = 2
  · simp only [he, if_true, Pool.paired_cons_iff_of_two he]
    cases left with
    | zero =>
      refine (recognizes_fail start _).congr fun slots bs => ?_
      simp only [false_iff]
      rintro ⟨more, -, hl, ⟨rest, rfl, -⟩, -⟩
      simp at hl
    | succ left =>
      refine (ih left (by omega) (none :: some e :: done)).congr fun slots bs => ?_
      constructor
      · rintro ⟨more, rfl, rfl, hp, hs, rfl⟩
        exact ⟨none :: more, by simp, rfl, ⟨more, rfl, hp⟩,
          fun a ha => hs a (by simpa using ha), rfl⟩
      · rintro ⟨more, rfl, hl, ⟨rest, rfl, hp⟩, hs, rfl⟩
        exact ⟨rest, by simp, by simpa using hl, hp, fun a ha => hs a (by simp [ha]), rfl⟩
  · simp only [he, if_false, Pool.paired_cons_iff_of_one (e.slots_eq_one_of_ne he)]
    refine (ih left le_rfl (some e :: done)).congr fun slots bs => ?_
    simp

theorem recognizes_slots (total left : Nat) (done : List (Option Entry)) :
    (readSlots total left done).Recognizes fun slots bs => ∃ more, slots = done.reverse ++ more ∧
      more.length = left ∧ Pool.Paired more ∧ Pool.EntriesStorable more ∧
        bs = Pool.bytesOf more := by
  -- Strong induction, since a long or a double fills two slots at once.
  induction left using Nat.strong_induction_on generalizing done with
  | _ left ih =>
    cases left with
    | zero =>
      rw [readSlots]
      refine (recognizes_pure done.reverse).congr fun slots bs => ?_
      constructor
      · rintro ⟨rfl, rfl⟩
        exact ⟨[], by simp, rfl, .nil, by simp [Pool.EntriesStorable], rfl⟩
      · rintro ⟨more, rfl, hl, -, -, rfl⟩
        obtain rfl := List.eq_nil_of_length_eq_zero hl
        exact ⟨by simp, rfl⟩
    | succ left =>
      rw [readSlots]
      refine Recognizes.offset_bind fun start => ?_
      refine (recognizes_entry.bind fun e => recognizes_slots_after total left start done e
        fun l hl done => ih l (by omega) done).congr fun slots bs => ?_
      constructor
      · rintro ⟨e, front, back, ⟨he, rfl⟩, ⟨more, rfl, rfl, hp, hs, rfl⟩, rfl⟩
        refine ⟨some e :: more, rfl, rfl, hp, ?_, rfl⟩
        simpa [Pool.EntriesStorable, he] using hs
      · rintro ⟨more, rfl, hl, hp, hs, rfl⟩
        cases hp with
        | nil => simp at hl
        | single he hp' =>
          refine ⟨_, _, _, ⟨hs _ (by simp), rfl⟩,
            ⟨_, rfl, by simpa using hl, .single he hp', ?_, rfl⟩,
            rfl⟩
          exact fun a ha => hs a (by simp [ha])
        | double he hp' =>
          refine ⟨_, _, _, ⟨hs _ (by simp), rfl⟩,
            ⟨_, rfl, by simpa using hl, .double he hp', ?_, rfl⟩,
            rfl⟩
          exact fun a ha => hs a (List.mem_cons_of_mem _ ha)

theorem recognizes_pool : readPool.Recognizes fun p bs =>
    p.Storable ∧ ∃ count, p.Announced count ∧ bs = bigEndian 2 count ++ Pool.bytesOf p.slots := by
  refine ((recognizes_u16 _).bind fun count =>
    (recognizes_slots (count.toNat - 1) (count.toNat - 1) []).map).congr fun p bs => ?_
  constructor
  · rintro ⟨count, _, _, rfl, ⟨slots, ⟨_, rfl, hl, hp, hs, rfl⟩, rfl⟩, rfl⟩
    have hc : count.toNat < 2 ^ 16 := count.toNat_lt
    have hsize : Pool.size ⟨slots⟩ = count.toNat - 1 := hl
    refine ⟨⟨by omega, hp, hs⟩, count.toNat, ?_, rfl⟩
    by_cases h0 : count.toNat = 0
    · exact .inr ⟨List.eq_nil_of_length_eq_zero (hl.trans (by omega)), h0⟩
    · exact .inl (by omega)
  · rintro ⟨hs, count, ha, rfl⟩
    have hc : count < 2 ^ 16 ∧ p.slots.length = count - 1 := by
      have hlt := hs.size_lt
      rcases ha with rfl | ⟨he, rfl⟩
      · exact ⟨hlt, rfl⟩
      · simp [he]
    have hn : (UInt16.ofNat count).toNat = count := UInt16.toNat_ofNat_of_lt' hc.1
    exact ⟨UInt16.ofNat count, _, _, rfl,
      ⟨p.slots, ⟨p.slots, rfl, by rw [hn, hc.2], hs.paired, hs.entries, rfl⟩, rfl⟩, by rw [hn]⟩

theorem recognizes_attribute :
    readAttribute.Recognizes fun a bs => a.Storable ∧ bs = a.bytes := by
  refine ((recognizes_u16 _).bind fun nameIndex => (recognizes_u32 _).bind fun size =>
    (recognizes_bytes size.toNat _).map).congr fun a bs => ?_
  constructor
  · rintro ⟨nameIndex, _, _, rfl, ⟨size, _, _, rfl, ⟨payload, ⟨hl, rfl⟩, rfl⟩, rfl⟩, rfl⟩
    refine ⟨?_, by simp [RawAttribute.bytes, hl]⟩
    rw [RawAttribute.Storable, hl]
    exact size.toNat_lt
  · rintro ⟨hs, rfl⟩
    have hn : (UInt32.ofNat a.payload.length).toNat = a.payload.length :=
      UInt32.toNat_ofNat_of_lt' hs
    exact ⟨a.nameIndex, _, _, rfl, ⟨UInt32.ofNat a.payload.length, _, _, rfl,
      ⟨a.payload, ⟨hn.symm, rfl⟩, rfl⟩, rfl⟩, by simp [RawAttribute.bytes, hn]⟩

theorem recognizes_attributes : readAttributes.Recognizes fun as bs =>
    CountedStorable RawAttribute.Storable as ∧ bs = countedBytes RawAttribute.bytes as :=
  recognizes_attribute.counted _

theorem recognizes_member (what : String) :
    (readMember what).Recognizes fun m bs => m.Storable ∧ bs = m.bytes := by
  refine ((recognizes_u16 _).bind fun accessFlags => (recognizes_u16 _).bind fun nameIndex =>
    (recognizes_u16 _).bind fun descriptorIndex => recognizes_attributes.map).congr fun m bs => ?_
  constructor
  · rintro ⟨_, _, _, rfl, ⟨_, _, _, rfl, ⟨_, _, _, rfl, ⟨as, ⟨hs, rfl⟩, rfl⟩, rfl⟩, rfl⟩, rfl⟩
    exact ⟨hs, by simp [RawMember.bytes]⟩
  · rintro ⟨hs, rfl⟩
    exact ⟨_, _, _, rfl, ⟨_, _, _, rfl, ⟨_, _, _, rfl, ⟨m.attributes, ⟨hs, rfl⟩, rfl⟩, rfl⟩, rfl⟩,
      by simp [RawMember.bytes]⟩

theorem recognizes_members (what : String) : (readMembers what).Recognizes fun ms bs =>
    CountedStorable RawMember.Storable ms ∧ bs = countedBytes RawMember.bytes ms :=
  (recognizes_member what).counted _

theorem recognizes_interfaces (what : String) :
    (counted what (u16 "interface index")).Recognizes fun is bs => is.length < 2 ^ 16 ∧
      bs = countedBytes (fun i : UInt16 => bigEndian 2 i.toNat) is := by
  refine (((recognizes_u16 _).congr (M := fun i bs => True ∧ bs = bigEndian 2 i.toNat)
    (by simp)).counted what).congr fun is bs => ?_
  simp [countedBytes]

theorem recognizes_header : readHeader.Recognizes fun v bs =>
    bs = bigEndian 4 magic.toNat ++ (bigEndian 2 v.1.toNat ++ bigEndian 2 v.2.toNat) := by
  have hrest : ∀ found : UInt32, (if found = magic then do
        let minor ← u16 "minor_version"
        let major ← u16 "major_version"
        return (minor, major)
      else failAt 0 (.badMagic found)).Recognizes fun v bs =>
        found = magic ∧ bs = bigEndian 2 v.1.toNat ++ bigEndian 2 v.2.toNat := by
    intro found
    by_cases hf : found = magic
    · simp only [hf, if_true, true_and]
      refine ((recognizes_u16 _).bind fun minor => (recognizes_u16 _).map).congr fun v bs => ?_
      constructor
      · rintro ⟨minor, _, _, rfl, ⟨major, rfl, rfl⟩, rfl⟩
        rfl
      · rintro rfl
        exact ⟨v.1, _, _, rfl, ⟨v.2, rfl, rfl⟩, rfl⟩
    · simp only [hf, if_false, false_and]
      exact recognizes_fail 0 _
  refine ((recognizes_u32 _).bind hrest).congr fun v bs => ?_
  constructor
  · rintro ⟨found, _, _, rfl, ⟨rfl, rfl⟩, rfl⟩
    rfl
  · rintro rfl
    exact ⟨magic, _, _, rfl, ⟨rfl, rfl⟩, rfl⟩

/-- What is read before the check that nothing is left. -/
def readParts : Read ClassFile := do
  let (minor, major) ← readHeader
  let pool ← readPool
  let accessFlags ← u16 "access_flags"
  let thisClass ← u16 "this_class"
  let superClass ← u16 "super_class"
  let interfaces ← counted "interfaces_count" (u16 "interface index")
  let fields ← readMembers "field"
  let methods ← readMembers "method"
  let attributes ← readAttributes
  return ⟨minor, major, pool, accessFlags, thisClass, superClass, interfaces, fields, methods,
    attributes⟩

theorem read_eq_readParts :
    read = readParts >>= fun c => atEnd "class attributes" >>= fun _ => Pure.pure c := by
  simp [read, readParts]

theorem recognizes_parts : readParts.Recognizes fun c bs =>
    c.Storable ∧ ∃ count, c.pool.Announced count ∧ bs = c.bytes count := by
  refine (recognizes_header.bind fun v => recognizes_pool.bind fun pool =>
    (recognizes_u16 _).bind fun accessFlags => (recognizes_u16 _).bind fun thisClass =>
    (recognizes_u16 _).bind fun superClass => (recognizes_interfaces _).bind fun interfaces =>
    (recognizes_members _).bind fun fields => (recognizes_members _).bind fun methods =>
    recognizes_attributes.map).congr fun c bs => ?_
  constructor
  · rintro ⟨_, _, _, rfl, ⟨_, _, _, ⟨hp, count, ha, rfl⟩, ⟨_, _, _, rfl, ⟨_, _, _, rfl,
      ⟨_, _, _, rfl, ⟨_, _, _, ⟨hi, rfl⟩, ⟨_, _, _, ⟨hf, rfl⟩, ⟨_, _, _, ⟨hm, rfl⟩,
      ⟨_, ⟨hs, rfl⟩, rfl⟩, rfl⟩, rfl⟩, rfl⟩, rfl⟩, rfl⟩, rfl⟩, rfl⟩, rfl⟩
    exact ⟨⟨hp, hi, hf, hm, hs⟩, count, ha, by simp [bytes]⟩
  · rintro ⟨⟨hp, hi, hf, hm, hs⟩, count, ha, rfl⟩
    exact ⟨(c.minorVersion, c.majorVersion), _, _, rfl, ⟨_, _, _, ⟨hp, count, ha, rfl⟩,
      ⟨_, _, _, rfl, ⟨_, _, _, rfl, ⟨_, _, _, rfl, ⟨_, _, _, ⟨hi, rfl⟩, ⟨_, _, _, ⟨hf, rfl⟩,
      ⟨_, _, _, ⟨hm, rfl⟩, ⟨c.attributes, ⟨hs, rfl⟩, rfl⟩, rfl⟩, rfl⟩, rfl⟩, rfl⟩, rfl⟩, rfl⟩,
      rfl⟩, by simp [bytes]⟩

theorem ofBytes_eq_ok_iff {file : List UInt8} {c : ClassFile} : ofBytes file = .ok c ↔
    c.Storable ∧ ∃ count, c.pool.Announced count ∧ file = c.bytes count := by
  rw [ofBytes, read_eq_readParts]
  exact recognizes_parts.run_atEnd_iff "class attributes" file c

theorem announced_eq_or {p : Pool} {m n : Nat} (hm : p.Announced m) (hn : p.Announced n) :
    n = m ∨ p.slots = [] ∧ (m = 0 ∧ n = 1 ∨ m = 1 ∧ n = 0) := by
  rcases hm with rfl | ⟨he, rfl⟩
  · rcases hn with rfl | ⟨he, rfl⟩
    · exact .inl rfl
    · exact .inr ⟨he, .inr ⟨by simp [Pool.size, he], rfl⟩⟩
  · rcases hn with rfl | ⟨-, rfl⟩
    · exact .inr ⟨he, .inl ⟨rfl, by simp [Pool.size, he]⟩⟩
    · exact .inl rfl

/-- A byte string is read as a class file exactly if it is its serialization. Two byte strings of
one class file differ at most in the count of a pool without slots, which is 0 or 1. -/
theorem ofBytes_iff_bytes (file : List UInt8) (c : ClassFile) :
    (ofBytes file = .ok c ↔
      c.Storable ∧ ∃ count, c.pool.Announced count ∧ file = c.bytes count) ∧
    ∀ other, ofBytes file = .ok c → ofBytes other = .ok c → other = file ∨
      c.pool.slots = [] ∧ (file = c.bytes 0 ∧ other = c.bytes 1 ∨
        file = c.bytes 1 ∧ other = c.bytes 0) := by
  refine ⟨ofBytes_eq_ok_iff, fun other hf ho => ?_⟩
  obtain ⟨-, m, hm, rfl⟩ := ofBytes_eq_ok_iff.mp hf
  obtain ⟨-, n, hn, rfl⟩ := ofBytes_eq_ok_iff.mp ho
  rcases announced_eq_or hm hn with rfl | ⟨he, ⟨rfl, rfl⟩ | ⟨rfl, rfl⟩⟩
  · exact .inl rfl
  · exact .inr ⟨he, .inl ⟨rfl, rfl⟩⟩
  · exact .inr ⟨he, .inr ⟨rfl, rfl⟩⟩

def bare : ClassFile :=
  ⟨0, 52, ⟨[]⟩, 0, 0, 0, [], [], [], []⟩

theorem ofBytes_bare : ofBytes (bare.bytes 0) = .ok bare ∧ ofBytes (bare.bytes 1) = .ok bare ∧
    (bare.bytes 1 = bare.bytes 0 ∨ bare.pool.slots = [] ∧
      (bare.bytes 0 = bare.bytes 0 ∧ bare.bytes 1 = bare.bytes 1 ∨
        bare.bytes 0 = bare.bytes 1 ∧ bare.bytes 1 = bare.bytes 0)) := by
  have h0 : ofBytes (bare.bytes 0) = .ok bare := by rfl
  have h1 : ofBytes (bare.bytes 1) = .ok bare := by rfl
  exact ⟨h0, h1, (ofBytes_iff_bytes (bare.bytes 0) bare).2 (bare.bytes 1) h0 h1⟩

/-- A long takes two slots and eight bytes, and the empty slot none. -/
example : ofBytes (ClassFile.bytes 5 ⟨0, 52, ⟨[some (.utf8 [0x41] "A"), some (.classRef 1),
    some (.long (-2)), none]⟩, 0x21, 2, 0, [2], [⟨1, 1, 1, [⟨1, [7]⟩]⟩], [], [⟨1, []⟩]⟩) =
    .ok ⟨0, 52,
      ⟨[some (.utf8 [0x41] "A"), some (.classRef 1), some (.long (-2)), none]⟩, 0x21, 2, 0,
      [2], [⟨1, 1, 1, [⟨1, [7]⟩]⟩], [], [⟨1, []⟩]⟩ := by
  decide +kernel

end ClassFile

end ClassAtlas
