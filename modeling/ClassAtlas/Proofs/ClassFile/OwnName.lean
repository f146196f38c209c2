import ClassAtlas.Proofs.ClassFile.Extension

/-! The front of a class file, which ends with the index of the class itself. A file is read from
its front on, and the name that the class declares comes out of the front alone. -/

namespace ClassAtlas

namespace ClassFile

open Read

/-- The part of a class file up to the index of the class itself. -/
structure Front where
  minorVersion : UInt16
  majorVersion : UInt16
  pool : Pool
  accessFlags : UInt16
  thisClass : UInt16

namespace Front

def name (f : Front) : Except ReferenceError String :=
  f.pool.className f.thisClass.toNat

/-- The bytes of a front whose pool is announced by `count`. -/
def bytes (count : Nat) (f : Front) : List UInt8 :=
  bigEndian 4 magic.toNat ++ bigEndian 2 f.minorVersion.toNat ++
    bigEndian 2 f.majorVersion.toNat ++ bigEndian 2 count ++ Pool.bytesOf f.pool.slots ++
    bigEndian 2 f.accessFlags.toNat ++ bigEndian 2 f.thisClass.toNat

def Announced (count : Nat) (f : Front) : Prop :=
  f.pool.Storable ∧ f.pool.Announced count

end Front

def front (c : ClassFile) : Front :=
  ⟨c.minorVersion, c.majorVersion, c.pool, c.accessFlags, c.thisClass⟩

def readFront : Read Front := do
  let (minor, major) ← readHeader
  let pool ← readPool
  let accessFlags ← u16 "access_flags"
  let thisClass ← u16 "this_class"
  return ⟨minor, major, pool, accessFlags, thisClass⟩

def readBack (f : Front) : Read ClassFile := do
  let superClass ← u16 "super_class"
  let interfaces ← counted "interfaces_count" (u16 "interface index")
  let fields ← readMembers "field"
  let methods ← readMembers "method"
  let attributes ← readAttributes
  atEnd "class attributes"
  return ⟨f.minorVersion, f.majorVersion, f.pool, f.accessFlags, f.thisClass,
    superClass, interfaces, fields, methods, attributes⟩

variable {bytes : List UInt8} {c : ClassFile} {f : Front} {d : Cursor} {e : LayoutError}

theorem read_eq_readFront : read = readFront >>= readBack := by
  simp [read, readFront, readBack]

theorem readSelf_eq_readFront :
    readSelf = readFront >>= fun f => Pure.pure (f.pool, f.thisClass) := by
  simp [readSelf, readFront]

theorem recognizes_front : readFront.Recognizes fun f bs =>
    ∃ count, f.Announced count ∧ bs = f.bytes count := by
  refine (recognizes_header.bind fun v => recognizes_pool.bind fun pool =>
    (recognizes_u16 _).bind fun accessFlags => (recognizes_u16 _).map).congr fun f bs => ?_
  constructor
  · rintro ⟨v, _, _, rfl, ⟨pool, _, _, ⟨hs, count, ha, rfl⟩, ⟨accessFlags, _, _, rfl,
      ⟨thisClass, rfl, rfl⟩, rfl⟩, rfl⟩, rfl⟩
    exact ⟨count, ⟨hs, ha⟩, by simp [Front.bytes]⟩
  · rintro ⟨count, ⟨hs, ha⟩, rfl⟩
    exact ⟨(f.minorVersion, f.majorVersion), _, _, rfl, ⟨f.pool, _, _, ⟨hs, count, ha, rfl⟩,
      ⟨f.accessFlags, _, _, rfl, ⟨f.thisClass, rfl, rfl⟩, rfl⟩, rfl⟩, by simp [Front.bytes]⟩

theorem streams_front (start : Nat) : Streams start readFront :=
  streams_header.bind fun _ => streams_pool.bind fun _ => (streams_u16 _).bind fun _ =>
    (streams_u16 _).map _

theorem exists_bytes_of_readFront (h : readFront (.ofBytes bytes) = .ok (f, d)) :
    ∃ count, f.Announced count ∧ bytes = f.bytes count ++ d.rest := by
  obtain ⟨bs, ⟨count, ha, rfl⟩, hbytes, -⟩ := (recognizes_front _ _ _).mp h
  exact ⟨count, ha, hbytes⟩

theorem readFront_bytes {count : Nat} (h : f.Announced count) (back : List UInt8) :
    readFront (.ofBytes (f.bytes count ++ back)) = .ok (f, ⟨(f.bytes count).length, back⟩) :=
  (recognizes_front _ _ _).mpr ⟨f.bytes count, ⟨count, h, rfl⟩, rfl, (Nat.zero_add _).symm⟩

theorem ofBytes_of_readFront_error (h : readFront (.ofBytes bytes) = .error e) :
    ofBytes bytes = .error e := by
  have hread : read (.ofBytes bytes) = .error e := by
    rw [read_eq_readFront]
    exact bind_of_error _ h
  rw [ofBytes, run, hread]

theorem readFront_of_ofBytes (h : ofBytes bytes = .ok c) :
    ∃ d, readFront (.ofBytes bytes) = .ok (c.front, d) := by
  obtain ⟨hs, count, ha, rfl⟩ := ofBytes_eq_ok_iff.mp h
  have hbytes : c.bytes count = c.front.bytes count ++ (bigEndian 2 c.superClass.toNat ++
      countedBytes (fun i : UInt16 => bigEndian 2 i.toNat) c.interfaces ++
      countedBytes RawMember.bytes c.fields ++ countedBytes RawMember.bytes c.methods ++
      countedBytes RawAttribute.bytes c.attributes) := by
    simp [ClassFile.bytes, Front.bytes, front]
  have hfront : c.front.Announced count := ⟨hs.pool, ha⟩
  rw [hbytes]
  exact ⟨_, readFront_bytes hfront _⟩

end ClassFile

namespace Class

open ClassFile

variable {bytes : List UInt8} {f : Front} {d : Cursor} {c : Class}

theorem nameOfBytes_of_readFront (h : readFront (.ofBytes bytes) = .ok (f, d)) :
    nameOfBytes bytes = f.name.mapError .reference := by
  have hself : readSelf.run bytes = .ok (f.pool, f.thisClass) := by
    rw [readSelf_eq_readFront, Read.run, Read.bind_of_ok _ h]
    rfl
  rw [nameOfBytes, hself]
  rfl

theorem nameOfBytes_of_readFront_error {e : LayoutError}
    (h : readFront (.ofBytes bytes) = .error e) : nameOfBytes bytes = .error (.layout e) := by
  have hself : readSelf.run bytes = .error e := by
    rw [readSelf_eq_readFront, Read.run, Read.bind_of_error _ h]
  rw [nameOfBytes, hself]

theorem name_of_ofFile {raw : ClassFile} (h : ofFile raw = .ok c) :
    raw.front.name = .ok c.thisName := by
  rw [ofFile] at h
  cases hname : raw.pool.className raw.thisClass.toNat with
  | error e =>
    rw [hname] at h
    cases h
  | ok thisName =>
    have hfront : raw.front.name = .ok thisName := hname
    rw [hname] at h
    simp only [bind, Except.bind] at h
    split_ifs at h
    · obtain rfl := Except.ok.inj h
      exact hfront
    · cases hsuper : raw.pool.className raw.superClass.toNat with
      | error e => simp [hsuper] at h
      | ok superName =>
        rw [hsuper] at h
        obtain rfl := Except.ok.inj h
        exact hfront

theorem ofFile_of_name_error {raw : ClassFile} {e : ReferenceError}
    (h : raw.front.name = .error e) : ofFile raw = .error e := by
  have hname : raw.pool.className raw.thisClass.toNat = .error e := h
  rw [ofFile, hname]
  rfl

theorem nameOfBytes_of_ofBytes (h : ofBytes bytes = .ok c) :
    nameOfBytes bytes = .ok c.thisName := by
  rw [ofBytes] at h
  cases hfile : ClassFile.ofBytes bytes with
  | error e => simp [hfile] at h
  | ok raw =>
    obtain ⟨d, hfront⟩ := readFront_of_ofBytes hfile
    rw [hfile] at h
    cases hclass : ofFile raw with
    | error e => simp [hclass, Except.mapError] at h
    | ok c' =>
      obtain rfl : c' = c := by simpa [hclass, Except.mapError] using h
      rw [nameOfBytes_of_readFront hfront, name_of_ofFile hclass]
      rfl

theorem nameOfBytes_eq_layout_iff {e : LayoutError} :
    nameOfBytes bytes = .error (.layout e) ↔ readFront (.ofBytes bytes) = .error e := by
  refine ⟨fun h => ?_, nameOfBytes_of_readFront_error⟩
  cases hfront : readFront (.ofBytes bytes) with
  | error e' =>
    rw [nameOfBytes_of_readFront_error hfront] at h
    simpa using h
  | ok r =>
    obtain ⟨f, d⟩ := r
    rw [nameOfBytes_of_readFront hfront] at h
    cases hname : f.name <;> simp [hname, Except.mapError] at h

theorem front_of_nameOfBytes_reference {e : ReferenceError}
    (h : nameOfBytes bytes = .error (.reference e)) :
    ∃ f d, readFront (.ofBytes bytes) = .ok (f, d) ∧ f.name = .error e := by
  cases hfront : readFront (.ofBytes bytes) with
  | error e' =>
    rw [nameOfBytes_of_readFront_error hfront] at h
    cases h
  | ok r =>
    obtain ⟨f, d⟩ := r
    rw [nameOfBytes_of_readFront hfront] at h
    cases hname : f.name with
    | error e' =>
      obtain rfl : e' = e := by simpa [hname, Except.mapError] using h
      exact ⟨f, d, rfl, hname⟩
    | ok name => simp [hname, Except.mapError] at h

theorem ofBytes_of_nameOfBytes_layout {e : LayoutError}
    (h : nameOfBytes bytes = .error (.layout e)) : ofBytes bytes = .error (.layout e) := by
  rw [ofBytes, ofBytes_of_readFront_error (nameOfBytes_eq_layout_iff.mp h)]

/-- Where the front leads to no name, the whole file fails in the same way unless its layout is
wrong behind the front. -/
theorem ofBytes_of_nameOfBytes_reference {e : ReferenceError}
    (h : nameOfBytes bytes = .error (.reference e)) :
    ofBytes bytes = .error (.reference e) ∨ ∃ l, ofBytes bytes = .error (.layout l) := by
  obtain ⟨f, d, hfront, hname⟩ := front_of_nameOfBytes_reference h
  cases hfile : ClassFile.ofBytes bytes with
  | error l =>
    right
    exact ⟨l, by rw [ofBytes, hfile]⟩
  | ok raw =>
    left
    obtain ⟨d', hraw⟩ := readFront_of_ofBytes hfile
    obtain ⟨rfl, -⟩ := Prod.mk.inj (Except.ok.inj (hfront.symm.trans hraw))
    rw [ofBytes, hfile]
    simp only [ofFile_of_name_error hname, Except.mapError]

/-- Either the bytes start with a front, which alone gives the name, or there is a fault in front of
its end: the bytes run out, or the fault stays whatever follows. -/
theorem nameOfBytes_of_front (bytes : List UInt8) :
    (∃ (f : Front) (count : Nat) (back : List UInt8), f.Announced count ∧
      bytes = f.bytes count ++ back ∧
      ∀ back', nameOfBytes (f.bytes count ++ back') = f.name.mapError .reference) ∨
    ∃ e, nameOfBytes bytes = .error (.layout e) ∧
      (e.RunsOut bytes.length ∨ ∀ more, nameOfBytes (bytes ++ more) = .error (.layout e)) := by
  cases hfront : readFront (.ofBytes bytes) with
  | ok r =>
    obtain ⟨f, d⟩ := r
    obtain ⟨count, ha, hbytes⟩ := exists_bytes_of_readFront hfront
    left
    exact ⟨f, count, d.rest, ha, hbytes, fun back' =>
      nameOfBytes_of_readFront (readFront_bytes ha back')⟩
  | error e =>
    have hlength : (Cursor.ofBytes bytes).limit = bytes.length := Nat.zero_add _
    obtain ⟨-, hout⟩ := (streams_front 0).failure (Nat.zero_le _) hfront
    rw [hlength] at hout
    right
    exact ⟨e, nameOfBytes_of_readFront_error hfront,
      hout.imp_right fun hsame more => nameOfBytes_of_readFront_error (hsame more)⟩

end Class

end ClassAtlas
