import ClassAtlas.Proofs.Attribute.CodeLayout
import ClassAtlas.Proofs.ClassFile.Extension
import ClassAtlas.Proofs.Finder.Steady

/-! What goes wrong when an attribute is decoded. A payload of the wrong length is refused before
any of its indices is followed, and an index that leads nowhere is one of those in the payload. -/

namespace ClassAtlas

namespace Read

variable {α β : Type} {x : Read α} {c d : Cursor} {a : α} {e : LayoutError} {bytes : List UInt8}

/-- A step that neither takes nor blames bytes behind the last one. -/
structure StaysWithin (x : Read α) : Prop where
  result {c d : Cursor} {a : α} (h : x c = .ok (a, d)) : d.limit = c.limit
  failure {c : Cursor} {e : LayoutError} (h : x c = .error e) : e.offset ≤ c.limit

theorem Streams.staysWithin (h : Streams 0 x) : x.StaysWithin where
  result hx := (h.result (Nat.zero_le _) hx).2.1
  failure hx := (h.failure (Nat.zero_le _) hx).1

theorem staysWithin_pure (a : α) : (Pure.pure a : Read α).StaysWithin :=
  (streams_pure 0 a).staysWithin

theorem staysWithin_u16 (what : String) : (u16 what).StaysWithin :=
  ((takes_u16 what).streams 0).staysWithin

theorem staysWithin_atEnd (what : String) : (atEnd what).StaysWithin where
  result {c d a} h := by
    have hd : d = c := (atEnd_eq_ok_iff.mp h).2
    rw [hd]
  failure {c e} h := by
    obtain ⟨offset, rest⟩ := c
    cases rest with
    | nil => cases h
    | cons b rest =>
      have he : e.offset = offset := by rw [← Except.error.inj h]
      simp only [Cursor.limit]
      omega

theorem StaysWithin.bind {f : α → Read β} (hx : x.StaysWithin) (hf : ∀ a, (f a).StaysWithin) :
    (x >>= f).StaysWithin where
  result {c d b} h := by
    obtain ⟨a, m, hm, hb⟩ := bind_eq_ok_iff.mp h
    exact ((hf a).result hb).trans (hx.result hm)
  failure {c e} h := by
    cases hm : x c with
    | error e' =>
      rw [bind_of_error f hm] at h
      rw [← Except.error.inj h]
      exact hx.failure hm
    | ok r =>
      rw [bind_of_ok f hm] at h
      have hle := (hf r.1).failure h
      rwa [hx.result hm] at hle

theorem StaysWithin.offset_le (h : x.StaysWithin) (hrun : x.run bytes = .error e) :
    e.offset ≤ bytes.length := by
  have hlimit : (Cursor.ofBytes bytes).limit = bytes.length := Nat.zero_add _
  rw [run] at hrun
  cases hx : x (.ofBytes bytes) with
  | ok r => simp [hx] at hrun
  | error e' =>
    have hle := h.failure hx
    rw [hx] at hrun
    rwa [Except.error.inj hrun, hlimit] at hle

end Read

namespace LineEntry

def bytes (e : LineEntry) : List UInt8 :=
  bigEndian 2 e.startPc.toNat ++ bigEndian 2 e.line.toNat

def Storable (e : LineEntry) : Prop :=
  IsIndex e.startPc ∧ IsIndex e.line

theorem length_bytes (e : LineEntry) : e.bytes.length = 4 := by
  simp [bytes]

theorem exists_entries {n : Nat} {rest : List UInt8} (h : rest.length = 4 * n) :
    ∃ entries : List LineEntry, entries.length = n ∧ (∀ e ∈ entries, e.Storable) ∧
      rest = entries.flatMap bytes := by
  induction n generalizing rest with
  | zero =>
    have hrest : rest = [] := List.eq_nil_of_length_eq_zero (by simpa using h)
    exact ⟨[], rfl, by simp, by simpa using hrest⟩
  | succ n ih =>
    match rest, h with
    | a :: b :: a' :: b' :: rest, h =>
      have hlength : rest.length = 4 * n := by
        simp only [List.length_cons] at h
        omega
      obtain ⟨entries, hn, hstorable, hrest⟩ := ih hlength
      have hhalf (a b : UInt8) : bigEndian 2 (Read.word a b).toNat = [a, b] := by
        rw [Read.word_toNat]
        exact bigEndian_valueFrom [a, b]
      refine ⟨⟨(Read.word a b).toNat, (Read.word a' b').toNat⟩ :: entries, by simp [hn], ?_, ?_⟩
      · have hfirst := isIndex_toNat (Read.word a b)
        have hsecond := isIndex_toNat (Read.word a' b')
        exact List.forall_mem_cons.mpr ⟨⟨hfirst, hsecond⟩, hstorable⟩
      · simp [bytes, hhalf, hrest]

end LineEntry

namespace CodeLayout

/-- What stands in front of the handler rows of a body. -/
def head (maxStack maxLocals : UInt16) (code : List UInt8) (count : UInt16) : List UInt8 :=
  bigEndian 2 maxStack.toNat ++ bigEndian 2 maxLocals.toNat ++ (bigEndian 4 code.length ++ code) ++
    bigEndian 2 count.toNat

end CodeLayout

namespace Attribute

open Read

variable {pool : Pool} {name : String} {bytes : List UInt8} {index : UInt16} {e : DecodeError}

/-- The first index of a payload that does not lead to what the attribute needs there. -/
inductive Dangling (pool : Pool) : (name : String) → (bytes : List UInt8) → (index : UInt16) →
    (expected : String) → Prop
  | text {name : String} {index : UInt16} : name = "SourceFile" ∨ name = "Signature" →
    pool.string? index.toNat = none → Dangling pool name (bigEndian 2 index.toNat) index "Utf8"
  | caught {maxStack maxLocals count : UInt16} {code back : List UInt8} {rows : List HandlerRow}
    {row : HandlerRow} : code.length < 2 ^ 32 → rows.length < count.toNat →
    (∀ r ∈ rows, ∃ caught, HandlerRow.Catches pool r.catchIndex caught) →
    (∀ caught, ¬ HandlerRow.Catches pool row.catchIndex caught) →
    Dangling pool "Code" (CodeLayout.head maxStack maxLocals code count ++
      rows.flatMap HandlerRow.bytes ++ row.bytes ++ back) row.catchIndex "Class -> Utf8"

/-- What can be wrong with a payload under a name. -/
inductive Fails (pool : Pool) (name : String) (bytes : List UInt8) : DecodeError → Prop
  | layout {e : LayoutError} : e.offset ≤ bytes.length → Fails pool name bytes (.layout e)
  | unresolved {index : UInt16} {expected : String} : Dangling pool name bytes index expected →
    Fails pool name bytes (.unresolved name index expected)
  | grammar {e : GrammarError} {index : UInt16} : name = "Signature" →
    bytes = bigEndian 2 index.toNat → pool.string? index.toNat = some e.text →
    Fails pool name bytes (.grammar e)

/-- The length a payload needs under the names whose layouts are fixed or counted. A line table says
itself how many entries it has. -/
def requiredLength? (name : String) (bytes : List UInt8) : Option Nat :=
  if name = "SourceFile" ∨ name = "Signature" then some 2
  else if name = "Deprecated" then some 0
  else if name = "LineNumberTable" then some (2 + 4 * valueFrom 0 (bytes.take 2))
  else none

def knownNames : List String :=
  ["SourceFile", "Signature", "Code", "LineNumberTable", "Deprecated"]

theorem Dangling.exists_stored {expected : String} (h : Dangling pool name bytes index expected) :
    ∃ front back, bytes = front ++ bigEndian 2 index.toNat ++ back := by
  cases h with
  | text => exact ⟨[], [], by simp⟩
  | @caught maxStack maxLocals count code back rows row =>
    refine ⟨CodeLayout.head maxStack maxLocals code count ++ rows.flatMap HandlerRow.bytes ++
      (bigEndian 2 row.startPc.toNat ++ bigEndian 2 row.endPc.toNat ++
        bigEndian 2 row.handlerPc.toNat), back, ?_⟩
    simp [HandlerRow.bytes]

theorem run_readIndex_eq_ok_iff {what owner : String} :
    (readIndex what owner).run bytes = .ok index ↔ bytes = bigEndian 2 index.toNat :=
  (recognizes_u16 what).run_atEnd_iff owner bytes index

theorem staysWithin_index (what owner : String) : (readIndex what owner).StaysWithin :=
  (staysWithin_u16 what).bind fun _ => (staysWithin_atEnd owner).bind fun _ => staysWithin_pure _

theorem streams_line : Streams 0 readLine :=
  ((takes_u16 _).streams 0).bind fun _ => ((takes_u16 _).streams 0).map _

theorem staysWithin_lineTable : readLineTable.StaysWithin :=
  (streams_line.counted _).staysWithin.bind fun _ =>
    (staysWithin_atEnd _).bind fun _ => staysWithin_pure _

theorem staysWithin_row : readRow.StaysWithin :=
  (staysWithin_u16 _).bind fun _ => (staysWithin_u16 _).bind fun _ =>
    (staysWithin_u16 _).bind fun _ =>
    (staysWithin_u16 _).bind fun _ => staysWithin_pure _

theorem staysWithin_handlers (n : Nat) (done : List Handler) :
    (readHandlers pool n done).StaysWithin := by
  induction n generalizing done with
  | zero => exact staysWithin_pure _
  | succ n ih =>
    rw [readHandlers_succ]
    refine staysWithin_row.bind fun row => ?_
    cases catchType pool row.catchIndex with
    | none => exact staysWithin_pure _
    | some caught => exact ih _

theorem staysWithin_code : (readCode pool).StaysWithin := by
  have hbytes (size : Nat) : (Read.bytes size "bytecode").StaysWithin :=
    ((takes_bytes size _).streams 0).staysWithin
  have hsize : (u32 "code_length").StaysWithin := ((takes_u32 _).streams 0).staysWithin
  have hnested (count : UInt16) : (readNested count.toNat []).StaysWithin := by
    rw [readNested_eq_timesOnto]
    exact (ClassFile.streams_attribute.timesOnto _ _).staysWithin
  refine (staysWithin_u16 _).bind fun maxStack => (staysWithin_u16 _).bind fun maxLocals =>
    hsize.bind fun size => (hbytes size.toNat).bind fun code => (staysWithin_u16 _).bind fun rows =>
    (staysWithin_handlers rows.toNat []).bind fun handlers => ?_
  cases handlers with
  | error index => exact staysWithin_pure _
  | ok handlers =>
    exact (staysWithin_u16 _).bind fun count => (hnested count).bind fun raw =>
      (staysWithin_atEnd _).bind fun _ => staysWithin_pure _

theorem recognizes_line : readLine.Recognizes fun e bs => e.Storable ∧ bs = e.bytes := by
  refine ((recognizes_u16 _).bind fun startPc => (recognizes_u16 _).map).congr fun e bs => ?_
  constructor
  · rintro ⟨startPc, _, _, rfl, ⟨line, rfl, rfl⟩, rfl⟩
    exact ⟨⟨isIndex_toNat startPc, isIndex_toNat line⟩, rfl⟩
  · rintro ⟨hstorable, rfl⟩
    obtain ⟨startPc, hstart⟩ := hstorable.1.exists_word
    obtain ⟨line, hline⟩ := hstorable.2.exists_word
    obtain ⟨s, l⟩ := e
    obtain rfl : s = startPc.toNat := hstart
    obtain rfl : l = line.toNat := hline
    exact ⟨startPc, _, _, rfl, ⟨line, rfl, rfl⟩, rfl⟩

theorem run_readLineTable_eq_ok_iff {table : LineTable} : readLineTable.run bytes = .ok table ↔
    (table.entries.length < 2 ^ 16 ∧ ∀ e ∈ table.entries, e.Storable) ∧
      bytes = bigEndian 2 table.entries.length ++ table.entries.flatMap LineEntry.bytes := by
  have hread : readLineTable = (counted "line_number_table_length" readLine >>= fun entries =>
      Pure.pure (LineTable.mk entries)) >>= fun table =>
      atEnd "LineNumberTable attribute" >>= fun _ => Pure.pure table := by
    simp [readLineTable]
  rw [hread, (recognizes_line.counted _).map.run_atEnd_iff]
  constructor
  · rintro ⟨entries, h, rfl⟩
    exact h
  · intro h
    exact ⟨table.entries, h, rfl⟩

theorem exists_lineTable_iff : (∃ table, readLineTable.run bytes = .ok table) ↔
    bytes.length = 2 + 4 * valueFrom 0 (bytes.take 2) := by
  have hlength (entries : List LineEntry) :
      (entries.flatMap LineEntry.bytes).length = 4 * entries.length := by
    have hsum : (entries.map fun e => e.bytes.length).sum = 4 * entries.length := by
      simp [LineEntry.length_bytes, mul_comm]
    simp [List.length_flatMap, hsum]
  simp only [run_readLineTable_eq_ok_iff]
  constructor
  · rintro ⟨table, ⟨hcount, -⟩, hbytes⟩
    have hvalue := valueFrom_bigEndian 2 0 table.entries.length hcount
    rw [hbytes, List.take_left' (bigEndian_length 2 _), hvalue]
    simp [hlength]
  · intro h
    have htwo : (bytes.take 2).length = 2 := by
      rw [List.length_take]
      omega
    have hrest : (bytes.drop 2).length = 4 * valueFrom 0 (bytes.take 2) := by
      rw [List.length_drop]
      omega
    have hcount : valueFrom 0 (bytes.take 2) < 2 ^ 16 := by
      have hlt := valueFrom_lt (bytes.take 2)
      rwa [htwo] at hlt
    have hfront : bytes.take 2 = bigEndian 2 (valueFrom 0 (bytes.take 2)) :=
      (eq_bigEndian_iff 2 hcount _).mpr ⟨htwo, rfl⟩
    obtain ⟨entries, hn, hstorable, hentries⟩ := LineEntry.exists_entries hrest
    refine ⟨⟨entries⟩, ⟨by simpa [hn] using hcount, hstorable⟩, ?_⟩
    rw [hn, ← hfront, ← hentries, List.take_append_drop]

/-- A handler table is given up at the first row whose index leads to no class name. -/
theorem exists_rows_of_readHandlers {n : Nat} {done : List Handler} {c c' : Cursor}
    (h : readHandlers pool n done c = .ok (.error index, c')) :
    ∃ (rows : List HandlerRow) (row : HandlerRow), rows.length < n ∧ row.catchIndex = index ∧
      c.rest = rows.flatMap HandlerRow.bytes ++ row.bytes ++ c'.rest ∧
      (∀ r ∈ rows, ∃ caught, HandlerRow.Catches pool r.catchIndex caught) ∧
      ∀ caught, ¬ HandlerRow.Catches pool row.catchIndex caught := by
  induction n generalizing done c with
  | zero => cases h
  | succ n ih =>
    rw [readHandlers_succ] at h
    obtain ⟨row, d, hrow, h⟩ := Read.bind_eq_ok_iff.mp h
    obtain ⟨bs, ⟨-, hbs⟩, hrest, -⟩ := (recognizes_row _ _ _).mp hrow
    rw [hbs] at hrest
    cases hcatch : catchType pool row.catchIndex with
    | none =>
      rw [hcatch] at h
      have hresult := Prod.mk.inj (Except.ok.inj h)
      have hindex : row.catchIndex = index := Except.error.inj hresult.1
      have hnone : ∀ caught, ¬ HandlerRow.Catches pool row.catchIndex caught := by
        intro caught hcaught
        simp [catchType_eq_some_iff.mpr hcaught] at hcatch
      refine ⟨[], row, by simp, hindex, ?_, by simp, hnone⟩
      simp [hrest, hresult.2]
    | some caught =>
      rw [hcatch] at h
      obtain ⟨rows, last, hn, hindex, hrest', hrows, hlast⟩ := ih h
      have hfirst : ∃ caught, HandlerRow.Catches pool row.catchIndex caught :=
        ⟨caught, catchType_eq_some_iff.mp hcatch⟩
      refine ⟨row :: rows, last, by simpa using hn, hindex, ?_,
        List.forall_mem_cons.mpr ⟨hfirst, hrows⟩, hlast⟩
      simp [hrest, hrest']

theorem dangling_of_readCode (h : (readCode pool).run bytes = .ok (.error index)) :
    Dangling pool "Code" bytes index "Class -> Utf8" := by
  obtain ⟨c', h⟩ := run_eq_ok_iff.mp h
  simp only [readCode, Read.bind_eq_ok_iff] at h
  obtain ⟨maxStack, c₁, h₁, maxLocals, c₂, h₂, size, c₃, h₃, code, c₄, h₄, count, c₅, h₅, read,
    c₆, h₆, h⟩ := h
  cases read with
  | ok handlers =>
    simp only [Read.bind_eq_ok_iff] at h
    obtain ⟨_, _, _, _, _, _, _, _, _, hpure⟩ := h
    cases hpure
  | error index' =>
    obtain rfl : index' = index := Except.error.inj (Prod.mk.inj (Except.ok.inj h)).1
    obtain ⟨_, hstack, hrest₁, -⟩ := (recognizes_u16 _ _ _ _).mp h₁
    obtain ⟨_, hlocals, hrest₂, -⟩ := (recognizes_u16 _ _ _ _).mp h₂
    obtain ⟨_, hsize, hrest₃, -⟩ := (recognizes_u32 _ _ _ _).mp h₃
    obtain ⟨_, ⟨hlength, hcode⟩, hrest₄, -⟩ := (recognizes_bytes _ _ _ _ _).mp h₄
    obtain ⟨_, hcount, hrest₅, -⟩ := (recognizes_u16 _ _ _ _).mp h₅
    obtain ⟨rows, row, hn, hindex, hrest₆, hrows, hrow⟩ := exists_rows_of_readHandlers h₆
    have hbytes : bytes = CodeLayout.head maxStack maxLocals code count ++
        rows.flatMap HandlerRow.bytes ++ row.bytes ++ c₆.rest := by
      have hall : bytes = (Cursor.ofBytes bytes).rest := rfl
      rw [hall, hrest₁, hrest₂, hrest₃, hrest₄, hrest₅, hrest₆, hstack, hlocals, hsize,
        hcode, hcount]
      simp [CodeLayout.head, hlength]
    have hfits : code.length < 2 ^ 32 := by
      rw [hlength]
      exact size.toNat_lt
    rw [hbytes, ← hindex]
    exact .caught hfits hn hrows hrow

theorem fails_of_layout {α : Type} {x : Read α} (hx : x.StaysWithin)
    (h : layout x bytes = .error e) :
    Fails pool name bytes e := by
  rw [layout] at h
  cases hrun : x.run bytes with
  | ok a => simp [hrun, Except.mapError] at h
  | error l =>
    have he : .layout l = e := by simpa [hrun, Except.mapError] using h
    rw [← he]
    exact .layout (hx.offset_le hrun)

theorem run_of_layout {α : Type} {x : Read α} {a : α} (h : layout x bytes = .ok a) :
    x.run bytes = .ok a := by
  rw [layout] at h
  cases hrun : x.run bytes with
  | ok b => simpa [hrun, Except.mapError] using h
  | error l => simp [hrun, Except.mapError] at h

theorem fails_of_textAt (hname : name = "SourceFile" ∨ name = "Signature")
    (hbytes : bytes = bigEndian 2 index.toNat) (h : textAt pool name index = .error e) :
    Fails pool name bytes e := by
  rw [textAt] at h
  cases htext : pool.string? index.toNat with
  | some text => simp [htext] at h
  | none =>
    have he : .unresolved name index "Utf8" = e := by simpa [htext] using h
    rw [← he, hbytes]
    exact .unresolved (.text hname htext)

theorem string?_of_textAt {text : String} (h : textAt pool name index = .ok text) :
    pool.string? index.toNat = some text := by
  rw [textAt] at h
  cases htext : pool.string? index.toNat with
  | none => simp [htext] at h
  | some other => simpa [htext] using h

theorem fails_of_decodeSourceFile (h : decodeSourceFile pool bytes = .error e) :
    Fails pool "SourceFile" bytes e := by
  obtain h | ⟨index, hindex, h⟩ := bind_eq_error_iff.mp h
  · exact fails_of_layout (staysWithin_index _ _) h
  · have hbytes := run_readIndex_eq_ok_iff.mp (run_of_layout hindex)
    obtain h | ⟨text, -, h⟩ := bind_eq_error_iff.mp h
    · exact fails_of_textAt (.inl rfl) hbytes h
    · cases h

theorem fails_of_decodeSignature (h : decodeSignature pool bytes = .error e) :
    Fails pool "Signature" bytes e := by
  obtain h | ⟨index, hindex, h⟩ := bind_eq_error_iff.mp h
  · exact fails_of_layout (staysWithin_index _ _) h
  · have hbytes := run_readIndex_eq_ok_iff.mp (run_of_layout hindex)
    obtain h | ⟨text, htext, h⟩ := bind_eq_error_iff.mp h
    · exact fails_of_textAt (.inr rfl) hbytes h
    · obtain h | ⟨type, -, h⟩ := bind_eq_error_iff.mp h
      · rw [Signature.ofDescriptor] at h
        rcases hread : Descriptor.readAll text.toList with ⟨position, fault⟩ | type
        · have he : .grammar ⟨text, position, fault⟩ = e := by
            simpa [hread, Except.mapError] using h
          rw [← he]
          exact .grammar rfl hbytes (string?_of_textAt htext)
        · simp [hread, Except.mapError] at h
      · cases h

theorem fails_of_decodeCode (h : decodeCode pool bytes = .error e) : Fails pool "Code" bytes e := by
  obtain h | ⟨read, hread, h⟩ := bind_eq_error_iff.mp h
  · exact fails_of_layout staysWithin_code h
  · cases read with
    | ok code => cases h
    | error index =>
      rw [← Except.error.inj h]
      exact .unresolved (dangling_of_readCode (run_of_layout hread))

theorem decodePayload_of_decode_error (h : decode pool name bytes = .error e) :
    decodePayload pool name bytes = .error e := by
  rw [decode] at h
  cases hpayload : decodePayload pool name bytes with
  | ok payload => simp [hpayload] at h
  | error e' => simpa [hpayload] using h

theorem fails_of_decode (h : decode pool name bytes = .error e) : Fails pool name bytes e := by
  have h := decodePayload_of_decode_error h
  rw [decodePayload] at h
  split_ifs at h with hsource hsignature hcode hlines hdeprecated
  · rw [hsource]
    exact fails_of_decodeSourceFile h
  · rw [hsignature]
    exact fails_of_decodeSignature h
  · rw [hcode]
    exact fails_of_decodeCode h
  · obtain h | ⟨table, -, h⟩ := bind_eq_error_iff.mp h
    · exact fails_of_layout staysWithin_lineTable h
    · cases h
  · obtain h | ⟨_, -, h⟩ := bind_eq_error_iff.mp h
    · exact fails_of_layout (staysWithin_atEnd _) h
    · cases h

/-- Where a payload is read as a whole before its indices are followed, its length alone decides
whether the reading fails, and then it fails alike for every pool. -/
theorem layout_error_iff_length {α : Type} {x : Read α} {f : Pool → α → Except DecodeError Payload}
    {size : Nat} (hdecode : ∀ pool, decodePayload pool name bytes = layout x bytes >>= f pool)
    (hx : x.StaysWithin) (hlater : ∀ pool a l, f pool a ≠ .error (.layout l))
    (haccepted : (∃ a, x.run bytes = .ok a) ↔ bytes.length = size) :
    (bytes.length ≠ size →
      ∃ l, l.offset ≤ bytes.length ∧ ∀ pool, decode pool name bytes = .error (.layout l)) ∧
    (bytes.length = size → ∀ pool l, decode pool name bytes ≠ .error (.layout l)) := by
  constructor
  · intro hne
    cases hrun : x.run bytes with
    | ok a => exact absurd (haccepted.mp ⟨a, hrun⟩) hne
    | error l =>
      refine ⟨l, hx.offset_le hrun, fun pool => ?_⟩
      have hpayload : decodePayload pool name bytes = .error (.layout l) := by
        rw [hdecode, layout, hrun]
        rfl
      rw [decode, hpayload]
  · intro heq pool l h
    obtain ⟨a, hrun⟩ := haccepted.mpr heq
    have hpayload := decodePayload_of_decode_error h
    rw [hdecode, layout, hrun] at hpayload
    exact hlater pool a l hpayload

theorem exists_index_iff {what owner : String} :
    (∃ index, (readIndex what owner).run bytes = .ok index) ↔ bytes.length = 2 := by
  simp only [run_readIndex_eq_ok_iff]
  constructor
  · rintro ⟨index, rfl⟩
    exact bigEndian_length 2 _
  · intro h
    have hlt : valueFrom 0 bytes < 2 ^ 16 := by
      have hlt := valueFrom_lt bytes
      rwa [h] at hlt
    refine ⟨UInt16.ofNat (valueFrom 0 bytes), ?_⟩
    rw [UInt16.toNat_ofNat_of_lt' hlt, ← h]
    exact (bigEndian_valueFrom bytes).symm

theorem exists_atEnd_iff {what : String} :
    (∃ u, (atEnd what).run bytes = .ok u) ↔ bytes.length = 0 := by
  cases bytes <;> simp [run, atEnd, Cursor.ofBytes]

theorem textAt_ne_layout (l : LayoutError) : textAt pool name index ≠ .error (.layout l) := by
  rw [textAt]
  cases pool.string? index.toNat <;> simp

theorem layout_error_iff_of_requiredLength {size : Nat}
    (h : requiredLength? name bytes = some size) :
    (bytes.length ≠ size →
      ∃ l, l.offset ≤ bytes.length ∧ ∀ pool, decode pool name bytes = .error (.layout l)) ∧
    (bytes.length = size → ∀ pool l, decode pool name bytes ≠ .error (.layout l)) := by
  rw [requiredLength?] at h
  split_ifs at h with hindexed hdeprecated hlines <;> obtain rfl := Option.some.inj h
  · rcases hindexed with rfl | rfl
    · have hdecode (pool : Pool) : decodePayload pool "SourceFile" bytes =
          layout (readIndex "sourcefile_index" "SourceFile attribute") bytes >>= fun index =>
          textAt pool "SourceFile" index >>= fun path => return .sourceFile path := by
        simp [decodePayload, decodeSourceFile]
      refine layout_error_iff_length hdecode (staysWithin_index _ _) ?_ exists_index_iff
      intro pool index l h
      obtain h | ⟨_, -, h⟩ := bind_eq_error_iff.mp h
      · exact textAt_ne_layout l h
      · cases h
    · have hdecode (pool : Pool) : decodePayload pool "Signature" bytes =
          layout (readIndex "signature_index" "Signature attribute") bytes >>= fun index =>
          textAt pool "Signature" index >>= fun text =>
          (Signature.ofDescriptor text).mapError .grammar >>= fun type =>
            return .signature type := by
        simp [decodePayload, decodeSignature]
      refine layout_error_iff_length hdecode (staysWithin_index _ _) ?_ exists_index_iff
      intro pool index l h
      obtain h | ⟨text, -, h⟩ := bind_eq_error_iff.mp h
      · exact textAt_ne_layout l h
      · cases hread : Signature.ofDescriptor text <;> rw [hread] at h <;> cases h
  · subst hdeprecated
    have hdecode (pool : Pool) : decodePayload pool "Deprecated" bytes =
        layout (atEnd "Deprecated attribute") bytes >>= fun _ => return .deprecated := by
      simp [decodePayload]
    refine layout_error_iff_length hdecode (staysWithin_atEnd _) ?_ exists_atEnd_iff
    intro pool a l h
    cases h
  · subst hlines
    have hdecode (pool : Pool) : decodePayload pool "LineNumberTable" bytes =
        layout readLineTable bytes >>= fun table => return .lineNumbers table := by
      simp [decodePayload]
    refine layout_error_iff_length hdecode staysWithin_lineTable ?_ exists_lineTable_iff
    intro pool a l h
    cases h

/-- Decoding fails only by a fault within the payload, by an index stored in it that does not lead
to what is needed, or, for a signature, by the text its index leads to. Where a layout is fixed or
counted, the length decides first: a payload of another length fails alike for every pool, and one
of the right length has no fault of its layout. Under any other name nothing fails. -/
theorem decode_failures (name : String) (bytes : List UInt8) :
    (∀ pool e, decode pool name bytes = .error e →
      (∃ l : LayoutError, e = .layout l ∧ l.offset ≤ bytes.length) ∨
      (∃ index expected, e = .unresolved name index expected ∧
        Dangling pool name bytes index expected ∧
        ∃ front back, bytes = front ++ bigEndian 2 index.toNat ++ back) ∨
      name = "Signature" ∧ ∃ (g : GrammarError) (index : UInt16), e = .grammar g ∧
        bytes = bigEndian 2 index.toNat ∧ pool.string? index.toNat = some g.text) ∧
    (∀ size, requiredLength? name bytes = some size →
      (bytes.length ≠ size →
        ∃ l, l.offset ≤ bytes.length ∧ ∀ pool, decode pool name bytes = .error (.layout l)) ∧
      (bytes.length = size → ∀ pool l, decode pool name bytes ≠ .error (.layout l))) ∧
    (name ∉ knownNames → ∀ pool, decode pool name bytes = .ok ⟨name, .unknown bytes⟩) := by
  refine ⟨fun pool e h => ?kinds, fun size h => layout_error_iff_of_requiredLength h,
    fun h pool => ?unknown⟩
  case kinds =>
    cases fails_of_decode h with
    | layout hoffset => exact .inl ⟨_, rfl, hoffset⟩
    | unresolved hdangling => exact .inr (.inl ⟨_, _, rfl, hdangling, hdangling.exists_stored⟩)
    | grammar hname hbytes htext => exact .inr (.inr ⟨hname, _, _, rfl, hbytes, htext⟩)
  case unknown =>
    have hother : decodePayload pool name bytes = .ok (.unknown bytes) := by
      simp only [knownNames, List.mem_cons, List.not_mem_nil, or_false, not_or] at h
      simp [decodePayload, h]
    rw [decode, hother]

/-- Its second entry leads to itself. -/
def unclearPool : Pool :=
  ⟨[some (.utf8 [] "TT;"), some (.string 2)]⟩

theorem decode_failures_unclear :
    (decode unclearPool "Signature" [0, 1] =
      .error (.grammar ⟨"TT;", 0, .unexpectedCharacter 'T'⟩) ∧
      ∃ index : UInt16, [0, 1] = bigEndian 2 index.toNat ∧
        unclearPool.string? index.toNat = some "TT;") ∧
    (decode unclearPool "SourceFile" [0, 2] = .error (.unresolved "SourceFile" 2 "Utf8") ∧
      Dangling unclearPool "SourceFile" [0, 2] 2 "Utf8" ∧
      ∃ front back, [0, 2] = front ++ bigEndian 2 (2 : UInt16).toNat ++ back) ∧
    (requiredLength? "LineNumberTable" [0, 1, 0] = some 6 ∧
      ∃ l : LayoutError, l.offset ≤ 3 ∧
        ∀ pool, decode pool "LineNumberTable" [0, 1, 0] = .error (.layout l)) ∧
    ∀ pool, decode pool "Stamp" [7] = .ok ⟨"Stamp", .unknown [7]⟩ := by
  have hsignature : decode unclearPool "Signature" [0, 1] =
      .error (.grammar ⟨"TT;", 0, .unexpectedCharacter 'T'⟩) := by rfl
  have hsource : decode unclearPool "SourceFile" [0, 2] =
      .error (.unresolved "SourceFile" 2 "Utf8") := by rfl
  have hlines : requiredLength? "LineNumberTable" [0, 1, 0] = some 6 := by rfl
  obtain ⟨hsignatures, -, -⟩ := decode_failures "Signature" [0, 1]
  obtain ⟨hsources, -, -⟩ := decode_failures "SourceFile" [0, 2]
  obtain ⟨-, hlengths, -⟩ := decode_failures "LineNumberTable" [0, 1, 0]
  obtain ⟨-, -, hunknown⟩ := decode_failures "Stamp" [7]
  refine ⟨⟨hsignature, ?_⟩, ⟨hsource, ?_⟩, ⟨hlines, (hlengths 6 hlines).1 (by decide)⟩,
    hunknown (by decide)⟩
  · obtain ⟨l, he, -⟩ | ⟨_, _, he, -⟩ | ⟨-, g, index, he, hbytes, htext⟩ :=
      hsignatures _ _ hsignature
    · cases he
    · cases he
    · cases he
      exact ⟨index, hbytes, htext⟩
  · obtain ⟨l, he, -⟩ | ⟨_, _, he, hdangling, hstored⟩ | ⟨hname, -⟩ := hsources _ _ hsource
    · cases he
    · cases he
      exact ⟨hdangling, hstored⟩
    · exact absurd hname (by decide)

end Attribute

end ClassAtlas
