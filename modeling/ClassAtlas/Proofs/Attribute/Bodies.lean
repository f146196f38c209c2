import ClassAtlas.Proofs.Attribute.Failures
import ClassAtlas.Proofs.Attribute.Nesting
import ClassAtlas.Proofs.ClassFile.Floating
import ClassAtlas.Proofs.Outcomes

/-! Bodies of methods whose inner attributes have other bytes. What is read of a body in front of
them and behind them stays the same, so that the bytes of the inner ones matter only for where a
fault behind them is found. -/

namespace ClassAtlas

namespace Read

variable {α : Type} {x : Read α} {P : α → Prop} {write : α → List UInt8}

theorem bind_congr_apply {β : Type} {x y : Read α} {c d : Cursor} (f : α → Read β) (h : x c = y d) :
    (x >>= f) c = (y >>= f) d := by
  simp only [Bind.bind, Read.bind, h]

theorem Recognizes.timesOnto_flatMap (hx : x.Recognizes fun a bs => P a ∧ bs = write a)
    {as : List α} (has : ∀ a ∈ as, P a) (n : Nat) (done : List α) (offset : Nat)
    (rest : List UInt8) :
    Read.timesOnto x (as.length + n) done ⟨offset, as.flatMap write ++ rest⟩ =
      Read.timesOnto x n (as.reverse ++ done) ⟨offset + (as.flatMap write).length, rest⟩ := by
  induction as generalizing done offset with
  | nil => simp
  | cons a as ih =>
    obtain ⟨ha, has⟩ := List.forall_mem_cons.mp has
    have hread : x ⟨offset, (a :: as).flatMap write ++ rest⟩ =
        .ok (a, ⟨offset + (write a).length, as.flatMap write ++ rest⟩) :=
      (hx _ _ _).mpr ⟨_, ⟨ha, rfl⟩, by simp, rfl⟩
    have hstep : Read.timesOnto x ((a :: as).length + n) done =
        x >>= fun a => Read.timesOnto x (as.length + n) (a :: done) := by
      rw [List.length_cons, Nat.add_right_comm]
      rfl
    rw [hstep, bind_of_ok _ hread, ih has]
    simp [Nat.add_assoc]

end Read

namespace CodeLayout

variable {l : CodeLayout} {count : UInt16} {rest : List UInt8}

/-- The attributes of a layout behind their announced number, and bytes behind them. -/
def inner (l : CodeLayout) (count : UInt16) (rest : List UInt8) : List UInt8 :=
  bigEndian 2 count.toNat ++ (l.attributes.flatMap RawAttribute.bytes ++ rest)

/-- A body that need not have as many attributes as it announces, nor end behind them. -/
def announcing (l : CodeLayout) (count : UInt16) (rest : List UInt8) : List UInt8 :=
  head l.maxStack l.maxLocals l.code (UInt16.ofNat l.rows.length) ++
    (l.rows.flatMap HandlerRow.bytes ++ l.inner count rest)

theorem announcing_own (h : l.Storable) :
    l.announcing (UInt16.ofNat l.attributes.length) [] = l.bytes := by
  have hrows :
      (UInt16.ofNat l.rows.length).toNat = l.rows.length := UInt16.toNat_ofNat_of_lt' h.rows
  have hcount : (UInt16.ofNat l.attributes.length).toNat = l.attributes.length :=
    UInt16.toNat_ofNat_of_lt' h.attributes.1
  simp [announcing, inner, head, bytes, countedBytes, hrows, hcount]

theorem length_announcing (l : CodeLayout) (count : UInt16) (rest : List UInt8) :
    (l.announcing count rest).length = l.bytes.length + rest.length := by
  simp [announcing, inner, head, bytes, countedBytes]
  omega

theorem length_before (l : CodeLayout) : 10 + l.code.length + 8 * l.rows.length +
    (2 + (l.attributes.flatMap RawAttribute.bytes).length) = l.bytes.length := by
  have hcounted := length_countedBytes l.attributes
  simp only [countedBytes, List.length_append, bigEndian_length] at hcounted
  rw [length_bytes]
  omega

end CodeLayout

namespace Attribute

open Read

variable {pool : Pool} {l : CodeLayout} {count : UInt16} {rest : List UInt8}

/-- The handlers that rows stand for, or the first of their indices that leads to no class name. -/
def followed (pool : Pool) : List HandlerRow → Except UInt16 (List Handler)
  | [] => .ok []
  | row :: rows =>
    match catchType pool row.catchIndex with
    | none => .error row.catchIndex
    | some caught => (followed pool rows).map (row.handler caught :: ·)

theorem readHandlers_rows (pool : Pool) (rows : List HandlerRow) (done : List Handler)
    (offset : Nat) (back : List UInt8) : ∃ d,
      readHandlers pool rows.length done ⟨offset, rows.flatMap HandlerRow.bytes ++ back⟩ =
        .ok ((followed pool rows).map (done.reverse ++ ·), d) ∧
      ∀ handlers, followed pool rows = .ok handlers → d = ⟨offset + 8 * rows.length, back⟩ := by
  induction rows generalizing done offset with
  | nil => exact ⟨_, by simp [readHandlers, followed, Except.map]; rfl, fun _ _ => by simp⟩
  | cons row rows ih =>
    have hrow : readRow ⟨offset, (row :: rows).flatMap HandlerRow.bytes ++ back⟩ =
        .ok (row, ⟨offset + 8, rows.flatMap HandlerRow.bytes ++ back⟩) :=
      (recognizes_row _ _ _).mpr
        ⟨row.bytes, ⟨trivial, rfl⟩, by simp, by simp [HandlerRow.length_bytes]⟩
    rw [List.length_cons, readHandlers_succ, bind_of_ok _ hrow, followed]
    cases hcatch : catchType pool row.catchIndex with
    | none => exact ⟨_, rfl, fun _ h => by cases h⟩
    | some caught =>
      obtain ⟨d, hread, hd⟩ := ih (row.handler caught :: done) (offset + 8)
      refine ⟨d, ?_, fun handlers h => ?_⟩
      · simp only [hread]
        cases followed pool rows <;> simp [Except.map]
      · cases hfollowed : followed pool rows with
        | error index => simp [hfollowed, Except.map] at h
        | ok hs =>
          rw [hd hs hfollowed, Nat.mul_add, Nat.add_assoc, Nat.add_comm 8]

/-- The attributes of a body, behind which nothing stands. -/
def readInner : Read (List RawAttribute) := do
  let count ← u16 "attributes_count"
  let raw ← readNested count.toNat []
  atEnd "Code attribute"
  return raw

def readLast (n : Nat) : Read (List RawAttribute) := do
  let raw ← times n ClassFile.readAttribute
  atEnd "Code attribute"
  return raw

theorem floats_attribute : ClassFile.readAttribute.Floats :=
  (takes_u16 _).floats.bind fun _ => (takes_u32 _).floats.bind fun size =>
    (takes_bytes size.toNat _).floats.bind fun _ => floats_pure _

theorem floats_last (n : Nat) : (readLast n).Floats :=
  (floats_attribute.timesOnto n []).bind fun _ => (floats_atEnd _).bind fun _ => floats_pure _

theorem readInner_inner (rest : List UInt8) {n : Nat} (h : l.Storable)
    (hcount : count.toNat = l.attributes.length + n) (offset : Nat) :
    readInner ⟨offset, l.inner count rest⟩ =
      (readLast n >>= fun more => return l.attributes ++ more)
        ⟨offset + (2 + (l.attributes.flatMap RawAttribute.bytes).length), rest⟩ := by
  have hnumber : u16 "attributes_count" ⟨offset, l.inner count rest⟩ =
      .ok (count, ⟨offset + 2, l.attributes.flatMap RawAttribute.bytes ++ rest⟩) :=
    (recognizes_u16 _ _ _ _).mpr ⟨_, rfl, rfl, rfl⟩
  have hread :
      readNested count.toNat [] ⟨offset + 2, l.attributes.flatMap RawAttribute.bytes ++ rest⟩ =
        (times n ClassFile.readAttribute >>= fun more => return l.attributes ++ more)
          ⟨offset + 2 + (l.attributes.flatMap RawAttribute.bytes).length, rest⟩ := by
    rw [readNested_eq_timesOnto, hcount,
      ClassFile.recognizes_attribute.timesOnto_flatMap h.attributes.2,
      timesOnto_eq]
    simp
  rw [readInner, bind_of_ok _ hnumber, bind_congr_apply _ hread, readLast, Nat.add_assoc]
  simp only [bind_assoc, pure_bind]

/-- The parts in front of the handler rows of a body: stack size, locals, bytecode, number of
rows. -/
def readHead : Read (UInt16 × UInt16 × List UInt8 × UInt16) := do
  let maxStack ← u16 "max_stack"
  let maxLocals ← u16 "max_locals"
  let size ← u32 "code_length"
  let code ← bytes size.toNat "bytecode"
  return (maxStack, maxLocals, code, ← u16 "exception_table_length")

theorem recognizes_head : readHead.Recognizes fun h bs =>
    h.2.2.1.length < 2 ^ 32 ∧ bs = CodeLayout.head h.1 h.2.1 h.2.2.1 h.2.2.2 := by
  refine ((recognizes_u16 _).bind fun maxStack => (recognizes_u16 _).bind fun maxLocals =>
    (recognizes_u32 _).bind fun size => (recognizes_bytes size.toNat _).bind fun code =>
    (recognizes_u16 _).map).congr fun h bs => ?_
  obtain ⟨maxStack, maxLocals, code, count⟩ := h
  constructor
  · rintro ⟨_, _, _, rfl,
      ⟨_, _, _, rfl, ⟨size, _, _, rfl, ⟨_, _, _, ⟨hsize, rfl⟩, ⟨_, rfl, he⟩, rfl⟩, rfl⟩,
      rfl⟩, rfl⟩
    cases he
    have hlt := size.toNat_lt
    exact ⟨by simpa [hsize] using hlt, by simp [CodeLayout.head, hsize]⟩
  · rintro ⟨hcode, rfl⟩
    have hsize : (UInt32.ofNat code.length).toNat = code.length := UInt32.toNat_ofNat_of_lt' hcode
    exact ⟨maxStack, _, _, rfl, ⟨maxLocals, _, _, rfl, ⟨UInt32.ofNat code.length, _, _, rfl,
      ⟨code, _, _, ⟨hsize.symm, rfl⟩, ⟨count, rfl, rfl⟩, rfl⟩, rfl⟩, rfl⟩,
      by simp [CodeLayout.head, hsize]⟩

/-- What is read behind the rows of a body, if these lead somewhere. -/
def readBehind (pool : Pool) (maxStack maxLocals : UInt16) (code : List UInt8) :
    Except UInt16 (List Handler) → Read (Except UInt16 Code)
  | .error index => return .error index
  | .ok handlers => do
    let raw ← readInner
    return .ok ⟨maxStack, maxLocals, code, handlers, ⟨pool, raw⟩⟩

theorem readCode_eq_head : readCode pool = readHead >>= fun h =>
    readHandlers pool h.2.2.2.toNat [] >>= readBehind pool h.1 h.2.1 h.2.2.1 := by
  simp only [readCode, readHead, bind_assoc, pure_bind]
  refine bind_congr fun maxStack => bind_congr fun maxLocals => bind_congr fun size =>
    bind_congr fun code => bind_congr fun rows => bind_congr fun read => ?_
  cases read with
  | error index => rfl
  | ok handlers => simp only [readBehind, readInner, bind_assoc, pure_bind]

theorem readHead_announcing (h : l.Storable) : readHead (.ofBytes (l.announcing count rest)) =
    .ok ((l.maxStack, l.maxLocals, l.code, UInt16.ofNat l.rows.length),
      ⟨10 + l.code.length, l.rows.flatMap HandlerRow.bytes ++ l.inner count rest⟩) := by
  have hlength (n : UInt16) :
      (CodeLayout.head l.maxStack l.maxLocals l.code n).length = 10 + l.code.length := by
    simp [CodeLayout.head]
    omega
  exact (recognizes_head _ _ _).mpr ⟨_, ⟨h.code, rfl⟩, rfl, by simp [hlength, Cursor.ofBytes]⟩

/-- Behind the rows of a body all that is read is what comes next after the attributes of the
layout. -/
theorem run_readCode_announcing (pool : Pool) (rest : List UInt8) {n : Nat} (h : l.Storable)
    (hcount : count.toNat = l.attributes.length + n) :
    (readCode pool).run (l.announcing count rest) =
      match followed pool l.rows with
      | .error index => .ok (.error index)
      | .ok handlers =>
        match (readLast n).run rest with
        | .ok more => .ok (.ok ({ l with attributes := l.attributes ++ more }.body pool handlers))
        | .error e => .error (e.later l.bytes.length) := by
  have hrows :
      (UInt16.ofNat l.rows.length).toNat = l.rows.length := UInt16.toNat_ofNat_of_lt' h.rows
  obtain ⟨d, hread, hd⟩ := readHandlers_rows pool l.rows [] (10 + l.code.length)
    (l.inner count rest)
  rw [run, readCode_eq_head, bind_of_ok _ (readHead_announcing h)]
  simp only [hrows]
  rw [bind_of_ok _ hread]
  cases hfollowed : followed pool l.rows with
  | error index => rfl
  | ok handlers =>
    have hinner := readInner_inner rest h hcount (10 + l.code.length + 8 * l.rows.length)
    rw [CodeLayout.length_before] at hinner
    simp only [Except.map, hd handlers hfollowed, readBehind]
    rw [bind_congr_apply _ hinner, run]
    cases hlast : readLast n (.ofBytes rest) with
    | error e =>
      have hlater : readLast n ⟨l.bytes.length, rest⟩ = .error (e.later l.bytes.length) :=
        (floats_last n).failure l.bytes.length hlast
      rw [bind_of_error _ (bind_of_error _ hlater)]
    | ok r =>
      have hlater : readLast n ⟨l.bytes.length, rest⟩ = .ok (r.1, r.2.later l.bytes.length) :=
        (floats_last n).result l.bytes.length hlast
      rw [bind_of_ok _ (bind_of_ok _ hlater)]
      rfl

/-- Byte strings that are laid out as bodies. Their rows may lead nowhere. -/
def IsBody (bytes : List UInt8) : Prop :=
  ∃ l : CodeLayout, l.Storable ∧ bytes = l.bytes

theorem not_isBody_of_run_error {bytes : List UInt8} {e : LayoutError}
    (h : (readCode pool).run bytes = .error e) : ¬ IsBody bytes := by
  rintro ⟨l, hl, rfl⟩
  have hcount : (UInt16.ofNat l.attributes.length).toNat = l.attributes.length + 0 :=
    UInt16.toNat_ofNat_of_lt' hl.attributes.1
  have hnone : (readLast 0).run [] = .ok [] := rfl
  rw [← CodeLayout.announcing_own hl, run_readCode_announcing pool [] hl hcount, hnone] at h
  cases hfollowed : followed pool l.rows <;> simp [hfollowed] at h

/-- The same byte string twice, or two that begin like bodies and differ in the bytes of attributes
within those alone. -/
inductive AlikeOutside : List UInt8 → List UInt8 → Prop
  | same (bytes : List UInt8) : AlikeOutside bytes bytes
  | inner {l : CodeLayout} {attributes : List RawAttribute} {count : UInt16} {rest : List UInt8} :
    l.Storable → { l with attributes }.Storable →
    attributes.map RawAttribute.nameIndex = l.attributes.map RawAttribute.nameIndex →
    l.attributes.length ≤ count.toNat →
    AlikeOutside (l.announcing count rest) ({ l with attributes }.announcing count rest)

/-- One fault of two byte strings that are no bodies, as far apart as their ends. -/
structure Apart (bytes bytes' : List UInt8) (e e' : LayoutError) : Prop where
  fault : e'.fault = e.fault
  offset : e.offset + bytes'.length = e'.offset + bytes.length
  broken : ¬ IsBody bytes
  broken' : ¬ IsBody bytes'

inductive Moved : Option (List UInt8) → Option (List UInt8) → DecodeError → DecodeError → Prop
  | same {body body' : Option (List UInt8)} (e : DecodeError) : Moved body body' e e
  | apart {bytes bytes' : List UInt8} {e e' : LayoutError} : Apart bytes bytes' e e' →
    Moved (some bytes) (some bytes') (.layout e) (.layout e')

/-- Bodies with the same parts but for the attributes within them. -/
inductive SameParts : Attribute → Attribute → Prop
  | body (c : Code) (table : AttributeTable) :
    SameParts ⟨"Code", .code c⟩ ⟨"Code", .code { c with table }⟩

theorem decode_code_eq (pool : Pool) (bytes : List UInt8) : decode pool "Code" bytes =
    match (readCode pool).run bytes with
    | .error e => .error (.layout e)
    | .ok (.error index) => .error (.unresolved "Code" index "Class -> Utf8")
    | .ok (.ok code) => .ok ⟨"Code", .code code⟩ := by
  have hpayload : decodePayload pool "Code" bytes = decodeCode pool bytes := by simp [decodePayload]
  rw [decode, hpayload, decodeCode, layout]
  rcases (readCode pool).run bytes with e | index | code <;> rfl

theorem decode_code_alike {bytes bytes' : List UInt8} (h : AlikeOutside bytes bytes') :
    Alike (Moved (some bytes) (some bytes')) SameParts
      (decode pool "Code" bytes) (decode pool "Code" bytes') := by
  cases h with
  | same =>
    rw [decode_code_eq]
    rcases (readCode pool).run bytes with e | index | code
    · exact .error (.same _)
    · exact .error (.same _)
    · exact .ok (.body code code.table)
  | @inner l attributes count rest hl hl' hnames hcount =>
    have hlength : attributes.length = l.attributes.length := by
      simpa using congrArg List.length hnames
    have hrun := run_readCode_announcing pool rest hl
      (Nat.add_sub_of_le hcount).symm
    have hrun' := run_readCode_announcing pool rest hl'
      (Nat.add_sub_of_le (hlength.trans_le hcount)).symm
    rw [hlength] at hrun'
    rw [decode_code_eq, decode_code_eq]
    -- Both have the same rows and the same rest, so both get as far, and blame it at the same place
    -- in it.
    cases hfollowed : followed pool l.rows with
    | error index =>
      rw [hrun, hrun']
      simp only [hfollowed]
      exact .error (.same _)
    | ok handlers =>
      cases hlast : (readLast (count.toNat - l.attributes.length)).run rest with
      | ok more =>
        rw [hrun, hrun']
        simp only [hfollowed, hlast]
        exact .ok (.body _ _)
      | error e =>
        simp only [hfollowed, hlast] at hrun hrun'
        have hbroken := not_isBody_of_run_error hrun
        have hbroken' := not_isBody_of_run_error hrun'
        rw [hrun, hrun']
        refine .error (.apart ⟨rfl, ?_, hbroken, hbroken'⟩)
        simp only [CodeLayout.length_announcing, LayoutError.later]
        omega

end Attribute

end ClassAtlas
