import ClassAtlas.Attribute.Layout
import ClassAtlas.Proofs.ClassFile.Serialization

/-! The byte strings that are bodies of methods. A body reads like a plain layout, whose rows have
to lead to classes and behind which nothing may stand. -/

namespace ClassAtlas

/-- A row of a handler table as stored. -/
structure HandlerRow where
  startPc : UInt16
  endPc : UInt16
  handlerPc : UInt16
  catchIndex : UInt16

namespace HandlerRow

def bytes (row : HandlerRow) : List UInt8 :=
  bigEndian 2 row.startPc.toNat ++ bigEndian 2 row.endPc.toNat ++
    bigEndian 2 row.handlerPc.toNat ++ bigEndian 2 row.catchIndex.toNat

theorem length_bytes (row : HandlerRow) : row.bytes.length = 8 := by
  simp [bytes, bigEndian_length]

def handler (row : HandlerRow) (caught : Option String) : Handler :=
  ⟨row.startPc.toNat, row.endPc.toNat, row.handlerPc.toNat, caught⟩

/-- What a catch index stands for: zero for no class, any other one for the name it leads to. -/
inductive Catches (pool : Pool) : UInt16 → Option String → Prop
  | all : Catches pool 0 none
  | named {index : UInt16} {nameIndex : Int} {raw : List UInt8} {name : String} : index ≠ 0 →
    pool.get? index.toNat = some (.classRef nameIndex) →
    pool.get? nameIndex = some (.utf8 raw name) → Catches pool index (some name)

structure StandsFor (pool : Pool) (row : HandlerRow) (h : Handler) : Prop where
  startPc : h.startPc = row.startPc.toNat
  endPc : h.endPc = row.endPc.toNat
  handlerPc : h.handlerPc = row.handlerPc.toNat
  catches : Catches pool row.catchIndex h.catchType

end HandlerRow

/-- The parts of a body as stored. -/
structure CodeLayout where
  maxStack : UInt16
  maxLocals : UInt16
  code : List UInt8
  rows : List HandlerRow
  attributes : List RawAttribute

namespace CodeLayout

def bytes (l : CodeLayout) : List UInt8 :=
  bigEndian 2 l.maxStack.toNat ++ bigEndian 2 l.maxLocals.toNat ++
    (bigEndian 4 l.code.length ++ l.code) ++ countedBytes HandlerRow.bytes l.rows ++
    countedBytes RawAttribute.bytes l.attributes

structure Storable (l : CodeLayout) : Prop where
  code : l.code.length < 2 ^ 32
  rows : l.rows.length < 2 ^ 16
  attributes : CountedStorable RawAttribute.Storable l.attributes

def body (pool : Pool) (handlers : List Handler) (l : CodeLayout) : Code :=
  ⟨l.maxStack, l.maxLocals, l.code, handlers, ⟨pool, l.attributes⟩⟩

end CodeLayout

namespace Pool

theorem className_eq_ok_iff {pool : Pool} {index : Int} {name : String} :
    pool.className index = .ok name ↔ ∃ nameIndex raw,
      pool.get? index = some (.classRef nameIndex) ∧
        pool.get? nameIndex = some (.utf8 raw name) := by
  constructor
  · intro h
    unfold className at h
    split at h
    · split at h
      · rename_i nameIndex hclass _ raw text hname
        obtain rfl := Except.ok.inj h
        exact ⟨nameIndex, raw, hclass, hname⟩
      · cases h
    · cases h
  · rintro ⟨nameIndex, raw, hclass, hname⟩
    simp [className, hclass, hname]

end Pool

namespace Read

variable {α : Type}

theorem timesOnto_eq (x : Read α) (n : Nat) (done : List α) :
    timesOnto x n done = times n x >>= fun as => return done.reverse ++ as := by
  induction n generalizing done with
  | zero =>
    have hone : times 0 x = return [] := rfl
    rw [hone, pure_bind, List.append_nil]
    rfl
  | succ n ih =>
    have hstep (done : List α) :
        timesOnto x (n + 1) done = x >>= fun a => timesOnto x n (a :: done) := rfl
    rw [times, hstep, hstep]
    simp [ih]

theorem times_succ (x : Read α) (n : Nat) :
    times (n + 1) x = x >>= fun a => times n x >>= fun as => return a :: as := by
  have hstep : times (n + 1) x = x >>= fun a => timesOnto x n [a] := rfl
  simp [hstep, timesOnto_eq]

theorem run_eq_ok_iff {x : Read α} {bytes : List UInt8} {a : α} :
    x.run bytes = .ok a ↔ ∃ c', x (.ofBytes bytes) = .ok (a, c') := by
  rw [run]
  cases x (.ofBytes bytes) with
  | error e => simp
  | ok r =>
    obtain ⟨b, c'⟩ := r
    simp

end Read

namespace Attribute

open Read

variable {pool : Pool}

theorem catchType_eq_some_iff {index : UInt16} {caught : Option String} :
    catchType pool index = some caught ↔ HandlerRow.Catches pool index caught := by
  by_cases hzero : index = 0
  · subst hzero
    simp only [catchType, if_true, Option.some.injEq]
    constructor
    · rintro rfl
      exact .all
    · intro h
      cases h with
      | all => rfl
      | named hne => contradiction
  · simp only [catchType, hzero, if_false]
    constructor
    · intro h
      split at h
      · rename_i name hname
        obtain ⟨nameIndex, raw, hclass, hutf8⟩ := Pool.className_eq_ok_iff.mp hname
        obtain rfl := Option.some.inj h
        exact .named hzero hclass hutf8
      · cases h
    · intro h
      cases h with
      | all => contradiction
      | named _ hclass hutf8 => rw [Pool.className_eq_ok_iff.mpr ⟨_, _, hclass, hutf8⟩]

def readRow : Read HandlerRow := do
  let startPc ← u16 "start_pc"
  let endPc ← u16 "end_pc"
  let handlerPc ← u16 "handler_pc"
  return ⟨startPc, endPc, handlerPc, ← u16 "catch_type"⟩

/-- Bodies as stored, without their rows being followed. -/
def readLayout : Read CodeLayout := do
  let maxStack ← u16 "max_stack"
  let maxLocals ← u16 "max_locals"
  let size ← u32 "code_length"
  let code ← bytes size.toNat "bytecode"
  let rows ← counted "exception_table_length" readRow
  return ⟨maxStack, maxLocals, code, rows, ← ClassFile.readAttributes⟩

theorem recognizes_row : readRow.Recognizes fun row bs => True ∧ bs = row.bytes := by
  refine ((recognizes_u16 _).bind fun startPc => (recognizes_u16 _).bind fun endPc =>
    (recognizes_u16 _).bind fun handlerPc => (recognizes_u16 _).map).congr fun row bs => ?_
  constructor
  · rintro ⟨startPc, _, _, rfl, ⟨endPc, _, _, rfl, ⟨handlerPc, _, _, rfl, ⟨index, rfl, rfl⟩, rfl⟩,
      rfl⟩, rfl⟩
    exact ⟨trivial, by simp [HandlerRow.bytes]⟩
  · rintro ⟨-, rfl⟩
    exact ⟨row.startPc, _, _, rfl, ⟨row.endPc, _, _, rfl, ⟨row.handlerPc, _, _, rfl,
      ⟨row.catchIndex, rfl, rfl⟩, rfl⟩, rfl⟩, by simp [HandlerRow.bytes]⟩

theorem recognizes_layout : readLayout.Recognizes fun l bs => l.Storable ∧ bs = l.bytes := by
  refine ((recognizes_u16 _).bind fun maxStack => (recognizes_u16 _).bind fun maxLocals =>
    (recognizes_u32 _).bind fun size => (recognizes_bytes size.toNat _).bind fun code =>
    (recognizes_row.counted _).bind fun rows => ClassFile.recognizes_attributes.map).congr
    fun l bs => ?_
  constructor
  · rintro ⟨maxStack, _, _, rfl, ⟨maxLocals, _, _, rfl, ⟨size, _, _, rfl, ⟨code, _, _, ⟨hsize, rfl⟩,
      ⟨rows, _, _, ⟨⟨hrows, -⟩, rfl⟩, ⟨attributes, ⟨hattributes, rfl⟩, rfl⟩, rfl⟩, rfl⟩, rfl⟩, rfl⟩,
      rfl⟩
    refine ⟨⟨?_, hrows, hattributes⟩, by simp [CodeLayout.bytes, countedBytes, hsize]⟩
    have hlt := size.toNat_lt
    simpa [hsize] using hlt
  · rintro ⟨⟨hcode, hrows, hattributes⟩, rfl⟩
    have hsize : (UInt32.ofNat l.code.length).toNat = l.code.length :=
      UInt32.toNat_ofNat_of_lt' hcode
    exact ⟨l.maxStack, _, _, rfl, ⟨l.maxLocals, _, _, rfl, ⟨UInt32.ofNat l.code.length, _, _, rfl,
      ⟨l.code, _, _, ⟨hsize.symm, rfl⟩, ⟨l.rows, _, _, ⟨⟨hrows, fun _ _ => trivial⟩, rfl⟩,
      ⟨l.attributes, ⟨hattributes, rfl⟩, rfl⟩, rfl⟩, rfl⟩, rfl⟩, rfl⟩,
      by simp [CodeLayout.bytes, countedBytes, hsize]⟩

theorem readNested_eq_timesOnto (n : Nat) (done : List RawAttribute) :
    readNested n done = timesOnto ClassFile.readAttribute n done := by
  induction n generalizing done with
  | zero => rfl
  | succ n ih =>
    have hstep : timesOnto ClassFile.readAttribute (n + 1) done =
        ClassFile.readAttribute >>= fun a => timesOnto ClassFile.readAttribute n (a :: done) := rfl
    rw [hstep]
    simp only [readNested, ClassFile.readAttribute, bind_assoc, pure_bind, ih]

theorem readNested_counted :
    (u16 "attributes_count" >>= fun n => readNested n.toNat []) = ClassFile.readAttributes := by
  simp only [readNested_eq_timesOnto]
  rfl

theorem readHandlers_succ (n : Nat) (done : List Handler) :
    readHandlers pool (n + 1) done = readRow >>= fun row =>
      match catchType pool row.catchIndex with
      | none => return .error row.catchIndex
      | some caught => readHandlers pool n (row.handler caught :: done) := by
  simp only [readHandlers, readRow, bind_assoc, pure_bind]
  rfl

/-- Handlers are read exactly where rows can be that stand for them. -/
theorem readHandlers_eq_ok_iff {n : Nat} {done handlers : List Handler} {c c' : Cursor} :
    readHandlers pool n done c = .ok (.ok handlers, c') ↔
      ∃ rows hs, times n readRow c = .ok (rows, c') ∧
        List.Forall₂ (HandlerRow.StandsFor pool) rows hs ∧ handlers = done.reverse ++ hs := by
  -- By induction on the number of rows; the handlers of those before them are in `done`.
  induction n generalizing done c with
  | zero =>
    constructor
    · intro h
      cases h
      exact ⟨[], [], rfl, .nil, by simp⟩
    · rintro ⟨rows, hs, hrows, hstand, rfl⟩
      cases hrows
      cases hstand
      rw [List.append_nil]
      rfl
  | succ n ih =>
    rw [readHandlers_succ, times_succ]
    simp only [bind_eq_ok_iff]
    constructor
    · rintro ⟨row, d, hrow, h⟩
      cases hcatch : catchType pool row.catchIndex with
      | none =>
        rw [hcatch] at h
        cases h
      | some caught =>
        rw [hcatch] at h
        obtain ⟨rows, hs, hrows, hstand, rfl⟩ := ih.mp h
        have hfirst : row.StandsFor pool (row.handler caught) :=
          ⟨rfl, rfl, rfl, catchType_eq_some_iff.mp hcatch⟩
        exact ⟨row :: rows, _ :: hs, ⟨row, d, hrow, rows, c', hrows, rfl⟩,
          .cons hfirst hstand, by simp⟩
    · rintro ⟨_, _, ⟨row, d, hrow, rows, d', hrows, hpure⟩, hstand, rfl⟩
      cases hpure
      cases hstand with
      | @cons _ h _ hs hfirst hstand =>
        have hhandler : row.handler h.catchType = h := by
          simp [HandlerRow.handler, ← hfirst.startPc, ← hfirst.endPc, ← hfirst.handlerPc]
        have hread : readHandlers pool n (h :: done) d = .ok (.ok (done.reverse ++ h :: hs), c') :=
          ih.mpr ⟨rows, hs, hrows, hstand, by simp⟩
        refine ⟨row, d, hrow, ?_⟩
        simpa [catchType_eq_some_iff.mpr hfirst.catches, hhandler] using hread

/-- A body is read exactly where its parts can be and nothing is left behind them. -/
theorem readCode_eq_ok_iff {code : Code} {c c' : Cursor} :
    readCode pool c = .ok (.ok code, c') ↔ ∃ l handlers,
      (readLayout >>= fun l => atEnd "Code attribute" >>= fun _ => return l) c = .ok (l, c') ∧
        List.Forall₂ (HandlerRow.StandsFor pool) l.rows handlers ∧ code = l.body pool handlers := by
  have hcounted : counted "exception_table_length" readRow =
      u16 "exception_table_length" >>= fun n => times n.toNat readRow := rfl
  simp only [readCode, readLayout, hcounted, ← readNested_counted, bind_assoc, pure_bind,
    bind_eq_ok_iff]
  constructor
  · rintro ⟨maxStack, c₁, h₁, maxLocals, c₂, h₂, size, c₃, h₃, bytes, c₄, h₄, n, c₅, h₅,
      read, c₆, h₆, h⟩
    cases read with
    | error index => cases h
    | ok handlers =>
      simp only [bind_eq_ok_iff] at h
      obtain ⟨count, c₇, h₇, raw, c₈, h₈, _, c₉, h₉, hpure⟩ := h
      cases hpure
      obtain ⟨rows, _, hrows, hstand, rfl⟩ := readHandlers_eq_ok_iff.mp h₆
      exact ⟨⟨maxStack, maxLocals, bytes, rows, raw⟩, _,
        ⟨maxStack, c₁, h₁, maxLocals, c₂, h₂, size, c₃,
        h₃, bytes, c₄, h₄, n, c₅, h₅, rows, c₆, hrows, count, c₇, h₇, raw, c₈, h₈, (), c', h₉, rfl⟩,
        hstand, rfl⟩
  · rintro ⟨l, handlers,
      ⟨maxStack, c₁, h₁, maxLocals, c₂, h₂, size, c₃, h₃, bytes, c₄, h₄, n, c₅, h₅,
      rows, c₆, hrows, count, c₇, h₇, raw, c₈, h₈, _, c₉, h₉, hpure⟩, hstand, rfl⟩
    cases hpure
    have h₆ : readHandlers pool n.toNat [] c₅ = .ok (.ok handlers, c₆) :=
      readHandlers_eq_ok_iff.mpr ⟨rows, handlers, hrows, hstand, rfl⟩
    refine ⟨maxStack, c₁, h₁, maxLocals, c₂, h₂, size, c₃, h₃, bytes, c₄, h₄, n, c₅, h₅,
      .ok handlers, c₆, h₆, ?_⟩
    simp only [bind_eq_ok_iff]
    exact ⟨count, c₇, h₇, raw, c₈, h₈, (), c', h₉, rfl⟩

theorem run_readCode_eq_ok_iff {code : Code} {bytes : List UInt8} :
    (readCode pool).run bytes = .ok (.ok code) ↔
      ∃ (l : CodeLayout) (handlers : List Handler), (l.Storable ∧ bytes = l.bytes) ∧
      List.Forall₂ (HandlerRow.StandsFor pool) l.rows handlers ∧ code = l.body pool handlers := by
  simp only [← recognizes_layout.run_atEnd_iff "Code attribute", run_eq_ok_iff, readCode_eq_ok_iff]
  constructor
  · rintro ⟨c', l, handlers, hread, hstand, hcode⟩
    exact ⟨l, handlers, ⟨c', hread⟩, hstand, hcode⟩
  · rintro ⟨l, handlers, ⟨c', hread⟩, hstand, hcode⟩
    exact ⟨c', l, handlers, hread, hstand, hcode⟩

theorem decode_code_eq_ok_iff {bytes : List UInt8} {a : Attribute} :
    decode pool "Code" bytes = .ok a ↔ ∃ (l : CodeLayout) (handlers : List Handler),
      l.Storable ∧ bytes = l.bytes ∧ List.Forall₂ (HandlerRow.StandsFor pool) l.rows handlers ∧
        a = ⟨"Code", .code (l.body pool handlers)⟩ := by
  have hdecode : decode pool "Code" bytes = .ok a ↔
      ∃ code, (readCode pool).run bytes = .ok (.ok code) ∧ a = ⟨"Code", .code code⟩ := by
    have hpayload :
        decodePayload pool "Code" bytes = decodeCode pool bytes := by simp [decodePayload]
    rw [decode, hpayload, decodeCode, layout]
    cases (readCode pool).run bytes with
    | error e => simp [Except.mapError, Bind.bind, Except.bind]
    | ok read =>
      cases read with
      | error index =>
        simp [Except.mapError, Bind.bind, Except.bind, throw, throwThe, MonadExceptOf.throw]
      | ok code => simp [Except.mapError, Bind.bind, Except.bind, Pure.pure, Except.pure, eq_comm]
  rw [hdecode]
  constructor
  · rintro ⟨_, hread, rfl⟩
    obtain ⟨l, handlers, ⟨hl, hbytes⟩, hstand, rfl⟩ := run_readCode_eq_ok_iff.mp hread
    exact ⟨l, handlers, hl, hbytes, hstand, rfl⟩
  · rintro ⟨l, handlers, hl, hbytes, hstand, rfl⟩
    exact ⟨_, run_readCode_eq_ok_iff.mpr ⟨l, handlers, ⟨hl, hbytes⟩, hstand, rfl⟩, rfl⟩

end Attribute

end ClassAtlas
