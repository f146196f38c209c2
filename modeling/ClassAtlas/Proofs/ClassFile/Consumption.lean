import ClassAtlas.Proofs.ClassFile.Forwards

/-! Calls on one cursor after the other, failed ones included. The reads that succeed take the bytes
from the start on without a gap, and nothing else moves the cursor. -/

namespace ClassAtlas.FreeCursor

/-- What a read asks for. -/
inductive Item where
  | u8
  | u16
  | u32
  | bytes (size : Nat)

/-- What a read gives. -/
inductive Value where
  | u8 (n : UInt8)
  | u16 (n : UInt16)
  | u32 (n : UInt32)
  | bytes (bs : List UInt8)

/-- The bytes that a value is read from; those of a number with the highest first. -/
def Value.source : Value → List UInt8
  | u8 n => bigEndian 1 n.toNat
  | u16 n => bigEndian 2 n.toNat
  | u32 n => bigEndian 4 n.toNat
  | bytes bs => bs

namespace Item

def size : Item → Nat
  | u8 => 1
  | u16 => 2
  | u32 => 4
  | bytes size => size

/-- Reads the item, which errors call `what`. -/
def ask (what : String) : Item → FreeRead Value
  | u8 => do return .u8 (← FreeCursor.u8 what)
  | u16 => do return .u16 (← FreeCursor.u16 what)
  | u32 => do return .u32 (← FreeCursor.u32 what)
  | bytes size => do return .bytes (← FreeCursor.take size what)

/-- The same for the cursor of the decoders. -/
def read (what : String) : Item → Read Value
  | u8 => do return .u8 (← Read.u8 what)
  | u16 => do return .u16 (← Read.u16 what)
  | u32 => do return .u32 (← Read.u32 what)
  | bytes size => do return .bytes (← Read.bytes size what)

end Item

/-- A read, or the check that no bytes are left. -/
inductive Call where
  | item (item : Item) (what : String)
  | atEnd (what : String)

/-- The cursor behind a call. -/
def next (c : FreeCursor) : Call → FreeCursor
  | .item item what => after (item.ask what) c
  | .atEnd what => after (FreeCursor.atEnd what) c

/-- What a call reads: one value or, where it fails or only checks, none. -/
def gained (c : FreeCursor) : Call → List (Item × Value)
  | .item item what =>
    match answer (item.ask what) c with
    | .ok value => [(item, value)]
    | .error _ => []
  | .atEnd _ => []

def run (c : FreeCursor) (calls : List Call) : FreeCursor :=
  calls.foldl next c

/-- What the successful reads among some calls give, each with what it asked for. -/
def reads (c : FreeCursor) : List Call → List (Item × Value)
  | [] => []
  | call :: calls => c.gained call ++ (c.next call).reads calls

variable {c d : FreeCursor} {what : String}

theorem follows_ask (item : Item) (what : String) (h : c.Inside) :
    c.Follows (item.ask what) (item.read what) := by
  cases item with
  | u8 => exact (follows_number (Read.takes_u8 what) h).map Value.u8
  | u16 => exact (follows_number (Read.takes_u16 what) h).map Value.u16
  | u32 => exact (follows_number (Read.takes_u32 what) h).map Value.u32
  | bytes size => exact (follows_take size what h).map Value.bytes

theorem takes_read (item : Item) (what : String) : (item.read what).Takes what item.size := by
  cases item with
  | u8 => exact (Read.takes_u8 what).map Value.u8
  | u16 => exact (Read.takes_u16 what).map Value.u16
  | u32 => exact (Read.takes_u32 what).map Value.u32
  | bytes size => exact (Read.takes_bytes size what).map Value.bytes

theorem source_of_read {item : Item} {value : Value} {m n : Cursor}
    (h : item.read what m = .ok (value, n)) : m.rest = value.source ++ n.rest ∧
      value.source.length = item.size ∧ n.offset = m.offset + value.source.length := by
  cases item with
  | u8 =>
    obtain ⟨bs, ⟨a, rfl, rfl⟩, hrest, hoffset⟩ := ((Read.recognizes_u8 what).map _ _ _).mp h
    exact ⟨hrest, bigEndian_length 1 _, hoffset⟩
  | u16 =>
    obtain ⟨bs, ⟨a, rfl, rfl⟩, hrest, hoffset⟩ := ((Read.recognizes_u16 what).map _ _ _).mp h
    exact ⟨hrest, bigEndian_length 2 _, hoffset⟩
  | u32 =>
    obtain ⟨bs, ⟨a, rfl, rfl⟩, hrest, hoffset⟩ := ((Read.recognizes_u32 what).map _ _ _).mp h
    exact ⟨hrest, bigEndian_length 4 _, hoffset⟩
  | bytes size =>
    obtain ⟨bs, ⟨a, ⟨hsize, rfl⟩, rfl⟩, hrest, hoffset⟩ :=
      ((Read.recognizes_bytes size what).map _ _ _).mp h
    exact ⟨hrest, hsize, hoffset⟩

/-- A cursor that has come from another one by some reads, which took the bytes between them. -/
structure Took (c : FreeCursor) (reads : List (Item × Value)) (d : FreeCursor) : Prop where
  bytes_eq : d.bytes = c.bytes
  inside : d.Inside
  offset_eq : d.offset = c.offset + ((reads.map fun r => r.1.size).sum : Nat)
  rest_eq : c.toCursor.rest = (reads.flatMap fun r => r.2.source) ++ d.toCursor.rest

theorem Took.nil (h : c.Inside) : c.Took [] c :=
  ⟨rfl, h, by simp, rfl⟩

theorem Took.append {b : FreeCursor} {first second : List (Item × Value)} (h : b.Took first c)
    (h' : c.Took second d) : b.Took (first ++ second) d where
  bytes_eq := h'.bytes_eq.trans h.bytes_eq
  inside := h'.inside
  offset_eq := by
    rw [h'.offset_eq, h.offset_eq, List.map_append, List.sum_append, Nat.cast_add, add_assoc]
  rest_eq := by
    rw [h.rest_eq, h'.rest_eq, List.flatMap_append, List.append_assoc]

theorem exists_error_ask_iff (item : Item) (what : String) (h : c.Inside) :
    (∃ e, answer (item.ask what) c = .error e) ↔ c.remaining < item.size := by
  have hlength := h.length_rest
  rw [(follows_ask item what h).error_iff]
  by_cases hshort : c.remaining < item.size
  · have herror := (takes_read item what).short c.toCursor.offset c.toCursor.rest (by omega)
    exact iff_of_true ⟨_, herror⟩ hshort
  · obtain ⟨value, hvalue⟩ := (takes_read item what).exists_drop c.toCursor.rest (by omega)
    refine iff_of_false ?_ hshort
    rintro ⟨e, he⟩
    cases (hvalue c.toCursor.offset).symm.trans he

theorem exists_ok_ask_iff (item : Item) (what : String) (h : c.Inside) :
    (∃ value, answer (item.ask what) c = .ok value ∧
      value.source = c.toCursor.rest.take item.size) ↔ item.size ≤ c.remaining := by
  have herror := exists_error_ask_iff item what h
  cases hanswer : answer (item.ask what) c with
  | error e =>
    have hshort : c.remaining < item.size := herror.mp ⟨e, hanswer⟩
    simp [hshort]
  | ok value =>
    have hroom : ¬ c.remaining < item.size := by
      intro hshort
      obtain ⟨e, he⟩ := herror.mpr hshort
      cases hanswer.symm.trans he
    obtain ⟨hread, -⟩ := (follows_ask item what h).ok_iff.mp ⟨hanswer, rfl⟩
    obtain ⟨hrest, hsize, -⟩ := source_of_read hread
    refine iff_of_true ⟨value, rfl, ?_⟩ (by omega)
    rw [hrest, List.take_left' hsize]

theorem took_ask {item : Item} {value : Value} (h : c.Inside)
    (hvalue : answer (item.ask what) c = .ok value) :
    c.Took [(item, value)] (after (item.ask what) c) := by
  obtain ⟨hread, hinside, hbytes⟩ := (follows_ask item what h).ok_iff.mp ⟨hvalue, rfl⟩
  obtain ⟨hrest, hsize, hoffset⟩ := source_of_read hread
  refine ⟨hbytes, hinside, ?_, by simpa using hrest⟩
  have hstart : (c.toCursor.offset : Int) = c.offset := Int.toNat_of_nonneg h.nonneg
  have hstop := Int.toNat_of_nonneg hinside.nonneg
  rw [← hstart, ← hstop]
  simp only [List.map_cons, List.map_nil, List.sum_cons, List.sum_nil, Nat.add_zero]
  rw [← hsize, ← Nat.cast_add, ← hoffset]
  rfl

theorem took_next (h : c.Inside) (call : Call) : c.Took (c.gained call) (c.next call) := by
  cases call with
  | atEnd what =>
    rw [next, after_atEnd]
    exact .nil h
  | item item what =>
    rw [gained, next]
    cases hanswer : answer (item.ask what) c with
    | ok value => exact took_ask h hanswer
    | error e =>
      rw [(follows_ask item what h).after_of_error hanswer]
      exact .nil h

theorem next_eq_or_gained_ne_nil (h : c.Inside) (call : Call) :
    c.next call = c ∨ c.gained call ≠ [] := by
  cases call with
  | atEnd what => exact .inl (after_atEnd c what)
  | item item what =>
    cases hanswer : answer (item.ask what) c with
    | ok value => exact .inr (by simp [gained, hanswer])
    | error e => exact .inl ((follows_ask item what h).after_of_error hanswer)

theorem took_run (h : c.Inside) (calls : List Call) : c.Took (c.reads calls) (c.run calls) := by
  induction calls generalizing c with
  | nil => exact .nil h
  | cons call calls ih =>
    have hcall := took_next h call
    exact hcall.append (ih hcall.inside)

/-- Whatever is called on a cursor, the values that have been read are those of the bytes in front
of it, which are as many as the reads asked for. The next read fails exactly if it asks for more
than is left, and gives the bytes that come next if not; a check fails exactly if anything is left.
Both leave the cursor where it is unless something is read. Large numbers are read like their
halves, and the cursor of the decoders goes through all this alike. -/
theorem run_consumes (bytes : List UInt8) (calls : List Call) :
    let reads := (ofBytes bytes).reads calls
    let c := (ofBytes bytes).run calls
    (c.bytes = bytes ∧ 0 ≤ c.offset ∧ c.offset ≤ bytes.length ∧
      c.offset = ((reads.map fun r => r.1.size).sum : Nat) ∧
      (reads.flatMap fun r => r.2.source) = bytes.take c.offset.toNat) ∧
    (∀ (item : Item) what,
      ((∃ e, answer (item.ask what) c = .error e) ↔ c.remaining < item.size) ∧
      ((∃ value, answer (item.ask what) c = .ok value ∧
        value.source = (bytes.drop c.offset.toNat).take item.size) ↔ item.size ≤ c.remaining)) ∧
    (∀ what, (∃ e, answer (atEnd what) c = .error e) ↔ c.remaining ≠ 0) ∧
    (∀ call, c.next call = c ∨ c.gained call ≠ []) ∧
    (∀ what first second n d, answer (u32 what) c = .ok n ∧ after (u32 what) c = d ↔
      ∃ high low, answer (u16 first) c = .ok high ∧
        answer (u16 second) (after (u16 first) c) = .ok low ∧
        after (u16 second) (after (u16 first) c) = d ∧ n.toNat = high.toNat * 2 ^ 16 + low.toNat) ∧
    (∀ what first second n d, answer (u16 what) c = .ok n ∧ after (u16 what) c = d ↔
      ∃ high low, answer (u8 first) c = .ok high ∧
        answer (u8 second) (after (u8 first) c) = .ok low ∧
        after (u8 second) (after (u8 first) c) = d ∧ n.toNat = high.toNat * 2 ^ 8 + low.toNat) ∧
    (∀ (item : Item) what, c.Follows (item.ask what) (item.read what)) ∧
    ∀ what, c.Follows (atEnd what) (Read.atEnd what) := by
  intro reads c
  have htook : (ofBytes bytes).Took reads c := took_run (inside_ofBytes bytes) calls
  have hbytes : c.bytes = bytes := htook.bytes_eq
  have hinside : c.Inside := htook.inside
  have hrest : c.toCursor.rest = bytes.drop c.offset.toNat := by rw [toCursor, hbytes]
  refine ⟨⟨hbytes, hinside.nonneg, hbytes ▸ hinside.le_length, ?total, ?front⟩,
    fun item what => ?read, exists_error_atEnd_iff c, next_eq_or_gained_ne_nil hinside,
      fun what first second n d => ?words,
    fun what first second n d => ?halves, fun item what => follows_ask item what hinside,
    fun what => follows_atEnd what hinside⟩
  case total => simpa [ofBytes] using htook.offset_eq
  case front =>
    have hall : bytes = (reads.flatMap fun r => r.2.source) ++ bytes.drop c.offset.toNat := by
      rw [← hrest]
      exact htook.rest_eq
    exact List.append_cancel_right
      (hall.symm.trans (List.take_append_drop c.offset.toNat bytes).symm)
  case read =>
    rw [← hrest]
    exact ⟨exists_error_ask_iff item what hinside, exists_ok_ask_iff item what hinside⟩
  case words =>
    exact halves_iff (fun _ => follows_number (Read.takes_u32 what))
      (fun _ => follows_number (Read.takes_u16 first))
        (fun _ => follows_number (Read.takes_u16 second))
      Read.u32_eq_ok_iff hinside
  case halves =>
    exact halves_iff (fun _ => follows_number (Read.takes_u16 what))
      (fun _ => follows_number (Read.takes_u8 first))
        (fun _ => follows_number (Read.takes_u8 second))
      Read.u16_eq_ok_iff hinside

example : (ofBytes [1, 2, 0, 0, 0, 3, 4]).reads
    [.item .u16 "u2", .item .u32 "u4", .atEnd "payload", .item .u16 "u2", .item .u8 "u1"] =
      [(.u16, .u16 0x0102), (.u32, .u32 3), (.u8, .u8 4)] := by
  rfl

end ClassAtlas.FreeCursor
