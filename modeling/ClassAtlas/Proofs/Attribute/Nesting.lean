import ClassAtlas.Proofs.Attribute.CodeLayout
import ClassAtlas.Proofs.Attribute.Lookup

/-! Attributes within attributes. Those within a body are shorter than it, so that decoding them,
and those within them, comes to an end. -/

namespace ClassAtlas

namespace CodeLayout

theorem length_countedBytes (attributes : List RawAttribute) :
    (countedBytes RawAttribute.bytes attributes).length =
      2 + (attributes.map fun a => 6 + a.payload.length).sum := by
  have hlength (a : RawAttribute) : a.bytes.length = 6 + a.payload.length := by
    simp [RawAttribute.bytes, bigEndian_length]
    omega
  simp [countedBytes, bigEndian_length, List.length_flatMap, hlength]

theorem length_rows (rows : List HandlerRow) :
    (countedBytes HandlerRow.bytes rows).length = 2 + 8 * rows.length := by
  have hsum : (rows.map fun row => row.bytes.length).sum = 8 * rows.length := by
    simp [HandlerRow.length_bytes, mul_comm]
  simp [countedBytes, bigEndian_length, List.length_flatMap, hsum]

/-- The length of the parts in front of the attributes. -/
def front (l : CodeLayout) : Nat :=
  10 + l.code.length + 8 * l.rows.length

theorem drop_front (l : CodeLayout) :
    l.bytes.drop l.front = countedBytes RawAttribute.bytes l.attributes := by
  rw [bytes, List.drop_left']
  simp [front, bigEndian_length, length_rows]
  omega

theorem length_bytes (l : CodeLayout) : l.bytes.length =
    12 + l.code.length + 8 * l.rows.length +
      (l.attributes.map fun a => 6 + a.payload.length).sum := by
  simp [bytes, bigEndian_length, length_rows, length_countedBytes]
  omega

theorem readAttributes_front {l : CodeLayout} (h : l.Storable) :
    ClassFile.readAttributes ⟨l.front, l.bytes.drop l.front⟩ =
      .ok (l.attributes, ⟨l.bytes.length, []⟩) := by
  refine (ClassFile.recognizes_attributes _ _ _).mpr ⟨_, ⟨h.attributes, rfl⟩, ?_, ?_⟩
  · rw [drop_front, List.append_nil]
  · simp only [length_countedBytes, length_bytes, front]
    omega

theorem length_lt_of_mem {l : CodeLayout} {a : RawAttribute} (h : a ∈ l.attributes) :
    a.payload.length < l.bytes.length := by
  have hle : 6 + a.payload.length ≤ (l.attributes.map fun a => 6 + a.payload.length).sum :=
    List.le_sum_of_mem (List.mem_map_of_mem h)
  rw [length_bytes]
  omega

end CodeLayout

namespace Attribute

inductive Nest where
  | node (outcome : Except DecodeError Attribute) (inner : List Nest)

/-- What comes of each attribute within a body. There are none within anything else. -/
def within : Except DecodeError Attribute → List (Except DecodeError Attribute)
  | .ok ⟨_, .code c⟩ => c.table.raw.map c.table.decode
  | _ => []

/-- The attributes within an attribute are decoded, and so are those within them, until there are
none left. -/
inductive Opens : Except DecodeError Attribute → Nest → Prop
  | node {outcome : Except DecodeError Attribute} {inner : List Nest} :
    List.Forall₂ Opens (within outcome) inner → Opens outcome (.node outcome inner)

theorem existsUnique_forall₂ {α β : Type} {R : α → β → Prop} {as : List α}
    (h : ∀ a ∈ as, ∃! b, R a b) : ∃! bs, List.Forall₂ R as bs := by
  induction as with
  | nil => exact ⟨[], .nil, fun bs hbs => List.forall₂_nil_left_iff.mp hbs⟩
  | cons a as ih =>
    obtain ⟨hhead, htail⟩ := List.forall_mem_cons.mp h
    obtain ⟨b, hb, hunique⟩ := hhead
    obtain ⟨bs, hbs, huniques⟩ := ih htail
    refine ⟨b :: bs, .cons hb hbs, fun bs' hbs' => ?_⟩
    cases hbs' with
    | cons hb' hbs' => rw [hunique _ hb', huniques _ hbs']

theorem existsUnique_opens_of_within {outcome : Except DecodeError Attribute}
    (h : ∀ o ∈ within outcome, ∃! nest, Opens o nest) : ∃! nest, Opens outcome nest := by
  obtain ⟨inner, hinner, hunique⟩ := existsUnique_forall₂ h
  refine ⟨.node outcome inner, .node hinner, fun nest hnest => ?_⟩
  cases hnest with
  | node hinner' => rw [hunique _ hinner']

theorem eq_code_of_decode {pool : Pool} {name : String} {bytes : List UInt8}
    {a : Attribute} {c : Code} (h : decode pool name bytes = .ok a) (hcode : a.payload = .code c) :
      name = "Code" := by
  by_contra hne
  have hpayload : decodePayload pool name bytes = .ok (.code c) := by
    rw [decode] at h
    cases hp : decodePayload pool name bytes with
    | error e => simp [hp] at h
    | ok payload =>
      rw [hp] at h
      rw [← Except.ok.inj h] at hcode
      rw [← hcode]
  simp only [decodePayload, hne, if_false] at hpayload
  split_ifs at hpayload
  · obtain ⟨index, -, h⟩ := bind_eq_ok_iff.mp hpayload
    obtain ⟨text, -, h⟩ := bind_eq_ok_iff.mp h
    cases h
  · obtain ⟨index, -, h⟩ := bind_eq_ok_iff.mp hpayload
    obtain ⟨text, -, h⟩ := bind_eq_ok_iff.mp h
    obtain ⟨type, -, h⟩ := bind_eq_ok_iff.mp h
    cases h
  · obtain ⟨table, -, h⟩ := bind_eq_ok_iff.mp hpayload
    cases h
  · obtain ⟨_, -, h⟩ := bind_eq_ok_iff.mp hpayload
    cases h
  · cases hpayload

theorem within_within {pool : Pool} {name : String} {bytes : List UInt8}
    {o : Except DecodeError Attribute} (h : o ∈ within (decode pool name bytes)) :
    within o = [] ∨ ∃ name' payload, o = decode pool name' payload ∧
      payload.length < bytes.length := by
  cases hd : decode pool name bytes with
  | error e => simp [hd, within] at h
  | ok a =>
    obtain ⟨given, payload⟩ := a
    rw [hd] at h
    cases payload with
    | code c =>
      obtain rfl := eq_code_of_decode hd rfl
      obtain ⟨l, handlers, -, rfl, -, ha⟩ := decode_code_eq_ok_iff.mp hd
      cases ha
      obtain ⟨raw, hraw, rfl⟩ := List.mem_map.mp h
      have hshorter : raw.payload.length < l.bytes.length := CodeLayout.length_lt_of_mem hraw
      rw [AttributeTable.decode]
      cases hname : (l.body pool handlers).table.nameOf raw with
      | error e => exact .inl rfl
      | ok name' => exact .inr ⟨name', raw.payload, rfl, hshorter⟩
    | _ => simp [within] at h

theorem existsUnique_opens (pool : Pool) (name : String) (bytes : List UInt8) :
    ∃! nest, Opens (decode pool name bytes) nest := by
  -- By induction on the length of the bytes. What is within them has fewer, or cannot be decoded.
  induction hlength : bytes.length using Nat.strong_induction_on generalizing name bytes with
  | _ n ih =>
    refine existsUnique_opens_of_within fun o ho => ?_
    obtain hnone | ⟨name', payload, rfl, hlt⟩ := within_within ho
    · exact existsUnique_opens_of_within (by simp [hnone])
    · exact ih payload.length (hlength ▸ hlt) name' payload rfl

/-- Exactly those byte strings are decoded as bodies that are laid out as one, and the attributes a
body keeps are those the reader of class files finds at their place. They are shorter than the body,
and decoding all that is within it ends. -/
theorem decode_code_layout (pool : Pool) (bytes : List UInt8) :
    (∀ a, decode pool "Code" bytes = .ok a ↔ ∃ (l : CodeLayout) (handlers : List Handler),
      l.Storable ∧ bytes = l.bytes ∧ List.Forall₂ (HandlerRow.StandsFor pool) l.rows handlers ∧
        a = ⟨"Code", .code (l.body pool handlers)⟩) ∧
    (∀ c, decode pool "Code" bytes = .ok ⟨"Code", .code c⟩ →
      let front := 10 + c.bytes.length + 8 * c.handlers.length
      ClassFile.readAttributes ⟨front, bytes.drop front⟩ = .ok (c.table.raw, ⟨bytes.length, []⟩) ∧
      bytes.length = 12 + c.bytes.length + 8 * c.handlers.length +
        (c.table.raw.map fun a => 6 + a.payload.length).sum ∧
      ∀ a ∈ c.table.raw, a.payload.length < bytes.length) ∧
    ∃! nest, Opens (decode pool "Code" bytes) nest := by
  refine ⟨fun a => decode_code_eq_ok_iff, fun c hc => ?_, existsUnique_opens pool "Code" bytes⟩
  obtain ⟨l, handlers, hl, rfl, hstand, ha⟩ := decode_code_eq_ok_iff.mp hc
  cases ha
  have hrows : handlers.length = l.rows.length := hstand.length_eq.symm
  intro front
  have hfront : front = l.front := by simp [front, CodeLayout.front, CodeLayout.body, hrows]
  refine ⟨?read, ?length, fun a ha => CodeLayout.length_lt_of_mem ha⟩
  case read =>
    rw [hfront]
    exact CodeLayout.readAttributes_front hl
  case length =>
    rw [CodeLayout.length_bytes, ← hrows]
    rfl

def codePool : Pool :=
  ⟨[some (.utf8 [] "Code"), some (.utf8 [] "Err"), some (.classRef 2)]⟩

def emptyLayout : CodeLayout :=
  ⟨0, 0, [], [], []⟩

def nestedLayout : CodeLayout :=
  ⟨1, 1, [0xb1], [⟨0, 1, 0, 3⟩], [⟨1, emptyLayout.bytes⟩]⟩

theorem decode_code_layout_nested :
    decode codePool "Code" nestedLayout.bytes =
      .ok ⟨"Code", .code (nestedLayout.body codePool [⟨0, 1, 0, some "Err"⟩])⟩ ∧
    nestedLayout.bytes.length = 39 ∧
    (∀ a ∈ nestedLayout.attributes, a.payload.length < nestedLayout.bytes.length) ∧
    ∃! nest, Opens (decode codePool "Code" nestedLayout.bytes) nest := by
  obtain ⟨hdecode, hparts, hopens⟩ := decode_code_layout codePool nestedLayout.bytes
  have hattributes : CountedStorable RawAttribute.Storable nestedLayout.attributes := by
    simp [CountedStorable, RawAttribute.Storable, nestedLayout]
    decide
  have hstored : nestedLayout.Storable := ⟨by decide, by decide, hattributes⟩
  have hnamed : HandlerRow.StandsFor codePool ⟨0, 1, 0, 3⟩ ⟨0, 1, 0, some "Err"⟩ :=
    ⟨rfl, rfl, rfl, .named (by decide) rfl rfl⟩
  have hbody := (hdecode _).mpr ⟨nestedLayout, _, hstored, rfl, .cons hnamed .nil, rfl⟩
  obtain ⟨-, hlength, hshorter⟩ := hparts _ hbody
  exact ⟨hbody, hlength, hshorter, hopens⟩

end Attribute

end ClassAtlas
