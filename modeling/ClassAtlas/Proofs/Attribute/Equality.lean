import ClassAtlas.Proofs.Attribute.Lookup

/-! Equal objects and their answers. A class is compared by its whole file and a member with its
pool, so equal ones are the same. A body is compared without its pool, and what the pool is asked
for may differ. -/

namespace ClassAtlas

namespace AttributeTable

variable {t t' : AttributeTable} {pool pool' : Pool} {raw : RawAttribute} {raws : List RawAttribute}
  {name : String} {bytes : List UInt8}

def inPool (t : AttributeTable) (pool : Pool) : AttributeTable :=
  { t with pool }

/-- Attributes with indices into the pool among their bytes. -/
def readsPool (name : String) : Bool :=
  ["SourceFile", "Signature", "Code"].contains name

theorem decode_of_not_readsPool (h : readsPool name = false) :
    Attribute.decode pool name bytes = Attribute.decode pool' name bytes := by
  have hother : name ≠ "SourceFile" ∧ name ≠ "Signature" ∧ name ≠ "Code" := by
    simpa [readsPool] using h
  have hpayload :
      Attribute.decodePayload pool name bytes = Attribute.decodePayload pool' name bytes := by
    simp [Attribute.decodePayload, hother]
  rw [Attribute.decode, Attribute.decode, hpayload]

theorem decode_of_nameOf (hname : t'.nameOf raw = t.nameOf raw)
    (h : ∀ name, t.nameOf raw = .ok name → readsPool name = false) :
      t'.decode raw = t.decode raw := by
  rw [decode, decode, hname]
  cases hn : t.nameOf raw with
  | error e => rfl
  | ok name => exact decode_of_not_readsPool (h name hn)

theorem findIn_of_nameOf (hnames : ∀ raw ∈ raws, t'.nameOf raw = t.nameOf raw)
    (hfirst : ∀ p, t.payloadIn name raws = some p →
      Attribute.decode t'.pool name p = Attribute.decode t.pool name p) :
    t'.findIn name raws = t.findIn name raws := by
  induction raws with
  | nil => rfl
  | cons raw raws ih =>
    obtain ⟨hname, hnames⟩ := List.forall_mem_cons.mp hnames
    cases hn : t.nameOf raw with
    | error e => rw [findIn_cons_of_error hn, findIn_cons_of_error (hname.trans hn)]
    | ok other =>
      by_cases hsame : other = name
      · subst hsame
        have hdecode := hfirst _ (payloadIn_cons_of_name hn)
        rw [findIn_cons_of_name hn, findIn_cons_of_name (hname.trans hn), hdecode]
      · rw [findIn_cons_of_ne hn hsame, findIn_cons_of_ne (hname.trans hn) hsame]
        apply ih hnames
        intro p hp
        rw [← payloadIn_cons_of_ne hn hsame] at hp
        exact hfirst p hp

/-- The names that are listed in one pool are listed in another exactly where each index leads to
the same. -/
theorem names_inPool_iff {listed : List String} (h : t.names = .ok listed) :
    (t.inPool pool).names = .ok listed ↔
      ∀ raw ∈ t.raw, (t.inPool pool).nameOf raw = t.nameOf raw := by
  constructor
  · intro h'
    obtain ⟨-, hhere⟩ := List.forall₂_iff_get.mp (mapM_eq_ok_iff.mp h)
    obtain ⟨hlength, hthere⟩ := List.forall₂_iff_get.mp (mapM_eq_ok_iff.mp h')
    intro raw hraw
    obtain ⟨i, hi, rfl⟩ := List.getElem_of_mem hraw
    have hi' : i < listed.length := hlength ▸ hi
    exact (hthere i hi hi').trans (hhere i hi hi').symm
  · intro hnames
    rw [← h]
    exact mapM_congr hnames

end AttributeTable

namespace Code

variable {c c' : Code}

def inPool (c : Code) (pool : Pool) : Code :=
  { c with table := c.table.inPool pool }

theorem lineNumbers_congr (h : c'.table.find? "LineNumberTable" = c.table.find? "LineNumberTable") :
    c'.lineNumbers = c.lineNumbers := by
  rw [lineNumbers, lineNumbers, h]

/-- Bodies compare equal exactly where one of them is the other in some pool. -/
theorem beq_iff_exists_inPool : (c == c') = true ↔ ∃ pool, c' = c.inPool pool := by
  have hbeq : (c == c') = (c.maxStack == c'.maxStack && c.maxLocals == c'.maxLocals &&
      c.bytes == c'.bytes && c.handlers == c'.handlers && c.table.raw == c'.table.raw) := rfl
  rw [hbeq]
  simp only [Bool.and_eq_true, beq_iff_eq]
  constructor
  · rintro ⟨⟨⟨⟨hstack, hlocals⟩, hbytes⟩, hhandlers⟩, hraw⟩
    refine ⟨c'.table.pool, ?_⟩
    rw [inPool, AttributeTable.inPool, hstack, hlocals, hbytes, hhandlers, hraw]
  · rintro ⟨pool, rfl⟩
    simp [inPool, AttributeTable.inPool]

/-- The answers that do not hang on indices among the bytes of an attribute, and all of them where
those come to the same. -/
structure AnswersAlike (c c' : Code) : Prop where
  names : c'.table.names = c.table.names
  lineNumbers : c'.lineNumbers = c.lineNumbers
  find? : ∀ name, (AttributeTable.readsPool name = false ∨ ∀ p, c.table.payload? name = some p →
      Attribute.decode c'.table.pool name p = Attribute.decode c.table.pool name p) →
    c'.table.find? name = c.table.find? name
  decodeAll : (∀ raw ∈ c.table.raw, c'.table.decode raw = c.table.decode raw ∨
      ∀ name, c.table.nameOf raw = .ok name → AttributeTable.readsPool name = false) →
    c'.table.decodeAll = c.table.decodeAll

theorem answersAlike_inPool {pool : Pool}
    (hnames : ∀ raw ∈ c.table.raw, (c.inPool pool).table.nameOf raw = c.table.nameOf raw) :
    c.AnswersAlike (c.inPool pool) := by
  have hfind :
      ∀ name, (AttributeTable.readsPool name = false ∨ ∀ p, c.table.payload? name = some p →
        Attribute.decode pool name p = Attribute.decode c.table.pool name p) →
        (c.inPool pool).table.find? name = c.table.find? name := by
    intro name hname
    apply AttributeTable.findIn_of_nameOf hnames
    intro p hp
    rcases hname with hname | hname
    · exact AttributeTable.decode_of_not_readsPool hname
    · exact hname p hp
  refine ⟨mapM_congr hnames, lineNumbers_congr ?_, hfind,
    fun hdecode => mapM_congr fun raw hraw => ?_⟩
  · exact hfind "LineNumberTable" (.inl (by decide))
  · rcases hdecode raw hraw with hsame | hplain
    · exact hsame
    · exact AttributeTable.decode_of_nameOf (hnames raw hraw) hplain

end Code

namespace AttributeOwner

/-- What goes into a hash: a member without its pool, and of a body not its attributes. -/
inductive Hashed where
  | file (raw : ClassFile)
  | member (raw : RawMember)
  | body (maxStack maxLocals : UInt16) (bytes : List UInt8) (handlers : List Handler)

def hashed : AttributeOwner → Hashed
  | ofClass c => .file c.raw
  | ofMember m => .member m.raw
  | ofCode c => .body c.maxStack c.maxLocals c.bytes c.handlers

/-- Equality of objects of one kind. -/
def same : AttributeOwner → AttributeOwner → Bool
  | ofClass c, ofClass c' => c.raw == c'.raw
  | ofMember m, ofMember m' => m == m'
  | ofCode c, ofCode c' => c == c'
  | _, _ => false

/-- The names of a class come out of its file. Members and bodies may stand with any pool. -/
def IsDecoded : AttributeOwner → Prop
  | ofClass c => Class.ofFile c.raw = .ok c
  | ofMember _ => True
  | ofCode _ => True

/-- Equal objects hash alike and are the same, but for the pool of a body. In another pool a body
lists the same names exactly where its name indices lead to the same, and then answers alike. -/
theorem answers_of_same {a b : AttributeOwner} (ha : a.IsDecoded) (hb : b.IsDecoded)
    (h : a.same b = true) : a.hashed = b.hashed ∧ (a = b ∨ ∃ c pool, a = .ofCode c ∧
      b = .ofCode (c.inPool pool) ∧
      (∀ names, c.table.names = .ok names → ((c.inPool pool).table.names = .ok names ↔
        ∀ raw ∈ c.table.raw, (c.inPool pool).table.nameOf raw = c.table.nameOf raw)) ∧
      ((∀ raw ∈ c.table.raw, (c.inPool pool).table.nameOf raw = c.table.nameOf raw) →
        c.AnswersAlike (c.inPool pool))) := by
  cases a with
  | ofClass c =>
    cases b with
    | ofClass c' =>
      have hraw : c.raw = c'.raw := by simpa [same] using h
      have hc : Class.ofFile c.raw = .ok c := ha
      have hc' : Class.ofFile c'.raw = .ok c' := hb
      rw [← hraw, hc] at hc'
      obtain rfl := Except.ok.inj hc'
      exact ⟨rfl, .inl rfl⟩
    | ofMember m' => simp [same] at h
    | ofCode c' => simp [same] at h
  | ofMember m =>
    cases b with
    | ofMember m' =>
      obtain rfl : m = m' := by simpa [same] using h
      exact ⟨rfl, .inl rfl⟩
    | ofClass c' => simp [same] at h
    | ofCode c' => simp [same] at h
  | ofCode c =>
    cases b with
    | ofCode c' =>
      obtain ⟨pool, rfl⟩ := Code.beq_iff_exists_inPool.mp h
      refine ⟨rfl, .inr ⟨c, pool, rfl, rfl, fun names hlisted => ?_, fun hnames => ?_⟩⟩
      · exact AttributeTable.names_inPool_iff hlisted
      · exact Code.answersAlike_inPool hnames
    | ofClass c' => simp [same] at h
    | ofMember m' => simp [same] at h

/-- A pool whose last text is the name of an attribute inside a body. -/
def poolNaming (name : String) : Pool :=
  ⟨[some (.utf8 [0x41] "A"), some (.classRef 1), some (.utf8 [0x43, 0x6f, 0x64, 0x65] "Code"),
    some (.utf8 [0x6d] "m"), some (.utf8 [0x28, 0x29, 0x56] "()V"),
      some (.utf8 name.toUTF8.toList name)]⟩

def classNaming (name : String) : Class where
  raw :=
    { minorVersion := 0
      majorVersion := 52
      pool := poolNaming name
      accessFlags := 0x21
      thisClass := 2
      superClass := 0
      interfaces := []
      fields := []
      methods := [⟨0, 4, 5, [⟨3, [0, 1, 0, 1, 0, 0, 0, 1, 0xb1, 0, 0, 0, 1,
        0, 6, 0, 0, 0, 6, 0, 1, 0, 0, 0, 7]⟩]⟩]
      attributes := [] }
  thisName := "A"
  superName := none

def bodyNaming (name : String) : Code :=
  ⟨1, 1, [0xb1], [], ⟨poolNaming name, [⟨6, [0, 1, 0, 0, 0, 7]⟩]⟩⟩

theorem ofFile_classNaming (name : String) :
    Class.ofFile (classNaming name).raw = .ok (classNaming name) :=
  rfl

theorem code_classNaming (name : String) :
    (classNaming name).methods.map Member.code = [.ok (some (bodyNaming name))] := rfl

/-- A body with a line table, in a pool of one more slot. -/
theorem answers_of_same_lineNumbers :
    let c := bodyNaming "LineNumberTable"
    let c' := c.inPool ⟨c.table.pool.slots ++ [none]⟩
    c.table.pool ≠ c'.table.pool ∧ (ofCode c).same (.ofCode c') = true ∧
      c'.lineNumbers = .ok (some ⟨[⟨0, 7⟩]⟩) := by
  intro c c'
  have hsame : (ofCode c).same (.ofCode c') = true := by decide
  have hlines : c.lineNumbers = .ok (some ⟨[⟨0, 7⟩]⟩) := rfl
  refine ⟨by decide +kernel, hsame, ?_⟩
  have ha : (ofCode c).IsDecoded := trivial
  have hb : (ofCode c').IsDecoded := trivial
  obtain ⟨-, heq | ⟨d, pool, hd, hd', -, halike⟩⟩ := answers_of_same ha hb hsame
  · rw [← AttributeOwner.ofCode.inj heq]
    exact hlines
  · obtain rfl := AttributeOwner.ofCode.inj hd
    have hpool : c' = c.inPool pool := AttributeOwner.ofCode.inj hd'
    rw [← hpool] at halike
    rw [(halike (by decide)).lineNumbers]
    exact hlines

/-- Two bodies, decoded from classes that differ in one text of their pools, compare equal. In one
of them the attribute inside is a line table. -/
theorem equal_bodies_answer_apart :
    (∀ name, Class.ofFile (classNaming name).raw = .ok (classNaming name) ∧
      (classNaming name).methods.map Member.code = [.ok (some (bodyNaming name))]) ∧
    (ofCode (bodyNaming "LineNumberTable")).same (.ofCode (bodyNaming "Stamp")) = true ∧
    (bodyNaming "LineNumberTable").table.names = .ok ["LineNumberTable"] ∧
    (bodyNaming "Stamp").table.names = .ok ["Stamp"] ∧
    (bodyNaming "LineNumberTable").lineNumbers = .ok (some ⟨[⟨0, 7⟩]⟩) ∧
    (bodyNaming "Stamp").lineNumbers = .ok none :=
  ⟨fun name => ⟨ofFile_classNaming name, code_classNaming name⟩, rfl, rfl, rfl, rfl, rfl⟩

end AttributeOwner

end ClassAtlas
