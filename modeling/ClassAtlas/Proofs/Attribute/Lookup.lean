import ClassAtlas.Class
import ClassAtlas.Proofs.Outcomes

/-! Attributes looked up by name against all of them decoded in order. A lookup follows the name
indices up to the first attribute of its name and decodes that one, so the bytes of the others do
not matter. -/

namespace ClassAtlas

namespace AttributeTable

variable {t t' : AttributeTable} {raw : RawAttribute} {raws raws' : List RawAttribute}
  {a : Attribute} {as : List Attribute} {name : String} {i : Nat}

/-- The position of the first attribute of a name, which is behind all of them if there is none. -/
def position (t : AttributeTable) (name : String) (raws : List RawAttribute) : Nat :=
  raws.findIdx fun raw => t.nameOf raw = .ok name

theorem decode_eq_ok_iff : t.decode raw = .ok a ↔
    t.nameOf raw = .ok a.name ∧ Attribute.decode t.pool a.name raw.payload = .ok a := by
  rw [decode, bind_eq_ok_iff]
  constructor
  · rintro ⟨name, hname, hdecode⟩
    have hkept : a.name = name := by
      rw [Attribute.decode] at hdecode
      cases hpayload : Attribute.decodePayload t.pool name raw.payload with
      | error e => simp [hpayload] at hdecode
      | ok payload =>
        rw [hpayload] at hdecode
        rw [← Except.ok.inj hdecode]
    rw [hkept]
    exact ⟨hname, hdecode⟩
  · rintro ⟨hname, hdecode⟩
    exact ⟨_, hname, hdecode⟩

theorem findIn_cons_of_name (h : t.nameOf raw = .ok name) :
    t.findIn name (raw :: raws) = some <$> Attribute.decode t.pool name raw.payload := by
  rw [findIn, h]
  simp [bind, Except.bind, Functor.map, Except.map, pure, Except.pure]

theorem findIn_cons_of_ne {other : String} (h : t.nameOf raw = .ok other) (hne : other ≠ name) :
    t.findIn name (raw :: raws) = t.findIn name raws := by
  rw [findIn, h]
  simp [bind, Except.bind, hne]

theorem findIn_cons_of_error {e : DecodeError} (h : t.nameOf raw = .error e) :
    t.findIn name (raw :: raws) = .error e := by
  rw [findIn, h]
  rfl

theorem names_of_mapM_decode (h : raws.mapM t.decode = .ok as) :
    raws.mapM t.nameOf = .ok (as.map Attribute.name) := by
  induction raws generalizing as with
  | nil =>
    obtain rfl := Except.ok.inj h
    rfl
  | cons raw raws ih =>
    rw [List.mapM_cons] at h
    obtain ⟨a, ha, h⟩ := bind_eq_ok_iff.mp h
    obtain ⟨rest, hrest, h⟩ := bind_eq_ok_iff.mp h
    obtain rfl := Except.ok.inj h
    rw [List.mapM_cons, (decode_eq_ok_iff.mp ha).1, ih hrest]
    rfl

theorem findIn_of_mapM_decode (h : raws.mapM t.decode = .ok as) (name : String) :
    t.findIn name raws = .ok (as.find? fun a => a.name = name) := by
  induction raws generalizing as with
  | nil =>
    obtain rfl := Except.ok.inj h
    rfl
  | cons raw raws ih =>
    rw [List.mapM_cons] at h
    obtain ⟨a, ha, h⟩ := bind_eq_ok_iff.mp h
    obtain ⟨rest, hrest, h⟩ := bind_eq_ok_iff.mp h
    obtain rfl := Except.ok.inj h
    obtain ⟨hname, hdecode⟩ := decode_eq_ok_iff.mp ha
    by_cases hsame : a.name = name
    · rw [hsame] at hname hdecode
      rw [findIn_cons_of_name hname, hdecode, List.find?_cons_of_pos (by simpa using hsame)]
      rfl
    · rw [findIn_cons_of_ne hname hsame, ih hrest, List.find?_cons_of_neg (by simpa using hsame)]

theorem nameOf_congr {raw' : RawAttribute} (hpool : t'.pool = t.pool)
    (hindex : raw'.nameIndex = raw.nameIndex) : t'.nameOf raw' = t.nameOf raw := by
  rw [nameOf, nameOf, hpool, hindex]

theorem position_congr (hpool : t'.pool = t.pool)
    (hindices : raws'.map RawAttribute.nameIndex = raws.map RawAttribute.nameIndex) :
    t'.position name raws' = t.position name raws := by
  have hposition (t : AttributeTable) (raws : List RawAttribute) : t.position name raws =
      (raws.map RawAttribute.nameIndex).findIdx fun index =>
        (t.pool.text index.toNat).mapError DecodeError.reference = .ok name := by
    rw [List.findIdx_map]
    rfl
  rw [hposition, hposition, hindices, hpool]

/-- The bytes of the first attribute of a name. -/
def payloadIn (t : AttributeTable) (name : String) (raws : List RawAttribute) :
    Option (List UInt8) :=
  raws[t.position name raws]?.map RawAttribute.payload

def payload? (t : AttributeTable) (name : String) : Option (List UInt8) :=
  t.payloadIn name t.raw

theorem payloadIn_cons_of_name (h : t.nameOf raw = .ok name) :
    t.payloadIn name (raw :: raws) = some raw.payload := by
  simp [payloadIn, position, List.findIdx_cons, h]

theorem payloadIn_cons_of_ne {other : String} (h : t.nameOf raw = .ok other) (hne : other ≠ name) :
    t.payloadIn name (raw :: raws) = t.payloadIn name raws := by
  simp [payloadIn, position, List.findIdx_cons, h, hne]

/-- Lookups among attributes of the same names come to the same as decoding the first of the
name. -/
theorem findIn_alike {E : DecodeError → DecodeError → Prop} {R : Attribute → Attribute → Prop}
    (hE : ∀ e, E e e) (hpool : t'.pool = t.pool)
    (hindices : raws'.map RawAttribute.nameIndex = raws.map RawAttribute.nameIndex)
    (hfirst : ∀ p p', t.payloadIn name raws = some p → t'.payloadIn name raws' = some p' →
      Alike E R (Attribute.decode t.pool name p) (Attribute.decode t.pool name p')) :
    Alike E (Option.Rel R) (t.findIn name raws) (t'.findIn name raws') := by
  -- Along both lists at once: the names in front are other ones, or both lookups end at one
  -- position.
  induction raws generalizing raws' with
  | nil =>
    obtain rfl := List.map_eq_nil_iff.mp hindices
    exact .ok .none
  | cons raw raws ih =>
    obtain ⟨raw', rest, rfl, hindex, hrest⟩ := List.map_eq_cons_iff.mp hindices
    have hname : t'.nameOf raw' = t.nameOf raw := nameOf_congr hpool hindex
    cases hn : t.nameOf raw with
    | error e =>
      rw [findIn_cons_of_error hn, findIn_cons_of_error (hname.trans hn)]
      exact .error (hE e)
    | ok other =>
      have hn' := hname.trans hn
      by_cases hsame : other = name
      · subst hsame
        have hdecode := hfirst _ _ (payloadIn_cons_of_name hn) (payloadIn_cons_of_name hn')
        rw [findIn_cons_of_name hn, findIn_cons_of_name hn', hpool]
        exact hdecode.bind fun a a' ha => .ok (.some ha)
      · rw [findIn_cons_of_ne hn hsame, findIn_cons_of_ne hn' hsame]
        refine ih hrest fun p p' hp hp' => hfirst p p' ?_ ?_
        · rw [payloadIn_cons_of_ne hn hsame, hp]
        · rw [payloadIn_cons_of_ne hn' hsame, hp']

theorem findIn_eq_of_payloadIn (hpool : t'.pool = t.pool)
    (hindices : raws'.map RawAttribute.nameIndex = raws.map RawAttribute.nameIndex)
    (hpayload : t'.payloadIn name raws' = t.payloadIn name raws) :
    t'.findIn name raws' = t.findIn name raws := by
  have halike : Alike Eq (Option.Rel Eq) (t.findIn name raws) (t'.findIn name raws') := by
    refine findIn_alike (fun _ => rfl) hpool hindices fun p p' hp hp' => ?_
    obtain rfl : p = p' := Option.some.inj (hp.symm.trans (hpayload.symm.trans hp'))
    exact Alike.refl (fun _ => rfl) (fun _ => rfl) _
  refine (halike.mono (fun _ _ h => h) fun r r' h => ?_).eq.symm
  cases h with
  | some h => rw [h]
  | none => rfl

theorem findIn_congr (hpool : t'.pool = t.pool)
    (hindices : raws'.map RawAttribute.nameIndex = raws.map RawAttribute.nameIndex)
    (hfirst : raws'[t.position name raws]? = raws[t.position name raws]?) :
    t'.findIn name raws' = t.findIn name raws := by
  refine findIn_eq_of_payloadIn hpool hindices ?_
  rw [payloadIn, position_congr hpool hindices, hfirst, payloadIn]

/-- A lookup that succeeds has decoded the first attribute of the name, or there is none. -/
theorem findIn_eq_ok {found : Option Attribute} (h : t.findIn name raws = .ok found) :
    match t.payloadIn name raws with
    | none => found = none
    | some p => ∃ a, Attribute.decode t.pool name p = .ok a ∧ found = some a := by
  induction raws with
  | nil => exact (Except.ok.inj h).symm
  | cons raw raws ih =>
    cases hn : t.nameOf raw with
    | error e =>
      rw [findIn_cons_of_error hn] at h
      cases h
    | ok other =>
      by_cases hsame : other = name
      · subst hsame
        rw [findIn_cons_of_name hn] at h
        rw [payloadIn_cons_of_name hn]
        cases hdecode : Attribute.decode t.pool other raw.payload with
        | error e => simp [hdecode] at h
        | ok a =>
          rw [hdecode] at h
          exact ⟨a, hdecode, (Except.ok.inj h).symm⟩
      · rw [findIn_cons_of_ne hn hsame] at h
        rw [payloadIn_cons_of_ne hn hsame]
        exact ih h

end AttributeTable

inductive AttributeOwner where
  | ofClass (c : Class)
  | ofMember (m : Member)
  | ofCode (c : Code)

namespace AttributeOwner

def table : AttributeOwner → AttributeTable
  | ofClass c => c.table
  | ofMember m => m.table
  | ofCode c => c.table

def storing (attributes : List RawAttribute) : AttributeOwner → AttributeOwner
  | ofClass c => ofClass { c with raw := { c.raw with attributes } }
  | ofMember m => ofMember { m with raw := { m.raw with attributes } }
  | ofCode c => ofCode { c with table := { c.table with raw := attributes } }

theorem table_storing (o : AttributeOwner) (attributes : List RawAttribute) :
    (o.storing attributes).table = ⟨o.table.pool, attributes⟩ := by
  cases o <;> rfl

/-- The owner with other bytes in the attribute at a position. -/
def replacing (o : AttributeOwner) (i : Nat) (payload : List UInt8) : AttributeOwner :=
  o.storing (o.table.raw.modify i fun raw => { raw with payload })

theorem nameIndex_modify (raws : List RawAttribute) (i : Nat) (payload : List UInt8) :
    (raws.modify i fun raw => { raw with payload }).map RawAttribute.nameIndex =
      raws.map RawAttribute.nameIndex := by
  induction raws generalizing i with
  | nil => rw [List.modify_nil]
  | cons raw raws ih =>
    cases i with
    | zero => simp
    | succ i => simp [ih]

/-- Where all attributes can be decoded, their names are those listed, and a lookup gives the first
of them by its name. Whether they can or not, no lookup depends on the bytes of other attributes
than the first one by its name: not on those of a single one, nor on those of all of them. -/
theorem find?_first_decoded (o : AttributeOwner) :
    (∀ as, o.table.decodeAll = .ok as → o.table.names = .ok (as.map Attribute.name) ∧
      ∀ name, o.table.find? name = .ok (as.find? fun a => a.name = name)) ∧
    (∀ name i payload, i ≠ o.table.position name o.table.raw →
      (o.replacing i payload).table.find? name = o.table.find? name) ∧
    ∀ name raws, raws.map RawAttribute.nameIndex = o.table.raw.map RawAttribute.nameIndex →
      raws[o.table.position name o.table.raw]? = o.table.raw[o.table.position name o.table.raw]? →
      (o.storing raws).table.find? name = o.table.find? name := by
  have hothers :
    ∀ name raws, raws.map RawAttribute.nameIndex = o.table.raw.map RawAttribute.nameIndex →
      raws[o.table.position name o.table.raw]? = o.table.raw[o.table.position name o.table.raw]? →
      (o.storing raws).table.find? name = o.table.find? name := by
    intro name raws hindices hfirst
    rw [table_storing]
    exact AttributeTable.findIn_congr rfl hindices hfirst
  refine ⟨fun as has => ?all, fun name i payload hi => ?one, hothers⟩
  case all =>
    exact ⟨AttributeTable.names_of_mapM_decode has, AttributeTable.findIn_of_mapM_decode has⟩
  case one =>
    exact hothers name _ (nameIndex_modify _ _ _) (List.getElem?_modify_ne _ _ hi)

def marked : AttributeOwner :=
  .ofCode ⟨0, 0, [], [], ⟨⟨[some (.utf8 [] "Deprecated"), some (.utf8 [] "Stamp")]⟩,
    [⟨1, []⟩, ⟨2, [7]⟩, ⟨1, []⟩]⟩⟩

theorem decodeAll_marked : marked.table.decodeAll =
    .ok [⟨"Deprecated", .deprecated⟩, ⟨"Stamp", .unknown [7]⟩, ⟨"Deprecated", .deprecated⟩] := by
  rfl

theorem find?_marked :
    marked.table.find? "Stamp" = .ok (some ⟨"Stamp", .unknown [7]⟩) ∧
      (marked.replacing 2 [1]).table.find? "Deprecated" = .ok (some ⟨"Deprecated", .deprecated⟩) ∧
      (marked.storing [⟨1, [1]⟩, ⟨2, [7]⟩, ⟨1, [1]⟩]).table.find? "Stamp" =
        .ok (some ⟨"Stamp", .unknown [7]⟩) := by
  obtain ⟨hall, hone, hothers⟩ := find?_first_decoded marked
  have hfound := (hall _ decodeAll_marked).2
  refine ⟨hfound "Stamp", ?_, ?_⟩
  -- A marker with bytes in it could not be decoded.
  · exact (hone "Deprecated" 2 [1] (by decide)).trans (hfound "Deprecated")
  · exact (hothers "Stamp" [⟨1, [1]⟩, ⟨2, [7]⟩, ⟨1, [1]⟩] rfl rfl).trans (hfound "Stamp")

end AttributeOwner

end ClassAtlas
