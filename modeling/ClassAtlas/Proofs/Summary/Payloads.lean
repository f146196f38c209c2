import ClassAtlas.Proofs.Attribute.Bodies
import ClassAtlas.Proofs.Descriptor.Inverse
import ClassAtlas.Summary

/-! What a summary depends on. Of the attributes of a class it needs one source file and one body
for each method, of a body only its sizes; the bytes of all other attributes do not matter to it. -/

namespace ClassAtlas

open Attribute

theorem MethodType.descriptor_of_ofDescriptor {text : String} {type : MethodType}
    (h : ofDescriptor text = .ok type) : type.toSignature.descriptor = text := by
  rw [ofDescriptor] at h
  split at h
  · rename_i args result hread
    obtain rfl := Except.ok.inj h
    exact (Signature.ofDescriptor_eq_ok_iff.mp hread).1
  · cases h
  · cases h

namespace Member

variable {m m' : Member}

/-- Members that differ in the bytes of their attributes alone. -/
structure SameButPayloads (m m' : Member) : Prop where
  pool : m'.pool = m.pool
  accessFlags : m'.raw.accessFlags = m.raw.accessFlags
  nameIndex : m'.raw.nameIndex = m.raw.nameIndex
  descriptorIndex : m'.raw.descriptorIndex = m.raw.descriptorIndex
  attributes :
    m'.raw.attributes.map RawAttribute.nameIndex = m.raw.attributes.map RawAttribute.nameIndex

def body? (m : Member) : Option (List UInt8) :=
  m.table.payload? "Code"

/-- Methods whose bodies may differ as well, but only in the bytes of attributes within them. -/
structure SameButInner (m m' : Member) : Prop extends m.SameButPayloads m' where
  body {p p' : List UInt8} : m.body? = some p → m'.body? = some p' → Attribute.AlikeOutside p p'

theorem SameButPayloads.name_eq (h : m.SameButPayloads m') : m'.name = m.name := by
  rw [name, name, h.pool, h.nameIndex]

theorem SameButPayloads.descriptor_eq (h : m.SameButPayloads m') :
    m'.descriptor = m.descriptor := by
  rw [descriptor, descriptor, h.pool, h.descriptorIndex]

theorem SameButPayloads.accessFlags_eq (h : m.SameButPayloads m') :
    m'.accessFlags = m.accessFlags := by
  rw [Member.accessFlags, Member.accessFlags, h.accessFlags]

theorem SameButPayloads.ofField_eq (h : m.SameButPayloads m') :
    MemberSummary.ofField m' = MemberSummary.ofField m := by
  simp only [MemberSummary.ofField, type, h.name_eq, h.descriptor_eq, h.accessFlags_eq]

theorem SameButInner.code_alike (h : m.SameButInner m') :
    Alike (Moved m.body? m'.body?)
      (fun c c' => c'.map BodySummary.ofCode = c.map BodySummary.ofCode)
      m.code m'.code := by
  have hfind : Alike (Moved m.body? m'.body?) (Option.Rel SameParts)
      (m.table.find? "Code") (m'.table.find? "Code") := by
    refine AttributeTable.findIn_alike Moved.same h.pool h.attributes fun p p' hp hp' => ?_
    have hbody : m.body? = some p := hp
    have hbody' : m'.body? = some p' := hp'
    rw [hbody, hbody']
    exact decode_code_alike (h.body hbody hbody')
  refine hfind.bind fun a a' ha => ?_
  cases ha with
  | none => exact .ok rfl
  | some h =>
    cases h
    exact .ok rfl

theorem SameButInner.ofMethod_alike (h : m.SameButInner m') :
    Alike (Moved m.body? m'.body?) Eq (MethodSummary.ofMethod m) (MethodSummary.ofMethod m') := by
  simp only [MethodSummary.ofMethod, methodType, h.name_eq, h.descriptor_eq, h.accessFlags_eq]
  refine Alike.bind_same Moved.same _ fun type => Alike.bind_same Moved.same _ fun name =>
    Alike.bind_same Moved.same _ fun descriptor => h.code_alike.bind fun code code' hcode => ?_
  rw [hcode]
  exact .ok rfl

theorem code_eq_ok {code : Option Code} (h : m.code = .ok code) :
    match m.body? with
    | none => code = none
    | some p => ∃ (l : CodeLayout) (handlers : List Handler), l.Storable ∧ p = l.bytes ∧
        code = some (l.body m.pool handlers) := by
  obtain ⟨found, hfound, h⟩ := bind_eq_ok_iff.mp h
  have hfirst := AttributeTable.findIn_eq_ok hfound
  rw [body?, AttributeTable.payload?]
  cases hpayload : m.table.payloadIn "Code" m.table.raw with
  | none =>
    rw [hpayload] at hfirst
    rw [hfirst] at h
    exact (Except.ok.inj h).symm
  | some p =>
    rw [hpayload] at hfirst
    obtain ⟨a, ha, rfl⟩ := hfirst
    obtain ⟨l, handlers, hl, hp, -, rfl⟩ := decode_code_eq_ok_iff.mp ha
    exact ⟨l, handlers, hl, hp, (Except.ok.inj h).symm⟩

structure ListedField (m : Member) (s : MemberSummary) : Prop where
  name : m.name = .ok s.name
  descriptor : m.descriptor = .ok s.descriptor
  type : ∃ type, m.type = .ok type ∧ type.descriptor = s.descriptor

/-- A method as a summary lists it, with the length of the bytecode in its first body. -/
structure ListedMethod (m : Member) (s : MethodSummary) : Prop where
  name : m.name = .ok s.name
  descriptor : m.descriptor = .ok s.descriptor
  type : ∃ type, m.methodType = .ok type ∧ type.toSignature.descriptor = s.descriptor
  body : match m.body? with
    | none => s.body = none
    | some p => ∃ l : CodeLayout, l.Storable ∧ p = l.bytes ∧
        s.body.map BodySummary.codeLength = some l.code.length

theorem listedField_of_ofField {s : MemberSummary} (h : MemberSummary.ofField m = .ok s) :
    ListedField m s := by
  obtain ⟨name, hname, h⟩ := bind_eq_ok_iff.mp h
  obtain ⟨descriptor, hdescriptor, h⟩ := bind_eq_ok_iff.mp h
  obtain ⟨type, htype, h⟩ := bind_eq_ok_iff.mp h
  obtain rfl := Except.ok.inj h
  obtain ⟨text, htext, hread⟩ := bind_eq_ok_iff.mp htype
  obtain rfl := Except.ok.inj (hdescriptor.symm.trans htext)
  exact ⟨hname, hdescriptor, type, htype,
    (Signature.ofDescriptor_eq_ok_iff.mp (ok_of_mapError hread)).1⟩

theorem listedMethod_of_ofMethod {s : MethodSummary} (h : MethodSummary.ofMethod m = .ok s) :
    ListedMethod m s := by
  obtain ⟨type, htype, h⟩ := bind_eq_ok_iff.mp h
  obtain ⟨name, hname, h⟩ := bind_eq_ok_iff.mp h
  obtain ⟨descriptor, hdescriptor, h⟩ := bind_eq_ok_iff.mp h
  obtain ⟨code, hcode, h⟩ := bind_eq_ok_iff.mp h
  obtain rfl := Except.ok.inj h
  obtain ⟨text, htext, hread⟩ := bind_eq_ok_iff.mp htype
  obtain rfl := Except.ok.inj (hdescriptor.symm.trans htext)
  have hwritten := MethodType.descriptor_of_ofDescriptor (ok_of_mapError hread)
  refine ⟨hname, hdescriptor, ⟨type, htype, hwritten⟩, ?_⟩
  have hbody := code_eq_ok hcode
  cases hp : m.body? with
  | none =>
    rw [hp] at hbody
    simp [hbody]
  | some p =>
    rw [hp] at hbody
    obtain ⟨l, handlers, hl, hp, rfl⟩ := hbody
    exact ⟨l, hl, hp, rfl⟩

end Member

namespace Class

variable {c c' : Class} {bytes : List UInt8}

/-- Classes that differ in the bytes of attributes alone, of which the first source file stays as it
is and the first body of a method changes only within its attributes. -/
structure SameButPayloads (c c' : Class) : Prop where
  minorVersion : c'.raw.minorVersion = c.raw.minorVersion
  majorVersion : c'.raw.majorVersion = c.raw.majorVersion
  pool : c'.raw.pool = c.raw.pool
  accessFlags : c'.raw.accessFlags = c.raw.accessFlags
  thisClass : c'.raw.thisClass = c.raw.thisClass
  superClass : c'.raw.superClass = c.raw.superClass
  interfaces : c'.raw.interfaces = c.raw.interfaces
  fields : List.Forall₂ Member.SameButPayloads c.fields c'.fields
  methods : List.Forall₂ Member.SameButInner c.methods c'.methods
  attributes :
    c'.raw.attributes.map RawAttribute.nameIndex = c.raw.attributes.map RawAttribute.nameIndex
  sourceFile : c'.table.payload? "SourceFile" = c.table.payload? "SourceFile"

theorem raw_of_ofFile {raw : ClassFile} (h : ofFile raw = .ok c) : c.raw = raw := by
  obtain ⟨thisName, -, h⟩ := bind_eq_ok_iff.mp h
  split_ifs at h
  · rw [← Except.ok.inj h]
  · obtain ⟨superName, -, h⟩ := bind_eq_ok_iff.mp h
    rw [← Except.ok.inj h]

theorem ofFile_of_ofBytes (h : ofBytes bytes = .ok c) : ofFile c.raw = .ok c := by
  rw [ofBytes] at h
  split at h
  · cases h
  · rename_i raw hraw
    have hfile := ok_of_mapError h
    rwa [raw_of_ofFile hfile]

theorem ofFile_congr {raw raw' : ClassFile} (hpool : raw'.pool = raw.pool)
    (hthis : raw'.thisClass = raw.thisClass) (hsuper : raw'.superClass = raw.superClass) :
    ofFile raw' = (ofFile raw).map fun c => { c with raw := raw' } := by
  simp only [ofFile, hpool, hthis, hsuper]
  cases raw.pool.className raw.thisClass.toNat with
  | error e => rfl
  | ok name =>
    by_cases hnone : raw.superClass = 0
    · simp [hnone, Bind.bind, Except.bind, Except.map, Pure.pure, Except.pure]
    · cases raw.pool.className raw.superClass.toNat <;>
        simp [hnone, Bind.bind, Except.bind, Except.map, Pure.pure, Except.pure]

theorem SameButPayloads.names_eq (h : c.SameButPayloads c') (hc : ofFile c.raw = .ok c)
    (hc' : ofFile c'.raw = .ok c') : c'.thisName = c.thisName ∧ c'.superName = c.superName := by
  rw [ofFile_congr h.pool h.thisClass h.superClass, hc] at hc'
  have heq : { c with raw := c'.raw } = c' := Except.ok.inj hc'
  constructor <;> rw [← heq]

theorem SameButPayloads.sourceFile_eq (h : c.SameButPayloads c') :
    c'.sourceFile = c.sourceFile := by
  have hfind : c'.table.find? "SourceFile" = c.table.find? "SourceFile" :=
    AttributeTable.findIn_eq_of_payloadIn h.pool h.attributes h.sourceFile
  rw [Class.sourceFile, Class.sourceFile, hfind]

theorem SameButPayloads.interfaces_eq (h : c.SameButPayloads c') :
    c'.interfaces = c.interfaces := by
  simp only [Class.interfaces, Class.pool, h.pool, h.interfaces]

theorem SameButPayloads.accessFlags_eq (h : c.SameButPayloads c') :
    c'.accessFlags = c.accessFlags := by
  rw [Class.accessFlags, Class.accessFlags, h.accessFlags]

theorem SameButPayloads.fields_eq (h : c.SameButPayloads c') :
    c'.fields.mapM MemberSummary.ofField = c.fields.mapM MemberSummary.ofField := by
  have halike : Alike Eq (List.Forall₂ Eq) (c.fields.mapM MemberSummary.ofField)
      (c'.fields.mapM MemberSummary.ofField) := by
    refine Alike.mapM (h.fields.imp fun m m' hm => ?_)
    rw [hm.ofField_eq]
    exact Alike.refl (fun _ => rfl) (fun _ => rfl) _
  rw [List.forall₂_eq_eq_eq] at halike
  exact halike.eq.symm

/-- The same error twice, or errors apart for the first bodies of two methods at one position. -/
inductive MovedIn (c c' : Class) : DecodeError → DecodeError → Prop
  | same (e : DecodeError) : MovedIn c c' e e
  | method {m m' : Member} {p p' : List UInt8} {e e' : LayoutError} :
    (m, m') ∈ c.methods.zip c'.methods → m.body? = some p → m'.body? = some p' → Apart p p' e e' →
    MovedIn c c' (.layout e) (.layout e')

theorem movedIn_of_moved {m m' : Member} {e e' : DecodeError}
    (hm : (m, m') ∈ c.methods.zip c'.methods) (h : Moved m.body? m'.body? e e') :
      MovedIn c c' e e' := by
  generalize hbody : m.body? = body at h
  generalize hbody' : m'.body? = body' at h
  cases h with
  | same => exact .same e
  | apart h => exact .method hm hbody hbody' h

theorem SameButPayloads.methods_alike (h : c.SameButPayloads c') : Alike (MovedIn c c') Eq
    (c.methods.mapM MethodSummary.ofMethod) (c'.methods.mapM MethodSummary.ofMethod) := by
  obtain ⟨hlength, hmethods⟩ := List.forall₂_iff_zip.mp h.methods
  rw [← List.forall₂_eq_eq_eq]
  refine Alike.mapM (List.forall₂_iff_zip.mpr ⟨hlength, fun {m m'} hm => ?_⟩)
  exact (hmethods hm).ofMethod_alike.mono (fun e e' => movedIn_of_moved hm) fun _ _ hs => hs

theorem SameButPayloads.ofClass_alike (h : c.SameButPayloads c') (hc : ofFile c.raw = .ok c)
    (hc' : ofFile c'.raw = .ok c') :
      Alike (MovedIn c c') Eq (Summary.ofClass c) (Summary.ofClass c') := by
  obtain ⟨hthis, hsuper⟩ := h.names_eq hc hc'
  simp only [Summary.ofClass, h.interfaces_eq, h.sourceFile_eq, h.fields_eq, h.minorVersion,
    h.majorVersion, h.accessFlags_eq, hthis, hsuper]
  refine Alike.bind_same MovedIn.same _ fun interfaces =>
    Alike.bind_same MovedIn.same _ fun sourceFile =>
    Alike.bind_same MovedIn.same _ fun fields =>
      h.methods_alike.bind fun methods methods' hmethods => ?_
  rw [hmethods]
  exact .ok rfl

end Class

namespace Summary

variable {c c' : Class} {bytes bytes' : List UInt8} {s : Summary}

theorem ofHierarchy_none (c : Class) : ofHierarchy c none = (ofClass c).mapError .decode := by
  unfold ofHierarchy
  cases ofClass c <;> rfl

theorem listed_of_ofClass (h : ofClass c = .ok s) :
    List.Forall₂ Member.ListedField c.fields s.fields ∧
    List.Forall₂ Member.ListedMethod c.methods s.methods := by
  obtain ⟨interfaces, -, h⟩ := bind_eq_ok_iff.mp h
  obtain ⟨sourceFile, -, h⟩ := bind_eq_ok_iff.mp h
  obtain ⟨fields, hfields, h⟩ := bind_eq_ok_iff.mp h
  obtain ⟨methods, hmethods, h⟩ := bind_eq_ok_iff.mp h
  obtain rfl := Except.ok.inj h
  exact ⟨(mapM_eq_ok_iff.mp hfields).imp fun _ _ => Member.listedField_of_ofField,
    (mapM_eq_ok_iff.mp hmethods).imp fun _ _ => Member.listedMethod_of_ofMethod⟩

/-- A summary without a hierarchy does not depend on the bytes of attributes other than the first
source file of the class and the first bodies of its methods, nor on those of the attributes within
these. Only where what stands in a body behind its attributes breaks the layout, the fault is found
as many bytes later as those have more. A summary lists all fields and all methods in their
order. -/
theorem ofHierarchy_sameButPayloads (hc : Class.ofBytes bytes = .ok c) :
    (∀ bytes' c', Class.ofBytes bytes' = .ok c' → c.SameButPayloads c' →
      ofHierarchy c' none = ofHierarchy c none ∨
      ∃ m m' p p' e e', (m, m') ∈ c.methods.zip c'.methods ∧ m.body? = some p ∧ m'.body? = some p' ∧
        Apart p p' e e' ∧ ofHierarchy c none = .error (.decode (.layout e)) ∧
        ofHierarchy c' none = .error (.decode (.layout e'))) ∧
    ∀ s, ofHierarchy c none = .ok s → List.Forall₂ Member.ListedField c.fields s.fields ∧
      List.Forall₂ Member.ListedMethod c.methods s.methods := by
  refine ⟨fun bytes' c' hc' h => ?alike, fun s hs => ?listed⟩
  case alike =>
    -- The names of both classes are those their files declare, so they are the same as well.
    have halike := h.ofClass_alike (Class.ofFile_of_ofBytes hc) (Class.ofFile_of_ofBytes hc')
    rw [ofHierarchy_none, ofHierarchy_none]
    generalize ofClass c = outcome at halike
    generalize ofClass c' = outcome' at halike
    cases halike with
    | ok hsame => exact .inl (by rw [hsame])
    | error hmoved =>
      cases hmoved with
      | same e => exact .inl rfl
      | method hm hp hp' hapart => exact .inr ⟨_, _, _, _, _, _, hm, hp, hp', hapart, rfl, rfl⟩
  case listed =>
    rw [ofHierarchy_none] at hs
    exact listed_of_ofClass (ok_of_mapError hs)

def oneInside (inner : List UInt8) : CodeLayout :=
  ⟨1, 1, [0xb1], [], [⟨6, inner⟩]⟩

/-- A class whose one method has a stamp and a body, and bytes behind the attribute in that. -/
def stampedFile (stamp inner rest : List UInt8) : ClassFile where
  minorVersion := 0
  majorVersion := 52
  pool := ⟨[some (.utf8 [0x41] "A"), some (.classRef 1),
    some (.utf8 [0x43, 0x6f, 0x64, 0x65] "Code"), some (.utf8 [0x6d] "m"),
      some (.utf8 [0x28, 0x29, 0x56] "()V"), some (.utf8 [0x53] "S")]⟩
  accessFlags := 0x21
  thisClass := 2
  superClass := 0
  interfaces := []
  fields := []
  methods := [⟨1, 4, 5, [⟨6, stamp⟩, ⟨3, (oneInside inner).announcing 1 rest⟩]⟩]
  attributes := [⟨6, stamp⟩]

def stamped (stamp inner rest : List UInt8) : Class :=
  ⟨stampedFile stamp inner rest, "A", none⟩

theorem oneInside_storable {inner : List UInt8} (h : inner.length < 2 ^ 32) :
    (oneInside inner).Storable := by
  refine ⟨by simp [oneInside], by simp [oneInside], by simp [oneInside], fun a ha => ?_⟩
  obtain rfl := List.mem_singleton.mp ha
  exact h

theorem sameButPayloads_stamped (stamp stamp' rest : List UInt8) {inner inner' : List UInt8}
    (h : inner.length < 2 ^ 32) (h' : inner'.length < 2 ^ 32) :
    (stamped stamp inner rest).SameButPayloads (stamped stamp' inner' rest) := by
  refine ⟨rfl, rfl, rfl, rfl, rfl, rfl, rfl, .nil, .cons ?_ .nil, rfl, rfl⟩
  refine ⟨⟨rfl, rfl, rfl, rfl, rfl⟩, fun {p p'} hp hp' => ?_⟩
  have hfirst : (oneInside inner).announcing 1 rest = p := Option.some.inj hp
  have hfirst' : (oneInside inner').announcing 1 rest = p' := Option.some.inj hp'
  rw [← hfirst, ← hfirst']
  exact .inner (oneInside_storable h) (oneInside_storable h') rfl le_rfl

theorem ofHierarchy_sameButPayloads_stamped : ∃ s, ofHierarchy (stamped [] [] []) none = .ok s ∧
    ofHierarchy (stamped [1, 2] [3, 4, 5] []) none = .ok s ∧
    s.methods.map (fun m => (m.descriptor, m.body.map BodySummary.codeLength)) = [("()V", some 1)] ∧
    List.Forall₂ Member.ListedMethod (stamped [] [] []).methods s.methods := by
  have hc :
      Class.ofBytes ((stampedFile [] [] []).bytes 7) = .ok (stamped [] [] []) := by decide +kernel
  have hc' : Class.ofBytes ((stampedFile [1, 2] [3, 4, 5] []).bytes 7) =
      .ok (stamped [1, 2] [3, 4, 5] []) := by decide +kernel
  have hmethods : (ofHierarchy (stamped [] [] []) none).toOption.map (fun s =>
      s.methods.map fun m => (m.descriptor, m.body.map BodySummary.codeLength)) =
        some [("()V", some 1)] := by
    decide +kernel
  have hsame := sameButPayloads_stamped [] [1, 2] [] (by decide : ([] : List UInt8).length < 2 ^ 32)
    (by decide : ([3, 4, 5] : List UInt8).length < 2 ^ 32)
  obtain ⟨halike, hlisted⟩ := ofHierarchy_sameButPayloads hc
  cases hs : ofHierarchy (stamped [] [] []) none with
  | error e =>
    rw [hs] at hmethods
    cases hmethods
  | ok s =>
    rw [hs] at hmethods
    refine ⟨s, rfl, ?_, Option.some.inj hmethods, (hlisted s hs).2⟩
    obtain heq | ⟨m, m', p, p', e, e', -, -, -, -, he, -⟩ := halike _ _ hc' hsame
    · rw [heq, hs]
    · rw [hs] at he
      cases he

/-- A stray byte behind the attributes of a body is found where it stands. -/
theorem ofHierarchy_stray :
    Class.ofBytes ((stampedFile [] [] [0]).bytes 7) = .ok (stamped [] [] [0]) ∧
    Class.ofBytes ((stampedFile [] [0] [0]).bytes 7) = .ok (stamped [] [0] [0]) ∧
    (stamped [] [] [0]).SameButPayloads (stamped [] [0] [0]) ∧
    ofHierarchy (stamped [] [] [0]) none =
      .error (.decode (.layout ⟨.trailing 1 "Code attribute", 19⟩)) ∧
    ofHierarchy (stamped [] [0] [0]) none =
      .error (.decode (.layout ⟨.trailing 1 "Code attribute", 20⟩)) := by
  have hsame := sameButPayloads_stamped [] [] [0] (by decide : ([] : List UInt8).length < 2 ^ 32)
    (by decide : ([0] : List UInt8).length < 2 ^ 32)
  exact ⟨by decide +kernel, by decide +kernel, hsame, rfl, rfl⟩

end Summary

end ClassAtlas
