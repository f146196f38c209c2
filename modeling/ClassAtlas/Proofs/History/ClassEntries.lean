import ClassAtlas.Proofs.Hierarchy.Lineage
import ClassAtlas.Proofs.History.Calls

/-! The two ways to the name of a class, from the front of its file and from the whole of it. A
classpath entry that is a class file is chosen by the one and decoded by the other, and since they
agree it gives a class of the name that was asked for. -/

namespace ClassAtlas.Finder

variable {fs : FileSystem} {classpath : Classpath} {journal : Log.Journal}

theorem found_live (calls : List Call) {name : NameLike} {c : FoundClass}
    (h : answer (find fs name) (live (calls.map (Prod.mk fs)) (new classpath journal)) = .ok c) :
    isQualifiedName (slashes name.text).toList = true ∧
      fetchAnew fs (live (calls.map (Prod.mk fs)) (new classpath journal)).resolver
        (slashes name.text) = .ok c := by
  have halike : (alike fs).r (live (calls.map (Prod.mk fs)) (new classpath journal))
      (new classpath journal) := live_alike ((alike fs).refl _) calls
  rw [answer_find] at h
  split_ifs at h with hvalid
  rw [halike.2] at h
  have hnew : fetchAnew fs (new classpath journal).resolver (slashes name.text) = .ok c := h
  exact ⟨by rwa [isQualifiedName_slashes], by rwa [fetchAnew_eq halike.1]⟩

/-- The name that the front of a file gives is that of the class in the file, and what is wrong with
the front is wrong with the file. Hence classes that a class file on the classpath gives, found
after any calls while the files stay as they are, declare the name they are found under. -/
theorem ownName_agrees (bytes : List UInt8) (fs : FileSystem) (classpath : Classpath)
    (journal : Log.Journal) (calls : List Call) :
    (∀ c, Class.ofBytes bytes = .ok c → Class.nameOfBytes bytes = .ok c.thisName) ∧
    (∀ e, Class.nameOfBytes bytes = .error (.layout e) → Class.ofBytes bytes = .error (.layout e)) ∧
    (∀ e, Class.nameOfBytes bytes = .error (.reference e) →
      Class.ofBytes bytes = .error (.reference e) ∨ ∃ l, Class.ofBytes bytes = .error (.layout l)) ∧
    ((∃ (front : ClassFile.Front) (count : Nat) (back : List UInt8), front.Announced count ∧
        bytes = front.bytes count ++ back ∧ ∀ back',
          Class.nameOfBytes (front.bytes count ++ back') = front.name.mapError .reference) ∨
      ∃ e, Class.nameOfBytes bytes = .error (.layout e) ∧ (e.RunsOut bytes.length ∨
        ∀ more, Class.nameOfBytes (bytes ++ more) = .error (.layout e))) ∧
    ∀ (name : NameLike) (c : FoundClass),
      let f := live (calls.map (Prod.mk fs)) (new classpath journal)
      answer (find fs name) f = .ok c →
        (∃ path, Obtains fs f.resolver (slashes name.text) path c.toClass) ∧
        ∀ path, Obtains fs f.resolver (slashes name.text) path c.toClass →
          Resolver.IsClassFile fs path → c.thisName = slashes name.text := by
  refine ⟨?decoded, ?layout, ?reference, ?front, ?found⟩
  case decoded => exact fun c => Class.nameOfBytes_of_ofBytes
  case layout => exact fun e => Class.ofBytes_of_nameOfBytes_layout
  case reference => exact fun e => Class.ofBytes_of_nameOfBytes_reference
  case front => exact Class.nameOfBytes_of_front bytes
  case found =>
    intro name c f hfind
    have hresolver : (Resolver.alike fs).r f.resolver (.new classpath journal) :=
      (live_alike ((alike fs).refl _) calls).1
    have hdeclared (path : Path) : f.resolver.declaredAt fs path = Resolver.readAnew fs path :=
      congrFun hresolver.2.2 path
    obtain ⟨hvalid, hfetch⟩ := found_live calls hfind
    exact ⟨exists_obtains hvalid hfetch, fun path hobtains =>
      hobtains.thisName_eq (hdeclared path)⟩

/-- A class file in which the index of the class itself leads nowhere. -/
def strayFile : List UInt8 :=
  (pairFile 0x41 0x42).set 27 9

theorem ownName_agrees_pair :
    let f := live [(pairFiles, .find (.plain "B"))] pairFinder
    let cut : LayoutError := ⟨.truncated "utf8 bytes" 1 1, 20⟩
    (∃ c, Class.ofBytes (pairFile 0x41 0x42) = .ok c ∧
      Class.nameOfBytes (pairFile 0x41 0x42) = .ok c.thisName) ∧
    (Class.nameOfBytes ((pairFile 0x41 0x42).take 20) = .error (.layout cut) ∧
      Class.ofBytes ((pairFile 0x41 0x42).take 20) = .error (.layout cut)) ∧
    (Class.nameOfBytes strayFile = .error (.reference (.wrongKind 9 .classRef none)) ∧
      ∃ e, Class.ofBytes strayFile = .error e) ∧
    ∃ c, answer (find pairFiles (.plain "A")) f = .ok c ∧ c.thisName = "A" := by
  intro f cut
  have hagrees (bytes : List UInt8) := ownName_agrees bytes pairFiles
    ⟨[⟨.single, ["A.class"]⟩, ⟨.single, ["B.class"]⟩]⟩ (.silent "engine") [.find (.plain "B")]
  refine ⟨?decoded, ?layout, ?reference, ?found⟩
  case decoded =>
    have hsome : (Class.ofBytes (pairFile 0x41 0x42)).toOption.isSome = true := by decide +kernel
    obtain ⟨c, hc⟩ := Option.isSome_iff_exists.mp hsome
    have hclass : Class.ofBytes (pairFile 0x41 0x42) = .ok c := toOption_eq_some_iff.mp hc
    exact ⟨c, hclass, (hagrees _).1 c hclass⟩
  case layout =>
    have hname : Class.nameOfBytes ((pairFile 0x41 0x42).take 20) = .error (.layout cut) := by
      decide +kernel
    exact ⟨hname, (hagrees _).2.1 _ hname⟩
  case reference =>
    have hname :
        Class.nameOfBytes strayFile = .error (.reference (.wrongKind 9 .classRef none)) := by
      decide +kernel
    refine ⟨hname, ?_⟩
    rcases (hagrees _).2.2.1 _ hname with hclass | ⟨l, hclass⟩
    · exact ⟨_, hclass⟩
    · exact ⟨_, hclass⟩
  case found =>
    have hsome : (answer (find pairFiles (.plain "A")) f).toOption.isSome = true := by
      decide +kernel
    obtain ⟨c, hc⟩ := Option.isSome_iff_exists.mp hsome
    have hfind : answer (find pairFiles (.plain "A")) f = .ok c := toOption_eq_some_iff.mp hc
    obtain ⟨⟨path, hobtains⟩, hname⟩ := (hagrees []).2.2.2.2 (.plain "A") c hfind
    have hfiles : ∀ path ∈ f.resolver.classpath.entries, Resolver.IsClassFile pairFiles path := by
      decide +kernel
    exact ⟨c, hfind, hname path hobtains (hfiles path hobtains.1.mem)⟩

end ClassAtlas.Finder
