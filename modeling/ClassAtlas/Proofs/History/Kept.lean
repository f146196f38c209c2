import ClassAtlas.Proofs.Hierarchy.Lineage
import ClassAtlas.Proofs.History.Lookups

/-! What a finder keeps while files come and go: the classes it has found, whatever became of their
files, and nothing else that would outlive its closing. -/

namespace ClassAtlas.Finder

variable {fs : FileSystem} {f : Finder} {classpath : Classpath} {journal : Log.Journal}
  {found : List (String × FoundClass)}

theorem keeps_after {α : Type} {x : Finding α} {names : List NameLike} (hx : Gains fs f x names)
    (h : Keeps found f.cache) : Keeps (found ++ foundFor fs f names) (after x f).cache :=
  h.gained (hx f ((alike fs).refl f)) fun _ => valid_of_mem_foundFor

theorem keeps_build (h : Keeps found f.cache) (root : FoundClass) :
    Keeps (found ++ foundFor fs f (buildLookups fs f root))
      (after (Hierarchy.build fs root) f).cache := by
  rw [Hierarchy.build_eq, buildLookups]
  rcases root.qualifiedName with e | name
  · exact (List.append_nil found).symm ▸ h
  · show Keeps _ (after (get >>= fun f => Hierarchy.buildWithin fs (f.capacity fs + 1) name root)
      f).cache
    rw [after_get_bind]
    exact keeps_after (Hierarchy.gains_buildWithin (f.capacity fs + 1) name root) h

theorem Call.next_keeps (h : Keeps found f.cache) (call : Call) :
    Keeps (found ++ foundFor fs f (call.lookups fs f)) (call.next fs f).cache := by
  cases call with
  | find name => exact keeps_after (gains_find name) h
  | findOptional name => exact keeps_after (gains_find name).optional h
  | findSuper c => exact keeps_after (gains_findSuper c) h
  | findInterfaces c => exact keeps_after (gains_findInterfaces c) h
  | isCached name => exact (List.append_nil found).symm ▸ h
  | build root => exact keeps_build h root
  | buildNamed name =>
    have hfirst : Keeps (found ++ foundFor fs f [name]) (after (Finder.find fs name) f).cache :=
      keeps_after (gains_find name) h
    rw [lookups, next, Finder.buildNamed, after_bind, ← List.singleton_append, foundFor_append,
      ← List.append_assoc]
    cases answer (Finder.find fs name) f with
    | error e => exact (List.append_nil _).symm ▸ hfirst
    | ok root =>
      let t := after (Finder.find fs name) f
      have halike : (alike fs).r f t := (alike fs).symm ((steady_find name).after_alike f)
      show Keeps (found ++ foundFor fs f [name] ++ foundFor fs f (buildLookups fs t root))
        (after (Hierarchy.build fs root) t).cache
      rw [foundFor_eq halike (buildLookups fs t root)]
      exact keeps_build hfirst root
  | close => exact (List.append_nil found).symm ▸ h

theorem live_keeps (h : Keeps found f.cache) (history : List (FileSystem × Call)) :
    Keeps (found ++ foundThrough history f) (live history f).cache := by
  induction history generalizing f found with
  | nil => exact (List.append_nil found).symm ▸ h
  | cons event history ih =>
    obtain ⟨fs, call⟩ := event
    rw [foundThrough, ← List.append_assoc]
    exact ih (call.next_keeps h)

theorem Call.next_classpath (call : Call) (f : Finder) :
    (call.next fs f).resolver.classpath = f.resolver.classpath := by
  by_cases hclose : call = .close
  · subst hclose
    rfl
  · exact (call.next_alike_self f hclose).1.1

theorem live_classpath (history : List (FileSystem × Call)) (f : Finder) :
    (live history f).resolver.classpath = f.resolver.classpath := by
  induction history generalizing f with
  | nil => rfl
  | cons event history ih => exact (ih _).trans (event.2.next_classpath f)

theorem isCached_error {name : NameLike} {e : NameError} (h : name.toSpan = .error e) :
    f.isCached name = .error e := by
  rw [isCached, h]
  rfl

namespace Keeps

theorem find_eq (h : Keeps found f.cache) {key : String} {c : FoundClass}
    (hfound : (key, c) ∈ found) {name : NameLike} (hname : slashes name.text = key)
    (fs : FileSystem) : answer (find fs name) f = .ok c := by
  have hvalid : isQualifiedName name.text.toList = true := by
    rw [← isQualifiedName_slashes, hname]
    exact h.valid _ hfound
  have hget : f.cache.get? (.plain key) = some c := h.get _ hfound
  rw [answer_find, if_pos hvalid, hname, Finder.found, hget]
  rfl

theorem isCached_eq (h : Keeps found f.cache) {name : NameLike} {span : NameSpan}
    (hspan : name.toSpan = .ok span) (htext : span.toOwned.text = name.text) :
    f.isCached name = .ok (decide (slashes name.text ∈ found.map Prod.fst)) := by
  have hkey : (NameLike.span span).key = slashes name.text := by
    show span.toOwned.normalized = _
    rw [QualifiedName.normalized_eq, htext]
  have hmem : f.cache.contains (.span span) = decide (slashes name.text ∈ found.map Prod.fst) := by
    rw [Bool.eq_iff_iff, NameMap.contains_iff, hkey, h.mem_names, decide_eq_true_eq]
  rw [isCached, hspan]
  exact congrArg Except.ok hmem

theorem isCached_true_iff (h : Keeps found f.cache) (name : NameLike) :
    f.isCached name = .ok true ↔ slashes name.text ∈ found.map Prod.fst := by
  obtain ⟨span, hspan, htext⟩ | ⟨⟨e, he⟩, hinvalid⟩ := name.toSpan_owned
  · rw [h.isCached_eq hspan htext, Except.ok.injEq, decide_eq_true_eq]
  · have hnot : slashes name.text ∉ found.map Prod.fst := by
      intro hmem
      obtain ⟨p, hp, hkey⟩ := List.mem_map.mp hmem
      have hvalid := h.valid p hp
      rw [hkey, isQualifiedName_slashes, hinvalid] at hvalid
      cases hvalid
    simp [isCached_error he, hnot]

theorem isCached_false_iff (h : Keeps found f.cache) (name : NameLike) :
    f.isCached name = .ok false ↔
      isQualifiedName name.text.toList = true ∧ slashes name.text ∉ found.map Prod.fst := by
  obtain ⟨span, hspan, htext⟩ | ⟨⟨e, he⟩, hinvalid⟩ := name.toSpan_owned
  · have hvalid : isQualifiedName name.text.toList = true := htext ▸ span.toOwned.valid
    rw [h.isCached_eq hspan htext, Except.ok.injEq, decide_eq_false_iff_not]
    simp [hvalid]
  · simp [isCached_error he, hinvalid]

theorem size_eq (h : Keeps found f.cache) :
    f.cache.size = (found.map Prod.fst).toFinset.card := by
  have hsame : (found.map Prod.fst).toFinset = f.cache.names.toFinset := by
    ext key
    rw [List.mem_toFinset, List.mem_toFinset, h.mem_names]
  rw [hsame, List.toFinset_card_of_nodup h.nodup, NameMap.names, List.length_map]
  rfl

/-- Once closed, a finder takes a name it has not found from the files as they are. -/
theorem find_close_eq (h : Keeps found f.cache) (hclasspath : f.resolver.classpath = classpath)
    (hentries : ∀ path ∈ classpath.entries,
      fs.isFolder path = .ok true ∨ path.suffix.toLower ≠ ".class") {name : NameLike}
    (hname : slashes name.text ∉ found.map Prod.fst) :
    answer (find fs name) f.close = answer (find fs name) (new classpath journal) := by
  have hmiss : f.cache.get? (.plain (slashes name.text)) = none := by
    rw [NameMap.get?_eq_none_iff]
    exact fun hmem => hname ((h.mem_names _).mp hmem)
  have harchives : Resolver.archiveAt fs f.close.resolver =
      Resolver.archiveAt fs (new classpath journal).resolver := rfl
  have hget (relative : String) : answer (Resolver.get fs relative) f.close.resolver =
      answer (Resolver.get fs relative) (new classpath journal).resolver :=
    Resolver.answer_get_eq hclasspath harchives hentries relative
  have hfetch (key : String) : fetchAnew fs f.close.resolver key =
      fetchAnew fs (new classpath journal).resolver key := by
    rw [fetchAnew, fetchAnew, hget]
  have hclosed : f.close.cache.get? (.plain (slashes name.text)) = none := hmiss
  rw [answer_find, answer_find, Finder.found, Finder.found, hclosed, hfetch]
  rfl

end Keeps

/-- What a finder keeps, whatever happens to the files between the calls on it: every class it has
found is found again under each name of the same slashed form, just their names are cached, and a
failed lookup caches nothing. Other names it looks up like a new finder once it has been closed,
where no class file stands on the classpath by itself. -/
theorem live_keeps_found (classpath : Classpath) (journal journal' : Log.Journal)
    (history : List (FileSystem × Call)) :
    let f := live history (new classpath journal)
    let found := foundThrough history (new classpath journal)
    (∀ key c, (key, c) ∈ found → ∀ (fs : FileSystem) (name : NameLike),
      slashes name.text = key → answer (find fs name) f = .ok c) ∧
    (∀ name, (f.isCached name = .ok true ↔ slashes name.text ∈ found.map Prod.fst) ∧
      (f.isCached name = .ok false ↔
        isQualifiedName name.text.toList = true ∧ slashes name.text ∉ found.map Prod.fst)) ∧
    f.cache.size = (found.map Prod.fst).toFinset.card ∧
    (∀ fs name e, answer (find fs name) f = .error e →
      (after (find fs name) f).cache = f.cache) ∧
    ∀ (fs : FileSystem) (name : NameLike),
      (∀ path ∈ classpath.entries, fs.isFolder path = .ok true ∨ path.suffix.toLower ≠ ".class") →
      slashes name.text ∉ found.map Prod.fst →
      answer (find fs name) f.close = answer (find fs name) (new classpath journal') := by
  intro f found
  have hnew : Keeps [] (new classpath journal).cache := keeps_empty
  have hkeeps : Keeps found f.cache := live_keeps hnew history
  have hclasspath : f.resolver.classpath = classpath := live_classpath history _
  refine ⟨?again, ?cached, ?size, ?failed, ?closed⟩
  case again => exact fun key c hfound fs name hname => hkeeps.find_eq hfound hname fs
  case cached =>
    exact fun name => ⟨hkeeps.isCached_true_iff name, hkeeps.isCached_false_iff name⟩
  case size => exact hkeeps.size_eq
  case failed =>
    intro fs name e he
    obtain ⟨hcache, -⟩ | ⟨n, c, -, -, hc, -⟩ := cache_after_find fs name f
    · exact hcache
    · cases he.symm.trans hc
  case closed =>
    exact fun fs name hentries hname => hkeeps.find_close_eq hclasspath hentries hname

/-- Files of classes in a folder by the name of `lib`. -/
def libFiles (files : List (String × FileNode)) : FileSystem :=
  ⟨.folder [("lib", .folder files)], [], []⟩

def libClasspath : Classpath :=
  ⟨[⟨.single, ["lib"]⟩]⟩

/-- A class is found, and its file gives way to that of the class which was looked up in vain. -/
def libHistory : List (FileSystem × Call) :=
  let files := libFiles [("A.class", .file (pairFile 0x41 0x42))]
  [(files, .find (.plain "A")), (files, .find (.plain "B"))]

theorem live_keeps_found_lib :
    let journal : Log.Journal := .silent "engine"
    let f := live libHistory (new libClasspath journal)
    let files := libFiles [("B.class", .file (pairFile 0x42 0x41))]
    (∃ c, answer (find files (.plain "A")) f = .ok c) ∧ f.isCached (.plain "A") = .ok true ∧
      f.cache.size = 1 ∧
      answer (find files (.plain "B")) f.close =
        answer (find files (.plain "B")) (new libClasspath journal) := by
  intro journal f files
  obtain ⟨hagain, hcached, hsize, -, hclosed⟩ :=
    live_keeps_found libClasspath journal journal libHistory
  have hkeys : (foundThrough libHistory (new libClasspath journal)).map Prod.fst = ["A"] := by
    decide +kernel
  obtain ⟨⟨key, c⟩, hfound, hkey⟩ := List.mem_map.mp (hkeys ▸ List.mem_singleton_self "A")
  obtain rfl : key = "A" := hkey
  refine ⟨⟨c, hagain "A" c hfound files (.plain "A") (by decide)⟩, ?_, ?_, ?_⟩
  · exact ((hcached (.plain "A")).1).mpr (by rw [hkeys]; decide)
  · rw [hsize, hkeys]
    rfl
  · exact hclosed files (.plain "B") (by decide +kernel) (by rw [hkeys]; decide)

end ClassAtlas.Finder
