import ClassAtlas.Config
import ClassAtlas.Proofs.Finder.Failures
import ClassAtlas.Proofs.Hierarchy.Lineage

/-! Classpaths put one behind the other. The second one is asked only where the first has nothing;
elsewhere a lookup does what it does without the second, whatever files there are behind. -/

namespace ClassAtlas

namespace FileSystem

/-- What is at a path: of a file what reading it gives, of a folder nothing of what is in it. -/
def glimpse (fs : FileSystem) (path : Path) :
    Except FileFault (Option (Except FileError (List UInt8))) :=
  (fs.node path).map fun node =>
    match node with
    | .file _ => some (fs.read path)
    | .folder _ => none

variable {fs fs' : FileSystem} {path : Path}

theorem node_of_glimpse (h : fs'.glimpse path = fs.glimpse path) :
    (∃ bytes bytes', fs.node path = .ok (.file bytes) ∧ fs'.node path = .ok (.file bytes') ∧
      fs'.read path = fs.read path) ∨
      (∃ entries entries', fs.node path = .ok (.folder entries) ∧
        fs'.node path = .ok (.folder entries')) ∨
      ∃ fault, fs.node path = .error fault ∧ fs'.node path = .error fault := by
  rw [glimpse, glimpse] at h
  cases hnode : fs.node path with
  | error fault => cases hnode' : fs'.node path <;> simp_all [Except.map]
  | ok node =>
    cases hnode' : fs'.node path with
    | error fault => simp_all [Except.map]
    | ok node' => cases node <;> cases node' <;> simp_all [Except.map]

theorem isFolder_congr (h : fs'.glimpse path = fs.glimpse path) :
    fs'.isFolder path = fs.isFolder path := by
  rcases node_of_glimpse h with ⟨_, _, h, h', -⟩ | ⟨_, _, h, h'⟩ | ⟨_, h, h'⟩ <;>
    simp [isFolder, probe, h, h', Except.map]

theorem isFile_congr (h : fs'.glimpse path = fs.glimpse path) :
    fs'.isFile path = fs.isFile path := by
  rcases node_of_glimpse h with ⟨_, _, h, h', -⟩ | ⟨_, _, h, h'⟩ | ⟨_, h, h'⟩ <;>
    simp [isFile, probe, h, h', Except.map]

theorem exists_congr (h : fs'.glimpse path = fs.glimpse path) :
    fs'.exists? path = fs.exists? path := by
  rcases node_of_glimpse h with ⟨_, _, h, h', -⟩ | ⟨_, _, h, h'⟩ | ⟨_, h, h'⟩ <;>
    simp [exists?, probe, h, h', Except.map]

theorem read_congr (h : fs'.glimpse path = fs.glimpse path) : fs'.read path = fs.read path := by
  rcases node_of_glimpse h with ⟨_, _, -, -, hread⟩ | ⟨_, _, h, h'⟩ | ⟨_, h, h'⟩
  · exact hread
  · rw [read_of_folder h, read_of_folder h']
  · rw [read_of_error h, read_of_error h']

end FileSystem

namespace Resolver

variable {α β : Type} {fs fs' : FileSystem} {path : Path} {paths more : List Path}
  {relative : String} {r : Resolver}

/-- Files that a lookup cannot tell from each other at an entry of a classpath. -/
structure LooksSame (fs fs' : FileSystem) (relative : String) (path : Path) : Prop where
  cwd : fs'.cwd = fs.cwd
  entry : fs'.glimpse path = fs.glimpse path
  below : fs'.isFile (path.join (Path.ofText relative)) =
    fs.isFile (path.join (Path.ofText relative))

theorem uri_congr (h : fs'.cwd = fs.cwd) (p : Path) : fs'.uri p = fs.uri p := by
  rw [FileSystem.uri, FileSystem.uri, h]

theorem openArchive_congr (h : fs'.glimpse path = fs.glimpse path) :
    openArchive fs' path = openArchive fs path := by
  simp only [openArchive, FileSystem.isFile_congr h, FileSystem.read_congr h]

theorem lookup_congr (h : LooksSame fs fs' relative path) :
    lookup fs' path relative = lookup fs path relative := by
  have hread : declaredName fs' path = declaredName fs path := by
    unfold declaredName
    rw [FileSystem.read_congr h.entry]
  simp only [lookup, inFolder, inArchive, inClassFile, Resource.ofFile, Resource.ofMember, hread,
    openArchive_congr h.entry, FileSystem.isFolder_congr h.entry, FileSystem.exists_congr h.entry,
    h.below, uri_congr h.cwd]

theorem firstOf_congr (h : ∀ path ∈ paths, LooksSame fs fs' relative path) :
    firstOf fs' relative paths = firstOf fs relative paths := by
  induction paths with
  | nil => rfl
  | cons path paths ih =>
    have hlookup := lookup_congr (h path List.mem_cons_self)
    have hrest := ih fun p hp => h p (List.mem_cons_of_mem _ hp)
    rw [firstOf, firstOf, hlookup, hrest]

def onto (r : Resolver) (classpath : Classpath) : Resolver :=
  { r with classpath }

/-- Steps that take no notice of the classpath and open and read at certain paths only. -/
structure Confined (paths : List Path) (x : Resolving α) : Prop where
  answer_onto (r : Resolver) (classpath : Classpath) : answer x (r.onto classpath) = answer x r
  after_onto (r : Resolver) (classpath : Classpath) :
    after x (r.onto classpath) = (after x r).onto classpath
  opened (r : Resolver) : ∀ e ∈ (after x r).archives, e ∈ r.archives ∨ e.1 ∈ paths
  named (r : Resolver) : ∀ e ∈ (after x r).declared, e ∈ r.declared ∨ e.1 ∈ paths

namespace Confined

theorem pure (paths : List Path) (a : α) : Confined paths (pure a : Resolving α) :=
  ⟨fun _ _ => rfl, fun _ _ => rfl, fun _ _ he => .inl he, fun _ _ he => .inl he⟩

theorem throw (paths : List Path) (e : Error) : Confined paths (throw e : Resolving α) :=
  ⟨fun _ _ => rfl, fun _ _ => rfl, fun _ _ he => .inl he, fun _ _ he => .inl he⟩

theorem report (paths : List Path) (level : Log.Level) (note : Log.Note)
    (context : List (String × Json)) : Confined paths (report level note context) :=
  ⟨fun _ _ => rfl, fun _ _ => rfl, fun _ _ he => .inl he, fun _ _ he => .inl he⟩

theorem bind {x : Resolving α} {f : α → Resolving β} (hx : Confined paths x)
    (hf : ∀ a, Confined paths (f a)) : Confined paths (x >>= f) where
  answer_onto r classpath := by
    rw [answer_bind, answer_bind, hx.answer_onto, hx.after_onto]
    cases answer x r with
    | error e => rfl
    | ok a => exact (hf a).answer_onto _ _
  after_onto r classpath := by
    rw [after_bind, after_bind, hx.answer_onto, hx.after_onto]
    cases answer x r with
    | error e => rfl
    | ok a => exact (hf a).after_onto _ _
  opened r e he := by
    rw [after_bind] at he
    cases hanswer : answer x r with
    | error e => exact hx.opened r _ (by simpa [hanswer] using he)
    | ok a =>
      rw [hanswer] at he
      exact ((hf a).opened _ e he).elim (hx.opened r e) .inr
  named r e he := by
    rw [after_bind] at he
    cases hanswer : answer x r with
    | error e => exact hx.named r _ (by simpa [hanswer] using he)
    | ok a =>
      rw [hanswer] at he
      exact ((hf a).named _ e he).elim (hx.named r e) .inr

theorem get_bind {f : Resolver → Resolving α} (hf : ∀ r, Confined paths (f r))
    (honto : ∀ r classpath, f (r.onto classpath) = f r) :
      Confined paths (MonadState.get >>= f) where
  answer_onto r classpath := by
    rw [answer_get_bind, answer_get_bind, honto]
    exact (hf r).answer_onto r classpath
  after_onto r classpath := by
    rw [after_get_bind, after_get_bind, honto]
    exact (hf r).after_onto r classpath
  opened r := (hf r).opened r
  named r := (hf r).named r

theorem mono {x : Resolving α} (hx : Confined paths x) (hsub : paths ⊆ more) : Confined more x where
  answer_onto := hx.answer_onto
  after_onto := hx.after_onto
  opened r e he := (hx.opened r e he).imp_right fun hmem => hsub hmem
  named r e he := (hx.named r e he).imp_right fun hmem => hsub hmem

theorem keepArchive (path : Path) (archive : Archive) : Confined [path]
    (modify fun r => { r with archives := r.archives ++ [(path, archive)] } : Resolving PUnit) where
  answer_onto _ _ := rfl
  after_onto _ _ := rfl
  opened r e he := by
    rcases List.mem_append.mp he with he | he
    · exact .inl he
    · exact .inr (by simp [List.mem_singleton.mp he])
  named _ _ he := .inl he

theorem keepName (path : Path) (name : String) : Confined [path]
    (modify fun r => { r with declared := r.declared ++ [(path, name)] } : Resolving PUnit) where
  answer_onto _ _ := rfl
  after_onto _ _ := rfl
  opened _ _ he := .inl he
  named r e he := by
    rcases List.mem_append.mp he with he | he
    · exact .inl he
    · exact .inr (by simp [List.mem_singleton.mp he])

end Confined

theorem confined_openArchive (fs : FileSystem) (path : Path) :
    Confined [path] (openArchive fs path) := by
  refine .get_bind (fun r => ?_) fun r classpath => rfl
  cases r.archives.lookup path with
  | some archive => exact .pure _ _
  | none =>
    rcases fs.isFile path with e | _ | _
    · exact .throw _ _
    · exact .throw _ _
    dsimp only
    rcases fs.read path with e | bytes
    · exact .throw _ _
    dsimp only
    cases Archive.ofBytes bytes with
    | error e => exact .throw _ _
    | ok archive =>
      exact (Confined.report _ _ _ _).bind fun _ => (Confined.keepArchive path archive).bind
        fun _ => .pure _ _

theorem confined_declaredName (fs : FileSystem) (path : Path) :
    Confined [path] (declaredName fs path) := by
  refine .get_bind (fun r => ?_) fun r classpath => rfl
  cases r.declared.lookup path with
  | some name => exact .pure _ _
  | none =>
    cases fs.read path with
    | error e =>
      dsimp only
      split_ifs
      · exact .throw _ _
      · exact .throw _ _
    | ok bytes =>
      dsimp only
      cases Class.nameOfBytes bytes with
      | error e => exact .throw _ _
      | ok name => exact (Confined.keepName path name).bind fun _ => .pure _ _

theorem confined_inArchive (fs : FileSystem) (path : Path) (relative : String) :
    Confined [path] (inArchive fs path relative) := by
  refine (confined_openArchive fs path).bind fun archive => ?_
  cases archive.member? relative with
  | none => exact .pure _ _
  | some m =>
    dsimp only
    cases archive.read m with
    | error e => exact .throw _ _
    | ok bytes => exact .pure _ _

theorem confined_lookup (fs : FileSystem) (path : Path) (relative : String) :
    Confined [path] (lookup fs path relative) :=
  lookup_cases (fun _ => .throw _ _) (inFolder_cases (fun _ => .throw _ _) fun _ => .pure _ _)
    (confined_inArchive fs path relative) ((confined_declaredName fs path).bind fun _ => .pure _ _)
    (.throw _ _) ((Confined.report _ _ _ _).bind fun _ => .pure _ _)

theorem confined_firstOf (fs : FileSystem) (relative : String) (paths : List Path) :
    Confined paths (firstOf fs relative paths) := by
  induction paths with
  | nil => exact (Confined.report _ _ _ _).bind fun _ => .pure _ _
  | cons path paths ih =>
    have hfirst : Confined (path :: paths) (lookup fs path relative) :=
      (confined_lookup fs path relative).mono (by simp)
    refine hfirst.bind fun resource => ?_
    cases resource with
    | none => exact ih.mono (List.subset_cons_self path paths)
    | some resource => exact (Confined.report _ _ _ _).bind fun _ => .pure _ _

theorem answer_firstOf_append (fs : FileSystem) (relative : String) (paths more : List Path)
    (r : Resolver) : answer (firstOf fs relative (paths ++ more)) r =
      match answer (firstOf fs relative paths) r with
      | .ok none => answer (firstOf fs relative more) r
      | result => result := by
  induction paths with
  | nil => rfl
  | cons path paths ih =>
    rw [List.cons_append, answer_firstOf_cons, answer_firstOf_cons]
    rcases answer (lookup fs path relative) r with e | _ | resource
    · rfl
    · exact ih
    · rfl

/-- Where the first paths have an answer, nothing else is done for the ones behind them. -/
theorem after_firstOf_append (h : answer (firstOf fs relative paths) r ≠ .ok none)
    (more : List Path) :
    after (firstOf fs relative (paths ++ more)) r = after (firstOf fs relative paths) r := by
  induction paths generalizing r with
  | nil => exact absurd rfl h
  | cons path paths ih =>
    rw [firstOf, answer_bind] at h
    rw [List.cons_append, firstOf, firstOf, after_bind, after_bind]
    rcases hlookup : answer (lookup fs path relative) r with e | _ | resource
    · rfl
    · rw [hlookup] at h
      exact ih h
    · rfl

variable {p q : Classpath} {journal : Log.Journal}

theorem answer_get_new (fs : FileSystem) (relative : String) (p : Classpath)
    (journal : Log.Journal) : answer (get fs relative) (new p journal) =
      answer (firstOf fs (stripped relative) p.entries) (new p journal) := rfl

theorem after_get_new (fs : FileSystem) (relative : String) (p : Classpath)
    (journal : Log.Journal) : after (get fs relative) (new p journal) =
      after (firstOf fs (stripped relative) p.entries) (new p journal) := rfl

theorem answer_get_join (fs : FileSystem) (relative : String) (p q : Classpath)
    (journal : Log.Journal) : answer (get fs relative) (new (p.join q) journal) =
      match answer (get fs relative) (new p journal) with
      | .ok none => answer (get fs relative) (new q journal)
      | result => result := by
  have honto (c : Classpath) (paths : List Path) :
      answer (firstOf fs (stripped relative) paths) (new c journal) =
        answer (firstOf fs (stripped relative) paths) (new p journal) :=
    (confined_firstOf fs _ paths).answer_onto (new p journal) c
  rw [answer_get_new, answer_get_new, answer_get_new, honto (p.join q), honto q]
  exact answer_firstOf_append fs _ p.entries q.entries _

theorem after_get_join (h : answer (get fs relative) (new p journal) ≠ .ok none) (q : Classpath) :
    after (get fs relative) (new (p.join q) journal) =
      (after (get fs relative) (new p journal)).onto (p.join q) := by
  have honto : after (firstOf fs (stripped relative) (p.entries ++ q.entries))
      (new (p.join q) journal) =
        (after (firstOf fs (stripped relative) (p.entries ++ q.entries)) (new p journal)).onto
          (p.join q) :=
    (confined_firstOf fs _ _).after_onto (new p journal) (p.join q)
  rw [answer_get_new] at h
  rw [after_firstOf_append h] at honto
  exact honto

/-- Where the first classpath has an answer, it does not matter what files there are for the
second. -/
theorem get_join_congr (h : answer (get fs relative) (new p journal) ≠ .ok none)
    (hsame : ∀ path ∈ p.entries, LooksSame fs fs' (stripped relative) path) (q : Classpath) :
    answer (get fs' relative) (new (p.join q) journal) =
        answer (get fs relative) (new p journal) ∧
      after (get fs' relative) (new (p.join q) journal) =
        (after (get fs relative) (new p journal)).onto (p.join q) := by
  have hrun := firstOf_congr hsame
  have hanswer : answer (get fs' relative) (new p journal) =
      answer (get fs relative) (new p journal) := by
    rw [answer_get_new, answer_get_new, hrun]
  have hafter : after (get fs' relative) (new p journal) =
      after (get fs relative) (new p journal) := by
    rw [after_get_new, after_get_new, hrun]
  rw [← hanswer] at h
  constructor
  · rw [answer_get_join, hanswer]
    rw [hanswer] at h
    split
    · contradiction
    · rfl
  · rw [after_get_join h, hafter]

/-- What is opened and read then are entries of the first classpath. -/
theorem kept_of_get_join (h : answer (get fs relative) (new p journal) ≠ .ok none) (q : Classpath) :
    (∀ e ∈ (after (get fs relative) (new (p.join q) journal)).archives, e.1 ∈ p.entries) ∧
      ∀ e ∈ (after (get fs relative) (new (p.join q) journal)).declared, e.1 ∈ p.entries := by
  have hconfined := confined_firstOf fs (stripped relative) p.entries
  rw [after_get_join h, after_get_new]
  constructor
  · intro e he
    exact (hconfined.opened _ e he).resolve_left (by simp [new])
  · intro e he
    exact (hconfined.named _ e he).resolve_left (by simp [new])

end Resolver

namespace Finder

variable {fs : FileSystem} {key : String} {p q : Classpath} {journal : Log.Journal}

theorem fetchAnew_join (fs : FileSystem) (p q : Classpath) (journal : Log.Journal) (key : String) :
    fetchAnew fs (.new (p.join q) journal) key =
      match fetchAnew fs (.new p journal) key with
      | .error (.notFound _) => fetchAnew fs (.new q journal) key
      | result => result := by
  simp only [fetchAnew, Resolver.answer_get_join fs _ p q journal]
  rcases hget : answer (Resolver.get fs (key ++ ".class")) (.new p journal) with e | _ | resource
  · -- The resolver does not say of a name that it is not found.
    cases Resolver.ofFiles_of_get hget <;> rfl
  · rfl
  · dsimp only [bind, Except.bind]
    cases resource.read fs with
    | error e => rfl
    | ok bytes =>
      dsimp only
      cases Class.ofBytes bytes with
      | error e => rfl
      | ok c => rfl

theorem answer_find_join (fs : FileSystem) (p q : Classpath) (journal : Log.Journal)
    (name : NameLike) : answer (find fs name) (new (p.join q) journal) =
      match answer (find fs name) (new p journal) with
      | .error (.notFound _) => answer (find fs name) (new q journal)
      | result => result := by
  rw [answer_find, answer_find, answer_find]
  split_ifs
  · exact fetchAnew_join fs p q journal _
  · rfl

theorem exists_join_of_extend {config : Config} {extended : Classpath}
    (h : config.extend p = .ok extended) : ∃ q, extended = p.join q := by
  obtain ⟨texts, -, hjoin⟩ := bind_eq_ok_iff.mp h
  exact ⟨.ofTexts texts, (Except.ok.inj hjoin).symm⟩

/-- On a joined classpath the second part is asked where the first has nothing. Otherwise all that
is done is done for entries of the first part, and other files behind them change none of it. So
what the first part finds is found with the configured entries behind it as well. -/
theorem join_consults_in_order (fs : FileSystem) (p q : Classpath) (journal : Log.Journal) :
    (∀ relative, answer (Resolver.get fs relative) (.new (p.join q) journal) =
      match answer (Resolver.get fs relative) (.new p journal) with
      | .ok none => answer (Resolver.get fs relative) (.new q journal)
      | result => result) ∧
    (∀ relative, answer (Resolver.get fs relative) (.new p journal) ≠ .ok none →
      (∀ fs', (∀ path ∈ p.entries,
          Resolver.LooksSame fs fs' (Resolver.stripped relative) path) →
        answer (Resolver.get fs' relative) (.new (p.join q) journal) =
            answer (Resolver.get fs relative) (.new p journal) ∧
          after (Resolver.get fs' relative) (.new (p.join q) journal) =
            (after (Resolver.get fs relative) (.new p journal)).onto (p.join q)) ∧
      (∀ e ∈ (after (Resolver.get fs relative) (.new (p.join q) journal)).archives,
        e.1 ∈ p.entries) ∧
      ∀ e ∈ (after (Resolver.get fs relative) (.new (p.join q) journal)).declared,
        e.1 ∈ p.entries) ∧
    (∀ name, answer (find fs name) (new (p.join q) journal) =
      match answer (find fs name) (new p journal) with
      | .error (.notFound _) => answer (find fs name) (new q journal)
      | result => result) ∧
    ∀ (config : Config) (extended : Classpath), config.extend p = .ok extended →
      ∀ name c, answer (find fs name) (new p journal) = .ok c →
        answer (find fs name) (new extended journal) = .ok c := by
  refine ⟨?inOrder, ?untouched, ?found, ?configured⟩
  case inOrder => exact fun relative => Resolver.answer_get_join fs relative p q journal
  case untouched =>
    intro relative h
    refine ⟨fun fs' hsame => Resolver.get_join_congr h hsame q, ?_⟩
    exact Resolver.kept_of_get_join h q
  case found => exact answer_find_join fs p q journal
  case configured =>
    intro config extended hextend name c hfind
    obtain ⟨q', rfl⟩ := exists_join_of_extend hextend
    rw [answer_find_join, hfind]

theorem join_consults_in_order_pair :
    let p : Classpath := ⟨[⟨.single, ["A.class"]⟩]⟩
    let q : Classpath := ⟨[⟨.single, ["B.class"]⟩]⟩
    let alone : FileSystem := ⟨.folder [("A.class", .file (pairFile 0x41 0x42))], [], []⟩
    let config : Config := { Config.default with entries := .arr [.str "/B.class"] }
    let journal := Log.Journal.silent "engine"
    (answer (Resolver.get pairFiles "A.class") (.new p journal) ≠ .ok none ∧
      (∀ path ∈ p.entries,
        Resolver.LooksSame pairFiles alone (Resolver.stripped "A.class") path) ∧
      answer (Resolver.get alone "A.class") (.new (p.join q) journal) =
        answer (Resolver.get pairFiles "A.class") (.new p journal)) ∧
    config.extend p = .ok (p.join q) ∧
    ∃ c, answer (find pairFiles (.plain "A")) (new p journal) = .ok c ∧
      answer (find pairFiles (.plain "A")) (new (p.join q) journal) = .ok c := by
  intro p q alone config journal
  obtain ⟨-, huntouched, -, hconfigured⟩ := join_consults_in_order pairFiles p q journal
  have hget : answer (Resolver.get pairFiles "A.class") (.new p journal) ≠ .ok none := by
    decide +kernel
  have hsame : ∀ path ∈ p.entries,
      Resolver.LooksSame pairFiles alone (Resolver.stripped "A.class") path := by
    intro path hpath
    obtain rfl := List.mem_singleton.mp hpath
    have hentry : alone.glimpse ⟨.single, ["A.class"]⟩ =
        pairFiles.glimpse ⟨.single, ["A.class"]⟩ := by decide +kernel
    have hbelow : alone.isFile (Path.join ⟨.single, ["A.class"]⟩
        (Path.ofText (Resolver.stripped "A.class"))) = pairFiles.isFile (Path.join
          ⟨.single, ["A.class"]⟩ (Path.ofText (Resolver.stripped "A.class"))) := by decide +kernel
    exact ⟨rfl, hentry, hbelow⟩
  have hextend : config.extend p = .ok (p.join q) := by decide +kernel
  have hsome : (answer (find pairFiles (.plain "A")) (new p journal)).toOption.isSome = true := by
    decide +kernel
  obtain ⟨c, hc⟩ := Option.isSome_iff_exists.mp hsome
  have hfind : answer (find pairFiles (.plain "A")) (new p journal) = .ok c :=
    toOption_eq_some_iff.mp hc
  have halone := ((huntouched "A.class" hget).1 alone hsame).1
  exact ⟨⟨hget, hsame, halone⟩, hextend, c, hfind, hconfigured config _ hextend _ c hfind⟩

end Finder

end ClassAtlas
