import ClassAtlas.Proofs.Finder.Steady

/-! What a lookup reports. All of it goes to the journal under the operation that is named after the
class, and afterwards the operation before it is under way again, whether the class was found or
not. -/

namespace ClassAtlas

namespace Log

/-- What is reported, whoever reports it. -/
structure Remark where
  level : Level
  note : Note
  context : Json

def Remark.record (l : Logger) (e : Remark) : Record :=
  ⟨e.level, l.component, e.note, l.operation, e.context, .unasked⟩

/-- The journal with another operation under way. -/
def Journal.under (operation : Option String) (j : Journal) : Journal :=
  { j with operation }

/-- The journal with more remarks, the first one first, all by its own logger. -/
def Journal.extend (j : Journal) (es : List Remark) : Journal :=
  { j with records := (es.map (Remark.record j.toLogger)).reverse ++ j.records }

namespace Journal

variable {j : Journal} {es es' : List Remark}

theorem extend_extend (j : Journal) (es es' : List Remark) :
    (j.extend es).extend es' = j.extend (es ++ es') := by
  simp [extend]

theorem add_eq (level : Level) (note : Note) (context : List (String × Json)) (j : Journal) :
    j.add level note context =
      j.extend (if enabled j.threshold level then [⟨level, note, Record.contextOf context⟩]
        else []) := by
  rw [add]
  split_ifs <;> rfl

end Journal

end Log

open Log

/-- A step adds remarks of one kind to the journal, and changes nothing else about it. -/
def Tells {σ ε α : Type} (journal : σ → Journal) (kind : Remark → Prop)
    (x : ExceptT ε (StateM σ) α) : Prop :=
  ∀ s, ∃ es, (∀ e ∈ es, kind e) ∧ journal (after x s) = (journal s).extend es

namespace Tells

variable {σ ε α β : Type} {journal : σ → Journal} {kind : Remark → Prop}
  {x : ExceptT ε (StateM σ) α}

theorem of_journal_eq (h : ∀ s, journal (after x s) = journal s) : Tells journal kind x :=
  fun s => ⟨[], by simp, h s⟩

theorem pure (a : α) : Tells journal kind (pure a : ExceptT ε (StateM σ) α) :=
  of_journal_eq fun _ => rfl

theorem throw (e : ε) : Tells journal kind (throw e : ExceptT ε (StateM σ) α) :=
  of_journal_eq fun _ => rfl

theorem bind {f : α → ExceptT ε (StateM σ) β} (hx : Tells journal kind x)
    (hf : ∀ a, Tells journal kind (f a)) : Tells journal kind (x >>= f) := by
  intro s
  obtain ⟨es, hkind, hes⟩ := hx s
  rw [after_bind]
  cases answer x s with
  | error e => exact ⟨es, hkind, hes⟩
  | ok a =>
    obtain ⟨es', hkind', hes'⟩ := hf a (after x s)
    refine ⟨es ++ es', List.forall_mem_append.mpr ⟨hkind, hkind'⟩, ?_⟩
    rw [← Journal.extend_extend, ← hes]
    exact hes'

theorem get_bind {f : σ → ExceptT ε (StateM σ) α} (hf : ∀ s, Tells journal kind (f s)) :
    Tells journal kind (get >>= f) :=
  fun s => hf s s

end Tells

/-- What is reported in the course of a lookup, with what is added to it: how many members an
archive has, and where a class was found. -/
inductive LookupRemark (name : QualifiedName) : Remark → Prop where
  | missed : LookupRemark name ⟨debug, .text s!"Cache miss for {name.normalized}", .null⟩
  | opened (path : Path) (members : Nat) : LookupRemark name
      ⟨debug, .text s!"Opened archive {path.toText}", .obj [("members", .int members)]⟩
  | skipped (path : Path) : LookupRemark name
      ⟨debug, .text s!"Skipping missing classpath directory {path.toText}", .null⟩
  | unresolved (relative : String) : LookupRemark name
      ⟨debug, .text s!"{relative} not found on classpath", .null⟩
  | resolved (relative url : String) : LookupRemark name
      ⟨debug, .text s!"Resolved {relative} to {url}", .null⟩
  | declares (url declared : String) : LookupRemark name
      ⟨warning, .text s!"{url} declares {declared}, expected {name.normalized}", .null⟩
  | cached (url : String) : LookupRemark name
      ⟨debug, .text s!"Cached {name.normalized}", .obj [("source", .str url)]⟩

namespace Resolver

variable {fs : FileSystem} {name : QualifiedName}

theorem tells_report {kind : Remark → Prop} {level : Level} {note : Note}
    {context : List (String × Json)} (h : kind ⟨level, note, Record.contextOf context⟩) :
    Tells Resolver.journal kind (report level note context) := by
  intro r
  refine ⟨if enabled r.journal.threshold level
    then [⟨level, note, Record.contextOf context⟩] else [], ?_,
    Journal.add_eq level note context r.journal⟩
  split_ifs
  · simpa using h
  · simp

theorem tells_openArchive (path : Path) :
    Tells Resolver.journal (LookupRemark name) (openArchive fs path) := by
  refine .get_bind fun r => ?_
  cases r.archives.lookup path with
  | some archive => exact .pure archive
  | none =>
    rcases fs.isFile path with e | _ | _
    · exact .throw _
    · exact .throw _
    dsimp only
    rcases fs.read path with e | bytes
    · exact .throw _
    dsimp only
    cases Archive.ofBytes bytes with
    | error e => exact .throw _
    | ok archive =>
      refine (tells_report (.opened path archive.members.length)).bind fun _ => ?_
      have hkeep : Tells Resolver.journal (LookupRemark name) (modify fun r : Resolver =>
          { r with archives := r.archives ++ [(path, archive)] } : Resolving PUnit) :=
        .of_journal_eq fun _ => rfl
      exact hkeep.bind fun _ => .pure archive

theorem tells_declaredName (path : Path) :
    Tells Resolver.journal (LookupRemark name) (declaredName fs path) := by
  refine .of_journal_eq fun r => ?_
  rw [declaredName, after_get_bind]
  cases r.declared.lookup path with
  | some name => rfl
  | none =>
    cases fs.read path with
    | error e =>
      dsimp only
      split_ifs <;> rfl
    | ok bytes =>
      dsimp only
      cases Class.nameOfBytes bytes <;> rfl

theorem tells_inArchive (path : Path) (relative : String) :
    Tells Resolver.journal (LookupRemark name) (inArchive fs path relative) := by
  refine (tells_openArchive path).bind fun archive => ?_
  cases archive.member? relative with
  | none => exact .pure none
  | some m =>
    dsimp only
    cases archive.read m with
    | error e => exact .throw _
    | ok bytes => exact .pure _

theorem tells_lookup (path : Path) (relative : String) :
    Tells Resolver.journal (LookupRemark name) (lookup fs path relative) :=
  lookup_cases (fun _ => .throw _) (inFolder_cases (fun _ => .throw _) fun _ => .pure _)
    (tells_inArchive path relative) ((tells_declaredName path).bind fun _ => .pure _) (.throw _)
    ((tells_report (.skipped path)).bind fun _ => .pure none)

theorem tells_firstOf (relative : String) (paths : List Path) :
    Tells Resolver.journal (LookupRemark name) (firstOf fs relative paths) := by
  induction paths with
  | nil => exact (tells_report (.unresolved relative)).bind fun _ => .pure none
  | cons path paths ih =>
    refine (tells_lookup path relative).bind fun resource => ?_
    cases resource with
    | none => exact ih
    | some resource => exact (tells_report (.resolved relative resource.url)).bind fun _ => .pure _

theorem tells_get (relative : String) :
    Tells Resolver.journal (LookupRemark name) (get fs relative) :=
  .get_bind fun _ => tells_firstOf _ _

end Resolver

namespace Finder

variable {fs : FileSystem} {name : QualifiedName} {α : Type} {kind : Remark → Prop}

theorem tells_resolving {x : Resolving α} (h : Tells Resolver.journal kind x) :
    Tells Finder.journal kind (resolving x) :=
  fun f => h f.resolver

theorem tells_report {level : Level} {note : Note} {context : List (String × Json)}
    (h : kind ⟨level, note, Record.contextOf context⟩) :
    Tells Finder.journal kind (report level note context) :=
  tells_resolving (Resolver.tells_report h)

theorem tells_read (resource : Resource) : Tells Finder.journal kind (read fs resource) := by
  rw [read]
  cases resource.read fs with
  | error e => exact .throw _
  | ok bytes => exact .pure bytes

theorem tells_fetch (name : QualifiedName) :
    Tells Finder.journal (LookupRemark name) (fetch fs name) := by
  refine (tells_report .missed).bind fun _ =>
    (tells_resolving (Resolver.tells_get _)).bind fun resource => ?_
  cases resource with
  | none => exact .throw _
  | some resource =>
    refine (tells_read resource).bind fun bytes => ?_
    cases Class.ofBytes bytes with
    | error e => exact .throw _
    | ok c =>
      have hend : Tells Finder.journal (LookupRemark name) (do
          modify fun f :
            Finder => { f with cache := f.cache.put (.owned name) ⟨c, some name.normalized⟩ }
          report Log.debug (.text s!"Cached {name.normalized}") [("source", .str resource.url)]
          return (⟨c, some name.normalized⟩ : FoundClass) : Finding FoundClass) := by
        have hkept : Tells Finder.journal (LookupRemark name) (modify fun f : Finder =>
            { f with cache := f.cache.put (.owned name) ⟨c, some name.normalized⟩ } :
              Finding PUnit) :=
          .of_journal_eq fun _ => rfl
        exact hkept.bind fun _ => (tells_report (.cached resource.url)).bind fun _ => .pure _
      dsimp only
      split_ifs
      · exact (tells_report (.declares resource.url c.thisName)).bind fun _ => hend
      · exact hend

/-- A lookup that is not answered by what was found before reports under its own operation only. -/
theorem journal_find (fs : FileSystem) (name : NameLike) (f : Finder) :
    (after (find fs name) f).journal = f.journal ∨
    ∃ span es, name.toSpan = .ok span ∧ (∀ e ∈ es, LookupRemark span.toOwned e) ∧
      (after (find fs name) f).journal =
        ((f.journal.under (some s!"find {span.toOwned.normalized}")).extend es).under
          f.journal.operation := by
  rw [find]
  cases hspan : name.toSpan with
  | error e => exact .inl rfl
  | ok span =>
    show (after (get >>= _) f).journal = _ ∨ _
    dsimp only
    rw [after_get_bind]
    cases f.cache.get? (.owned span.toOwned) with
    | some found => exact .inl rfl
    | none =>
      have hfetch : Tells Finder.journal (LookupRemark span.toOwned) (fetch fs span.toOwned) :=
        tells_fetch span.toOwned
      obtain ⟨es, hkind, hes⟩ := hfetch (f.setOperation (some s!"find {span.toOwned.normalized}"))
      refine .inr ⟨span, es, rfl, hkind, ?_⟩
      exact congrArg (Journal.under f.journal.operation) hes

end Finder

end ClassAtlas
