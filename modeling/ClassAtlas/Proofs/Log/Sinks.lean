import ClassAtlas.Proofs.FileSystem.Appending
import ClassAtlas.Proofs.Log.Composing
import ClassAtlas.Proofs.Log.Levels

/-! Where the records of a component go in the course of time. There is a console at most and behind
it a file at most, the last one that was asked for. What is reported is added to this file and to no
other. -/

namespace ClassAtlas.Log

/-- The channels change, or a record is delivered. -/
inductive Step where
  | change (c : Change)
  | log (clock : Clock) (r : Record)

namespace Step

variable {component : String} {cs : Channels} {step : Step} {steps : List Step}

/-- A component could be set up as it was asked for. -/
def Succeeds (cs : Channels) : Step → Prop
  | change (.construct component o) => answer (Channels.configure component o) cs = .ok ()
  | change (.setAll name) => (levelOfName name).toBool = true
  | log _ _ => True

instance (cs : Channels) : DecidablePred (Succeeds cs)
  | change (.construct component o) =>
    inferInstanceAs (Decidable (answer (Channels.configure component o) cs = .ok ()))
  | change (.setAll name) => inferInstanceAs (Decidable ((levelOfName name).toBool = true))
  | log _ _ => inferInstanceAs (Decidable True)

def next (cs : Channels) : Step → Channels
  | change c => c.next cs
  | log clock r => cs.log clock r

def run (steps : List Step) (cs : Channels) : Channels :=
  steps.foldl next cs

/-- All steps succeed, each where the ones before it lead to. -/
def AllSucceed : List Step → Channels → Prop
  | [], _ => True
  | step :: steps, cs => step.Succeeds cs ∧ AllSucceed steps (step.next cs)

def decidableAllSucceed : (steps : List Step) → (cs : Channels) → Decidable (AllSucceed steps cs)
  | [], _ => .isTrue trivial
  | step :: steps, cs =>
    have := decidableAllSucceed steps (step.next cs)
    inferInstanceAs (Decidable (step.Succeeds cs ∧ AllSucceed steps (step.next cs)))

instance (steps : List Step) (cs : Channels) : Decidable (AllSucceed steps cs) :=
  decidableAllSucceed steps cs

/-- How a component is set up. -/
def options? (component : String) : Step → Option Options
  | change (.construct other o) => if other = component then some o else none
  | _ => none

/-- The file that was asked for last, with its format. -/
def lastFile (component : String) (steps : List Step) : Option Sink :=
  ((steps.filterMap (options? component)).filterMap Options.fileSink?).getLast?

end Step

namespace Channels

variable {component other : String} {cs : Channels} {o : Options} {clock : Clock} {r : Record}
  {path : Path} {format : Format} {fs fs' : FileSystem}

theorem sinksOf_log (clock : Clock) (r : Record) (cs : Channels) (component : String) :
    (cs.log clock r).sinksOf component = cs.sinksOf component := by
  rw [log]
  split_ifs <;> rfl

theorem sinksOf_construct (h : answer (configure component o) cs = .ok ()) (other : String) :
    (after (configure component o) cs).sinksOf other =
      if other = component then o.sinksOver (cs.sinksOf other) else cs.sinksOf other := by
  obtain ⟨sinks, hput, hok⟩ := puts_configure component (accepted_of_configure h) cs
  obtain ⟨hsinks, -⟩ := hok h
  split_ifs with hother
  · subst hother
    rw [sinksOf, hput.own, ← sinks_channelOf, ← hsinks]
    rfl
  · rw [sinksOf, hput.other other hother, sinksOf]

theorem sinksOf_setAll (name : String) (cs : Channels) (component : String) :
    ((Change.setAll name).next cs).sinksOf component = cs.sinksOf component := by
  rw [Change.next]
  cases hlevel : levelOfName name with
  | error e =>
    rw [setAll, hlevel]
    rfl
  | ok level =>
    rw [setAll_eq hlevel]
    show (⟨cs.list.map (setLevel level), cs.fs⟩ : Channels).sinksOf component = _
    rw [sinksOf, get?_map (setLevel level) fun _ => rfl, sinksOf]
    cases cs.get? component <;> rfl

/-- A sink takes a record: a file gets the line of it if it can be written. -/
def taken (clock : Clock) (r : Record) (fs : FileSystem) : Sink → FileSystem
  | .console => fs
  | .file path format =>
    match fs.append path (Utf8.encode (r.line clock format)) with
    | .ok fs => fs
    | .error _ => fs

theorem fs_deliver (clock : Clock) (r : Record) (cs : Channels) :
    (cs.deliver clock r).fs = (cs.sinksOf r.component).foldl (taken clock r) cs.fs := rfl

/-- Files that records go to are there. -/
structure Ready (cs : Channels) : Prop where
  root : ∃ es, cs.fs.root = .folder es
  files : ∀ component path format, Sink.file path format ∈ cs.sinksOf component → cs.fs.HasFile path

theorem keeps_taken {es : List (String × FileNode)} (hroot : fs.root = .folder es) (clock : Clock)
    (r : Record) (sink : Sink) : fs.Keeps (taken clock r fs sink) := by
  cases sink with
  | console => exact .refl fs
  | file path format =>
    rw [taken]
    cases happend : fs.append path (Utf8.encode (r.line clock format)) with
    | error e => exact .refl fs
    | ok fs' => exact FileSystem.keeps_append hroot happend

theorem keeps_foldl_taken (clock : Clock) (r : Record) (sinks : List Sink)
    {es : List (String × FileNode)} (hroot : fs.root = .folder es) :
    fs.Keeps (sinks.foldl (taken clock r) fs) := by
  induction sinks generalizing fs es with
  | nil => exact .refl fs
  | cons sink sinks ih =>
    have hkeeps := keeps_taken hroot clock r sink
    obtain ⟨es', hes'⟩ := FileSystem.exists_root hkeeps.folders hroot
    exact hkeeps.trans (ih hes')

theorem ready_log (h : cs.Ready) (clock : Clock) (r : Record) : (cs.log clock r).Ready := by
  rw [log]
  split_ifs
  · obtain ⟨es, hes⟩ := h.root
    have hkeeps := keeps_foldl_taken clock r (cs.sinksOf r.component) hes
    exact ⟨FileSystem.exists_root hkeeps.folders hes, fun component path format hmem =>
      (h.files component path format hmem).kept hkeeps⟩
  · exact h

/-- The file that is asked for is there, and so are those that were there before. -/
theorem ready_construct (h : cs.Ready) (hok : answer (configure component o) cs = .ok ()) :
    (after (configure component o) cs).Ready := by
  obtain ⟨es, hes⟩ := h.root
  obtain ⟨sinks, -, hput⟩ := puts_configure component (accepted_of_configure hok) cs
  obtain ⟨-, hplain, hprepare⟩ := hput hok
  have hkeeps : cs.fs.Keeps (after (configure component o) cs).fs := by
    cases hfile : o.file with
    | none =>
      rw [hplain hfile]
      exact .refl _
    | some path => exact FileSystem.keeps_prepare hes (hprepare path hfile)
  refine ⟨FileSystem.exists_root hkeeps.folders hes, fun other path format hmem => ?_⟩
  have hold (hmem : Sink.file path format ∈ cs.sinksOf other) :
      (after (configure component o) cs).fs.HasFile path :=
    (h.files other path format hmem).kept hkeeps
  rw [sinksOf_construct hok] at hmem
  split_ifs at hmem with hother
  · rw [Options.sinksOver] at hmem
    split_ifs at hmem
    · -- Only the file that is asked for is among the new sinks.
      have hnew : Sink.file path format ∈ o.fileSink?.toList := by
        rcases List.mem_append.mp hmem with hmem | hmem
        · rw [Options.firstSinks] at hmem
          split_ifs at hmem <;> simp at hmem
        · exact hmem
      obtain ⟨path', hfile, hsink⟩ := Option.map_eq_some_iff.mp (Option.mem_toList.mp hnew)
      obtain ⟨rfl, -⟩ := Sink.file.inj hsink
      exact FileSystem.hasFile_prepare hes (hprepare path' hfile)
    · exact hold hmem
  · exact hold hmem

theorem ready_setAll (h : cs.Ready) (name : String) : ((Change.setAll name).next cs).Ready := by
  have hfs : ((Change.setAll name).next cs).fs = cs.fs := by
    rw [Change.next]
    cases hlevel : levelOfName name <;> rw [setAll, hlevel] <;> rfl
  refine ⟨hfs ▸ h.root, fun component path format hmem => ?_⟩
  rw [sinksOf_setAll] at hmem
  rw [hfs]
  exact h.files component path format hmem

/-- Behind the console, or alone, stands the file: it gets the line of the record, once. -/
theorem appended_deliver (h : cs.Ready) {console : Bool}
    (hsinks : cs.sinksOf r.component = (if console then [.console] else []) ++ [.file path format])
    (clock : Clock) :
    FileSystem.Appended path (Utf8.encode (r.line clock format)) cs.fs (cs.deliver clock r).fs := by
  have hfile := h.files r.component path format (by rw [hsinks]; simp)
  obtain ⟨fs, happend, happended⟩ :=
    FileSystem.appended_append hfile (Utf8.encode (r.line clock format))
  have htaken : (cs.deliver clock r).fs = taken clock r cs.fs (.file path format) := by
    rw [fs_deliver, hsinks]
    cases console <;> rfl
  rw [htaken, taken, happend]
  exact happended

/-- A call that is not refused delivers its record, if it makes one. -/
theorem report_of_compose {l : Logger} {c : Call} (clock : Clock)
    (h : l.compose (cs.threshold l.component) (cs.hasConsole l.component) c = .ok (some r)) :
    cs.report clock l c.level c.text c.values c.added = .ok (cs.log clock r) := by
  obtain ⟨hon, hcomposed⟩ := Logger.composed_of_compose h
  rw [log, hcomposed.component, hcomposed.level, if_pos hon, report, h]
  rfl

end Channels

namespace Step

variable {component : String} {cs : Channels} {step : Step} {steps : List Step}

theorem ready_next (h : cs.Ready) (hok : step.Succeeds cs) : (step.next cs).Ready := by
  cases step with
  | log clock r => exact Channels.ready_log h clock r
  | change c =>
    cases c with
    | construct component o => exact Channels.ready_construct h hok
    | setAll name => exact Channels.ready_setAll h name

theorem sinksOf_next (hok : step.Succeeds cs) (component : String) :
    (step.next cs).sinksOf component = (step.options? component).elim (cs.sinksOf component)
      fun o => o.sinksOver (cs.sinksOf component) := by
  cases step with
  | log clock r => exact Channels.sinksOf_log clock r cs component
  | change c =>
    cases c with
    | setAll name => exact Channels.sinksOf_setAll name cs component
    | construct other o =>
      refine (Channels.sinksOf_construct hok component).trans ?_
      rw [options?]
      by_cases hother : other = component
      · rw [if_pos hother.symm, if_pos hother]
        rfl
      · rw [if_neg (Ne.symm hother), if_neg hother]
        rfl

theorem ready_run (h : cs.Ready) (hok : AllSucceed steps cs) : (run steps cs).Ready := by
  induction steps generalizing cs with
  | nil => exact h
  | cons step steps ih => exact ih (ready_next h hok.1) hok.2

theorem sinksOf_run (hok : AllSucceed steps cs) (component : String) :
    (run steps cs).sinksOf component = (steps.filterMap (options? component)).foldl
      (fun sinks o => o.sinksOver sinks) (cs.sinksOf component) := by
  induction steps generalizing cs with
  | nil => rfl
  | cons step steps ih =>
    refine (ih hok.2).trans ?_
    rw [sinksOf_next hok.1, List.filterMap_cons]
    cases step.options? component <;> rfl

/-- Setting a component up again and again leaves a console at most and the last file at most. -/
theorem exists_foldl_sinksOver (os : List Options) : ∃ console : Bool,
    os.foldl (fun sinks o => o.sinksOver sinks) [] =
      (if console then [.console] else []) ++
        ((os.filterMap Options.fileSink?).getLast?).toList := by
  induction os using List.reverseRecOn with
  | nil => exact ⟨false, rfl⟩
  | append_singleton os o ih =>
    obtain ⟨console, hsinks⟩ := ih
    rw [List.foldl_append, List.filterMap_append, hsinks, List.foldl_cons, List.foldl_nil,
      Options.sinksOver]
    cases hfile : o.file with
    | some path =>
      have hnew : o.fileSink? = some (.file path o.format) := by rw [Options.fileSink?, hfile]; rfl
      refine ⟨o.console, ?_⟩
      rw [List.filterMap_cons, hnew]
      simp [Options.firstSinks]
    | none =>
      have hnew : o.fileSink? = none := by rw [Options.fileSink?, hfile]; rfl
      rw [List.filterMap_cons, hnew, List.filterMap_nil, List.append_nil, Option.isSome_none,
        Bool.or_false]
      cases console with
      | true => exact ⟨true, rfl⟩
      | false =>
        cases (os.filterMap Options.fileSink?).getLast? with
        | some sink => exact ⟨false, rfl⟩
        | none => exact ⟨o.console, rfl⟩

/-- However a component is set up: it has a console at most, and behind it the file it was given
last, if it was given one. Setting it up without a file leaves sinks that are there; a file replaces
them. A record of a level that is reported is added to the file once, and to no other. -/
theorem sinks_run (fs : FileSystem) (hroot : fs.isFolder ⟨.single, []⟩ = .ok true)
    (component : String) (steps : List Step) (h : AllSucceed steps ⟨[], fs⟩) :
    let cs := run steps ⟨[], fs⟩
    (∃ console : Bool, cs.sinksOf component =
      (if console then [.console] else []) ++ (lastFile component steps).toList) ∧
    (∀ o : Options, answer (Channels.configure component o) cs = .ok () →
      (after (Channels.configure component o) cs).sinksOf component =
        if o.file = none ∧ cs.sinksOf component ≠ [] then cs.sinksOf component
        else o.firstSinks ++ o.fileSink?.toList) ∧
    (∀ (clock : Clock) (r : Record), r.component = component →
      enabled (cs.threshold component) r.level = true →
      (∀ path format, lastFile component steps = some (.file path format) →
        FileSystem.Appended path (Utf8.encode (r.line clock format)) cs.fs (cs.log clock r).fs) ∧
      (lastFile component steps = none → (cs.log clock r).fs = cs.fs)) ∧
    ∀ (clock : Clock) (l : Logger) (c : Call) (r : Record), l.component = component →
      l.compose (cs.threshold component) (cs.hasConsole component) c = .ok (some r) →
      r.component = component ∧ enabled (cs.threshold component) r.level = true ∧
        cs.report clock l c.level c.text c.values c.added = .ok (cs.log clock r) := by
  intro cs
  have hready : cs.Ready := by
    refine ready_run ⟨?_, fun component path format hmem => by cases hmem⟩ h
    obtain ⟨es, hnode⟩ := FileSystem.isFolder_eq_true_iff.mp hroot
    obtain ⟨-, way, hwalk, hfolder⟩ := FileSystem.node_eq_ok_iff.mp hnode
    obtain rfl := Except.ok.inj hwalk
    exact ⟨es, hfolder⟩
  obtain ⟨console, hfold⟩ := exists_foldl_sinksOver (steps.filterMap (options? component))
  have hsinks : cs.sinksOf component =
      (if console then [.console] else []) ++ (lastFile component steps).toList :=
    (sinksOf_run h component).trans hfold
  refine ⟨⟨console, hsinks⟩, fun o hok => ?_, fun clock r hr hon => ?_,
    fun clock l c r hl hcompose => ?_⟩
  · rw [Channels.sinksOf_construct hok, if_pos rfl, Options.sinksOver]
    cases o.file <;> simp [List.isEmpty_iff, ite_not]
  · subst hr
    rw [Channels.log, if_pos hon]
    constructor
    · intro path format hlast
      rw [hlast] at hsinks
      exact Channels.appended_deliver hready hsinks clock
    · intro hnone
      rw [Channels.fs_deliver, hsinks, hnone]
      cases console <;> rfl
  · subst hl
    obtain ⟨hon, hcomposed⟩ := Logger.composed_of_compose hcompose
    exact ⟨hcomposed.component, hcomposed.level ▸ hon, Channels.report_of_compose clock hcompose⟩

theorem sinks_run_replaced :
    let fs := FileSystem.empty ["home"]
    let steps := [change (.construct "x" ⟨none, some ⟨.relative, ["a.log"]⟩, .text, true⟩),
      change (.construct "x" ⟨some "info", some ⟨.relative, ["logs", "b.log"]⟩, .json, false⟩),
      change (.construct "x" ⟨none, none, .text, true⟩)]
    let r : Record := ⟨info, "x", .text "Opened", none, .null, .unasked⟩
    fs.isFolder ⟨.single, []⟩ = .ok true ∧ AllSucceed steps ⟨[], fs⟩ ∧
      enabled ((run steps ⟨[], fs⟩).threshold "x") info = true ∧
      ∀ clock : Clock,
        FileSystem.Appended ⟨.relative, ["logs", "b.log"]⟩ (Utf8.encode (r.line clock .json))
          (run steps ⟨[], fs⟩).fs ((run steps ⟨[], fs⟩).log clock r).fs := by
  intro fs steps r
  have hroot : fs.isFolder ⟨.single, []⟩ = .ok true := by decide +kernel
  have hsteps : AllSucceed steps ⟨[], fs⟩ := by decide +kernel
  have hon : enabled ((run steps ⟨[], fs⟩).threshold "x") info = true := by decide +kernel
  exact ⟨hroot, hsteps, hon, fun clock =>
    ((sinks_run fs hroot "x" steps hsteps).2.2.1 clock r rfl hon).1 _ _ rfl⟩

end Step

end ClassAtlas.Log
