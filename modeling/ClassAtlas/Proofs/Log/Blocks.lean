import ClassAtlas.Proofs.Finder.Reporting
import ClassAtlas.Proofs.Log.Composing

/-! Programs that report through one logger: they call it, let parsers look classes up that report
to it too, and open blocks under operations. What is reported carries the operation of the innermost
block that is open by then, however the blocks before it came to their ends. -/

namespace ClassAtlas.Log

/-- A program that uses one logger. What raises ends the blocks around it, up to where it is
handled. -/
inductive Program where
  | skip
  | fail
  | call (c : Call)
  | find (fs : FileSystem) (parser : Nat) (name : NameLike)
  | block (operation : String) (body : Program)
  | seq (first second : Program)
  | attempt (body handler : Program)

inductive Raised where
  | own
  | refused (e : ReportError)
  | lookup (e : Error)

/-- The journal of the logger, and the parsers that report to it. -/
structure World where
  journal : Journal
  parsers : Nat → Finder

abbrev Running := ExceptT Raised (StateM World)

namespace World

/-- A parser as it is now that others may have reported. -/
def parser (w : World) (i : Nat) : Finder :=
  { w.parsers i with resolver := { (w.parsers i).resolver with journal := w.journal } }

def setParser (i : Nat) (f : Finder) (w : World) : World :=
  ⟨f.journal, fun j => if j = i then f else w.parsers j⟩

def add (r : Record) (w : World) : World :=
  { w with journal := { w.journal with records := r :: w.journal.records } }

def enter (operation : String) (w : World) : World :=
  { w with journal := { w.journal with toLogger := w.journal.enter operation } }

def leave (before : Option String) (w : World) : World :=
  { w with journal := { w.journal with toLogger := w.journal.leave before } }

end World

namespace Program

def runCall (console : Bool) (c : Call) : Running Unit := do
  let w ← get
  match w.journal.compose w.journal.threshold console c with
  | .ok (some r) => modify (World.add r)
  | .ok none => return
  | .error e => throw (.refused e)

def runFind (fs : FileSystem) (i : Nat) (name : NameLike) : Running Unit :=
  ExceptT.mk fun w =>
    let (result, f) := (Finder.find fs name).run.run (w.parser i)
    ((result.map fun _ => ()).mapError .lookup, w.setParser i f)

/-- A block keeps the operation it found and restores it when it is left. -/
def runBlock (operation : String) (x : Running Unit) : Running Unit :=
  ExceptT.mk fun w =>
    let (result, w') := x.run.run (w.enter operation)
    (result, w'.leave w.journal.operation)

def run (console : Bool) : Program → Running Unit
  | skip => return
  | fail => throw .own
  | call c => runCall console c
  | find fs parser name => runFind fs parser name
  | block operation body => runBlock operation (body.run console)
  | seq first second => do
    first.run console
    second.run console
  | attempt body handler => tryCatch (body.run console) fun _ => handler.run console

end Program

/-- What happens to a logger. -/
inductive Event where
  | enter (operation : String)
  | leave
  | remark (e : Remark)

/-- What happens to the logger on a way through a program, which ends there unless it raises. A
parser that knows the class already does nothing to it; one that does not opens a block of its
own. -/
inductive Program.Trace (console : Bool) (threshold : Level) :
    Program → (ends : Bool) → List Event → Prop where
  | skip : Trace console threshold skip true []
  | fail : Trace console threshold fail false []
  | called {c : Call} {l : Logger} {r : Record} (h : l.compose threshold console c = .ok (some r)) :
    Trace console threshold (call c) true [.remark ⟨c.level, r.note, c.context⟩]
  | silent {c : Call} {l : Logger} (h : l.compose threshold console c = .ok none) :
    Trace console threshold (call c) true []
  | refused {c : Call} {l : Logger} {e : ReportError}
    (h : l.compose threshold console c = .error e) :
    Trace console threshold (call c) false []
  | known (fs : FileSystem) (parser : Nat) (name : NameLike) (ends : Bool) :
    Trace console threshold (find fs parser name) ends []
  | sought (fs : FileSystem) (parser : Nat) {name : NameLike} {span : NameSpan} {es : List Remark}
    (hname : name.toSpan = .ok span) (hes : ∀ e ∈ es, LookupRemark span.toOwned e) (ends : Bool) :
    Trace console threshold (find fs parser name) ends
      (.enter s!"find {span.toOwned.normalized}" :: (es.map .remark ++ [.leave]))
  | block (operation : String) {body : Program} {ends : Bool} {es : List Event}
    (h : Trace console threshold body ends es) :
    Trace console threshold (block operation body) ends (.enter operation :: (es ++ [.leave]))
  | cut {first second : Program} {es : List Event} (h : Trace console threshold first false es) :
    Trace console threshold (seq first second) false es
  | seq {first second : Program} {ends : Bool} {es es' : List Event}
    (h : Trace console threshold first true es) (h' : Trace console threshold second ends es') :
    Trace console threshold (seq first second) ends (es ++ es')
  | unhandled {body handler : Program} {es : List Event}
    (h : Trace console threshold body true es) :
    Trace console threshold (attempt body handler) true es
  | handled {body handler : Program} {ends : Bool} {es es' : List Event}
    (h : Trace console threshold body false es) (h' : Trace console threshold handler ends es') :
    Trace console threshold (attempt body handler) ends (es ++ es')

/-- A record but for what it tells of a failure. -/
structure Heading where
  component : String
  operation : Option String
  remark : Remark

def Record.heading (r : Record) : Heading :=
  ⟨r.component, r.operation, ⟨r.level, r.note, r.context⟩⟩

/-- The headings that events call for, where `blocks` are open, the innermost first. -/
def headings (component : String) : (blocks : List String) → List Event → List Heading
  | _, [] => []
  | blocks, .enter operation :: es => headings component (operation :: blocks) es
  | blocks, .leave :: es => headings component blocks.tail es
  | blocks, .remark e :: es => ⟨component, blocks.head?, e⟩ :: headings component blocks es

theorem headings_remarks (component : String) (blocks : List String) (es : List Remark)
    (behind : List Event) : headings component blocks (es.map .remark ++ behind) =
      es.map (fun e => ⟨component, blocks.head?, e⟩) ++ headings component blocks behind := by
  induction es with
  | nil => rfl
  | cons e es ih => exact congrArg (List.cons _) ih

/-- A journal gets the records that events call for, and nothing else about it changes. -/
def Journal.Reports (events : List Event) (j j' : Journal) : Prop :=
  ∃ made, j' = { j with records := made ++ j.records } ∧
    ∀ blocks : List String, blocks.head? = j.operation →
      made.reverse.map Record.heading = headings j.component blocks events

theorem Journal.reports_nil (j : Journal) : j.Reports [] j :=
  ⟨[], rfl, fun _ _ => rfl⟩

namespace Program

variable {console ends : Bool} {threshold : Level} {p first second body handler : Program}
  {es es' : List Event} {w w' : World} {j j' j'' : Journal}

/-- A program leaves every block that it enters. -/
theorem Trace.headings_append (h : Trace console threshold p ends es) (component : String)
    (blocks : List String) (behind : List Event) : headings component blocks (es ++ behind) =
      headings component blocks es ++ headings component blocks behind := by
  induction h generalizing blocks behind with
  | skip | fail | silent | refused | known | called => rfl
  | sought fs parser hname hes ends =>
    simp only [List.cons_append, List.append_assoc, List.nil_append, headings, headings_remarks]
    simp
  | block operation h ih =>
    simp only [List.cons_append, List.append_assoc, List.nil_append, headings, ih, List.tail_cons,
      List.append_nil]
  | cut h ih | unhandled h ih => exact ih blocks behind
  | seq h h' ih ih' | handled h h' ih ih' =>
    rw [List.append_assoc, ih, ih, ih', List.append_assoc]

theorem Trace.reports_append (htrace : Trace console threshold p ends es) (h : j.Reports es j')
    (h' : j'.Reports es' j'') : j.Reports (es ++ es') j'' := by
  obtain ⟨made, rfl, hmade⟩ := h
  obtain ⟨made', rfl, hmade'⟩ := h'
  refine ⟨made' ++ made, by rw [List.append_assoc], fun blocks hblocks => ?_⟩
  rw [List.reverse_append, List.map_append, hmade blocks hblocks, hmade' blocks hblocks,
    htrace.headings_append]

/-- A run does to the logger what the program says, and reports it. -/
def Follows (console : Bool) (p : Program) (w : World) : Prop :=
  ∃ es, p.Trace console w.journal.threshold (answer (p.run console) w).toBool es ∧
    w.journal.Reports es (after (p.run console) w).journal

theorem run_call_eq (console : Bool) (c : Call) (w : World) : (run console (call c)).run.run w =
    match w.journal.compose w.journal.threshold console c with
    | .ok (some r) => (.ok (), w.add r)
    | .ok none => (.ok (), w)
    | .error e => (.error (.refused e), w) := by
  show (match w.journal.compose w.journal.threshold console c with
    | .ok (some r) => modify (World.add r)
    | .ok none => return
    | .error e => throw (.refused e) : Running Unit).run.run w = _
  rcases w.journal.compose w.journal.threshold console c with _ | _ | _ <;> rfl

theorem follows_call (console : Bool) (c : Call) (w : World) : Follows console (call c) w := by
  rw [Follows, answer, after, run_call_eq]
  cases hcompose : w.journal.compose w.journal.threshold console c with
  | error e => exact ⟨[], .refused hcompose, w.journal.reports_nil⟩
  | ok made =>
    cases made with
    | none => exact ⟨[], .silent hcompose, w.journal.reports_nil⟩
    | some r =>
      obtain ⟨-, hcomposed⟩ := Logger.composed_of_compose hcompose
      refine ⟨_, .called hcompose, [r], rfl, fun blocks hblocks => ?_⟩
      simp [headings, Record.heading, hblocks, hcomposed.component, hcomposed.operation,
        hcomposed.level, hcomposed.context]

theorem follows_find (console : Bool) (fs : FileSystem) (parser : Nat) (name : NameLike)
    (w : World) :
    Follows console (find fs parser name) w := by
  have hafter : (after (run console (find fs parser name)) w).journal =
      (after (Finder.find fs name) (w.parser parser)).journal := rfl
  rw [Follows, hafter]
  rcases Finder.journal_find fs name (w.parser parser) with hsame | ⟨span, es, hspan, hes, hfind⟩
  · rw [hsame]
    exact ⟨[], .known fs parser name _, w.journal.reports_nil⟩
  · refine ⟨_, .sought fs parser hspan hes _, _, hfind, fun blocks _ => ?_⟩
    rw [headings, headings_remarks, List.reverse_reverse, List.map_map]
    simp only [headings, List.append_nil]
    rfl

theorem follows_block (operation : String) (h : Follows console body (w.enter operation)) :
    Follows console (block operation body) w := by
  obtain ⟨es, htrace, made, hjournal, hmade⟩ := h
  have hafter : after (run console (block operation body)) w =
      (after (body.run console) (w.enter operation)).leave w.journal.operation := rfl
  refine ⟨_, .block operation htrace, made, ?_, fun blocks _ => ?_⟩
  · rw [hafter, World.leave, hjournal]
    rfl
  · rw [hmade (operation :: blocks) rfl, headings, htrace.headings_append, headings, headings,
      List.append_nil]
    rfl

/-- The threshold stays, so what comes next follows under the same one. -/
theorem Follows.then (htrace : Trace console w.journal.threshold p ends es)
    (h : w.journal.Reports es w'.journal) (h' : Follows console second w') :
    ∃ es', Trace console w.journal.threshold second (answer (second.run console) w').toBool es' ∧
      w.journal.Reports (es ++ es') (after (second.run console) w').journal := by
  obtain ⟨es', htrace', hreports'⟩ := h'
  have hthreshold : w'.journal.threshold = w.journal.threshold := by
    obtain ⟨made, hjournal, -⟩ := h
    rw [hjournal]
  exact ⟨es', hthreshold ▸ htrace', htrace.reports_append h hreports'⟩

theorem follows_seq (h : Follows console first w) (h' : ∀ w, Follows console second w) :
    Follows console (seq first second) w := by
  obtain ⟨es, htrace, hreports⟩ := h
  have hrun :
      run console (seq first second) = (first.run console >>= fun _ => second.run console) := rfl
  rw [Follows, hrun, answer_bind, after_bind]
  cases hanswer : answer (first.run console) w with
  | error e =>
    rw [hanswer] at htrace
    exact ⟨es, .cut htrace, hreports⟩
  | ok _ =>
    rw [hanswer] at htrace
    obtain ⟨es', htrace', hreports'⟩ := Follows.then htrace hreports (h' _)
    exact ⟨es ++ es', .seq htrace htrace', hreports'⟩

theorem follows_attempt (h : Follows console body w) (h' : ∀ w, Follows console handler w) :
    Follows console (attempt body handler) w := by
  obtain ⟨es, htrace, hreports⟩ := h
  have hrun : run console (attempt body handler) =
      tryCatch (body.run console) fun _ => handler.run console := rfl
  rw [Follows, hrun, answer_tryCatch, after_tryCatch]
  cases hanswer : answer (body.run console) w with
  | ok _ =>
    rw [hanswer] at htrace
    exact ⟨es, .unhandled htrace, hreports⟩
  | error e =>
    rw [hanswer] at htrace
    obtain ⟨es', htrace', hreports'⟩ := Follows.then htrace hreports (h' _)
    exact ⟨es ++ es', .handled htrace htrace', hreports'⟩

theorem follows (console : Bool) (p : Program) (w : World) : Follows console p w := by
  induction p generalizing w with
  | skip => exact ⟨[], .skip, w.journal.reports_nil⟩
  | fail => exact ⟨[], .fail, w.journal.reports_nil⟩
  | call c => exact follows_call console c w
  | find fs parser name => exact follows_find console fs parser name w
  | block operation body ih => exact follows_block operation (ih _)
  | seq first second ih ih' => exact follows_seq (ih w) ih'
  | attempt body handler ih ih' => exact follows_attempt (ih w) ih'

/-- Each record that a program makes tells the component of the logger, the innermost block that is
open, if any is, and the context of the call that makes it. When the program has come to its end, by
itself or not, the same operation is under way as before. -/
theorem records_run (console : Bool) (p : Program) (w : World) :
    ∃ events made, p.Trace console w.journal.threshold (answer (p.run console) w).toBool events ∧
      (after (p.run console) w).journal = { w.journal with records := made ++ w.journal.records } ∧
      made.reverse.map Record.heading =
        headings w.journal.component w.journal.operation.toList events := by
  obtain ⟨events, htrace, made, hjournal, hmade⟩ := follows console p w
  refine ⟨events, made, htrace, hjournal, hmade _ ?_⟩
  cases w.journal.operation <;> rfl

/-- An inner block that raises gives way to the outer one. -/
example :
    let w : World := ⟨.new "engine" debug, fun _ => .new ⟨[]⟩ (.new "engine" debug)⟩
    let c := call ⟨info, "m", [], []⟩
    let p := seq (block "outer" (seq (attempt (block "inner" (seq c fail)) c) c)) c
    (after (p.run false) w).journal.records.reverse.map Record.operation =
      [some "inner", some "outer", some "outer", none] := by
  decide +kernel

/-- Not all that is added to a call is part of its context. -/
theorem not_all_added : ¬ ∀ (console : Bool) (w : World) (c : Call) (r : Record),
    (after (run console (call c)) w).journal.records = r :: w.journal.records →
      r.context = Record.contextOf c.added := by
  intro h
  have hcontext := h false ⟨.new "a" debug, fun _ => .new ⟨[]⟩ (.new "a" debug)⟩
    ⟨error, "m", [], [("exc_info", .bool true), ("size", .int 3)]⟩ _ rfl
  have hlength : (1 : Nat) = 2 := by
    injection hcontext with hfields
    exact congrArg List.length hfields
  cases hlength

end Program

end ClassAtlas.Log
