import ClassAtlas.Log.Channels
import ClassAtlas.Proofs.FileSystem.Folders

/-! What setting a component up does to its channel: to the level, to the sinks and to the files.
The channels of other components stay as they are. -/

namespace ClassAtlas.Log

/-- The level a channel has after it was set up, if it had another one before. -/
def Options.levelOver (o : Options) (before : Level) : Level :=
  match o.level.map levelOfName with
  | some (.ok level) => level
  | some (.error _) => before
  | none => if before = 0 then warning else before

def Options.firstSinks (o : Options) : List Sink :=
  if o.console then [.console] else []

def Options.fileSink? (o : Options) : Option Sink :=
  o.file.map fun path => .file path o.format

/-- The sinks a channel has after it was set up. -/
def Options.sinksOver (o : Options) (before : List Sink) : List Sink :=
  if before.isEmpty || o.file.isSome then o.firstSinks ++ o.fileSink?.toList else before

/-- Whether the level that is asked for can be had. -/
def Options.Accepted (o : Options) : Prop :=
  ∀ name ∈ o.level, ∃ level, levelOfName name = .ok level

theorem Options.accepted_of_none {o : Options} (h : o.level = none) : o.Accepted := by
  intro name hname
  simp [h] at hname

theorem Options.accepted_of_some {o : Options} {name : String} {level : Level}
    (h : o.level = some name) (hlevel : levelOfName name = .ok level) : o.Accepted := by
  intro other hother
  obtain rfl := Option.some.inj (h.symm.trans hother)
  exact ⟨level, hlevel⟩

namespace Channels

variable {cs : Channels} {c : Channel} {component other : String} {o : Options} {fs : FileSystem}

/-- The channel of a component; a new one has neither a level nor sinks. -/
def channelOf (cs : Channels) (component : String) : Channel :=
  (cs.get? component).getD ⟨component, 0, []⟩

def sinksOf (cs : Channels) (component : String) : List Sink :=
  (cs.get? component).elim [] Channel.sinks

theorem sinks_channelOf (cs : Channels) (component : String) :
    (cs.channelOf component).sinks = cs.sinksOf component := by
  rw [channelOf, sinksOf]
  cases cs.get? component <;> rfl

theorem component_of_get? (h : cs.get? component = some c) : c.component = component := by
  simpa using List.find?_some h

theorem get?_map (f : Channel → Channel) (hf : ∀ c, (f c).component = c.component) (fs : FileSystem)
    (component : String) :
    (⟨cs.list.map f, fs⟩ : Channels).get? component = (cs.get? component).map f := by
  have hsame : (fun c : Channel => decide (c.component = component)) ∘ f =
      fun c : Channel => decide (c.component = component) := by
    funext c
    rw [Function.comp_apply, hf]
  rw [get?, List.find?_map, hsame]
  rfl

theorem get?_update (f : Channel → Channel) (hf : ∀ c, (f c).component = c.component) :
    (cs.update component f).get? other =
      if other = component then (cs.get? other).map f else cs.get? other := by
  have hkeep : ∀ c :
      Channel, (if c.component = component then f c else c).component = c.component := by
    intro c
    split_ifs
    · exact hf c
    · rfl
  rw [update, get?_map _ hkeep]
  cases hget : cs.get? other with
  | none => simp
  | some c =>
    rw [Option.map_some, component_of_get? hget]
    split_ifs
    · rfl
    · rfl

theorem get?_create (component other : String) (cs : Channels) : (cs.create component).get? other =
    if other = component then some (cs.channelOf component) else cs.get? other := by
  rw [create, channelOf]
  cases hchannel : cs.get? component with
  | some c =>
    rw [Option.isSome_some, if_pos rfl]
    split_ifs with hother
    · rw [hother, hchannel]
      rfl
    · rfl
  | none =>
    have hlist : (⟨cs.list ++ [⟨component, 0, []⟩], cs.fs⟩ : Channels).get? other =
        (cs.get? other).or (if component = other then some ⟨component, 0, []⟩ else none) := by
      rw [get?, List.find?_append, List.find?_singleton]
      simp only [decide_eq_true_eq]
      rfl
    rw [Option.isSome_none, if_neg Bool.false_ne_true, hlist]
    split_ifs with hsame hother hother
    · rw [← hsame, hchannel]
      rfl
    · exact absurd hsame.symm hother
    · exact absurd hother.symm hsame
    · simp

theorem openFile_eq (path : Path) (cs : Channels) : (openFile path).run.run cs =
    match cs.fs.prepare path with
    | .ok fs => (.ok ⟨⟩, { cs with fs })
    | .error e => (.error (.file e), cs) := by
  show (match cs.fs.prepare path with
    | .ok fs => set { cs with fs }
    | .error e => throw (.file e) : Setup PUnit).run.run cs = _
  cases cs.fs.prepare path <;> rfl

theorem configureLevel_of_accepted (component : String) (h : o.Accepted) :
    configureLevel component o.level =
      modify (update component fun c => setLevel (o.levelOver c.level) c) := by
  rw [configureLevel]
  cases hname : o.level with
  | none =>
    have hlevel : (fun c : Channel => if c.level = 0 then setLevel warning c else c) =
        fun c => setLevel (o.levelOver c.level) c := by
      funext c
      rw [Options.levelOver, hname]
      dsimp only [Option.map_none]
      split_ifs <;> rfl
    rw [← hlevel]
    rfl
  | some name =>
    obtain ⟨level, hlevel⟩ := h name hname
    have hover : o.levelOver = fun _ => level := by
      funext before
      simp [Options.levelOver, hname, hlevel]
    rw [Option.map_some, hlevel, hover]

/-- The channels once the level is set and before the sinks are looked at. -/
def leveled (component : String) (o : Options) (cs : Channels) : Channels :=
  (cs.create component).update component fun c => setLevel (o.levelOver c.level) c

/-- One channel is put in the place of the one of its component, or added; the others stay. -/
structure Puts (c : Channel) (before after : Channels) : Prop where
  own : after.get? c.component = some c
  other : ∀ other, other ≠ c.component → after.get? other = before.get? other

theorem Puts.channelOf {after : Channels} (h : Puts c cs after) :
    after.channelOf c.component = c := by
  rw [Channels.channelOf, h.own]
  rfl

theorem component_channelOf (cs : Channels) (component : String) :
    (cs.channelOf component).component = component := by
  rw [channelOf]
  cases hget : cs.get? component with
  | none => rfl
  | some c => exact component_of_get? hget

theorem Puts.update {after : Channels} (h : Puts c cs after) {f : Channel → Channel}
    (hf : ∀ c, (f c).component = c.component) (fs : FileSystem) :
    Puts (f c) cs ({ after with fs }.update c.component f) where
  own := by
    have hown : ({ after with fs } : Channels).get? c.component = some c := h.own
    rw [hf, get?_update f hf, if_pos rfl, hown]
    rfl
  other other hother := by
    rw [hf] at hother
    rw [get?_update f hf, if_neg hother]
    exact h.other other hother

theorem puts_create (component : String) (cs : Channels) :
    Puts (cs.channelOf component) cs (cs.create component) where
  own := by rw [get?_create, component_channelOf, if_pos rfl]
  other other hother := by
    rw [component_channelOf] at hother
    rw [get?_create, if_neg hother]

theorem puts_leveled (component : String) (o : Options) (cs : Channels) :
    Puts (setLevel (o.levelOver (cs.channelOf component).level) (cs.channelOf component)) cs
      (leveled component o cs) := by
  have h := (puts_create component cs).update (f := fun c => setLevel (o.levelOver c.level) c)
    (fun _ => rfl) (cs.create component).fs
  rwa [component_channelOf] at h

def setSinks (sinks : List Sink) (c : Channel) : Channel :=
  { c with sinks }

/-- What takes the place of the sinks that were there, and what becomes of the file that is asked
for. -/
def replaceSinks (component : String) (o : Options) : Setup Unit := do
  modify (update component (setSinks o.firstSinks))
  if let some path := o.file then
    openFile path
    modify (update component (setSinks (o.firstSinks ++ [.file path o.format])))

theorem configureSinks_eq (component : String) (o : Options) (cs : Channels) :
    (configureSinks component o).run.run cs =
      if (cs.channelOf component).sinks.isEmpty || o.file.isSome then
        (replaceSinks component o).run.run cs
      else (.ok (), cs) := by
  rw [sinks_channelOf]
  show ExceptT.run (if (cs.sinksOf component).isEmpty || o.file.isSome then
    replaceSinks component o else pure ()) cs = _
  split_ifs <;> rfl

theorem replaceSinks_eq (component : String) (o : Options) (cs : Channels) :
    (replaceSinks component o).run.run cs =
      match o.file with
      | none => (.ok (), cs.update component (setSinks o.firstSinks))
      | some path =>
        match cs.fs.prepare path with
        | .ok fs =>
          (.ok (), ({ cs.update component (setSinks o.firstSinks) with fs } : Channels).update
            component (setSinks (o.firstSinks ++ [Sink.file path o.format])))
        | .error e =>
          (.error (SetupError.file e), cs.update component (setSinks o.firstSinks)) := by
  rw [replaceSinks]
  cases hfile : o.file with
  | none => rfl
  | some path =>
    have hfs : (cs.update component (setSinks o.firstSinks)).fs = cs.fs := rfl
    show (openFile path >>= fun _ => modify (update component
      (setSinks (o.firstSinks ++ [.file path o.format]))) : Setup PUnit).run.run
        (cs.update component (setSinks o.firstSinks)) = _
    rw [ExceptT.run_bind, StateT.run_bind, openFile_eq, hfs]
    dsimp only
    cases cs.fs.prepare path <;> rfl

theorem configure_of_accepted (component : String) (h : o.Accepted) (cs : Channels) :
    (configure component o).run.run cs =
      (configureSinks component o).run.run (leveled component o cs) := by
  rw [configure, configureLevel_of_accepted component h]
  rfl

theorem accepted_of_configure (h : answer (configure component o) cs = .ok ()) : o.Accepted := by
  intro name hname
  cases hlevel : levelOfName name with
  | ok level => exact ⟨level, rfl⟩
  | error e =>
    have hrefused : configureLevel component o.level = throw (SetupError.level e) := by
      have hasked : o.level.map levelOfName = some (.error e) := by
        rw [Option.mem_def.mp hname, Option.map_some, hlevel]
      rw [configureLevel, hasked]
    rw [configure, hrefused] at h
    cases h

theorem puts_replaceSinks {level : Level} {old : List Sink} {set : Channels}
    (h : Puts ⟨component, level, old⟩ cs set) (o : Options) :
    ∃ sinks, Puts ⟨component, level, sinks⟩ cs (after (replaceSinks component o) set) ∧
      (answer (replaceSinks component o) set = .ok () → sinks = o.firstSinks ++ o.fileSink?.toList ∧
        (o.file = none → (after (replaceSinks component o) set).fs = set.fs) ∧
        ∀ path, o.file = some path →
          set.fs.prepare path = .ok (after (replaceSinks component o) set).fs) := by
  have hsinks (sinks : List Sink) (fs : FileSystem) : Puts ⟨component, level, sinks⟩ cs
      ({ set with fs }.update component (setSinks sinks)) :=
    h.update (f := setSinks sinks) (fun _ => rfl) fs
  rw [answer, after, replaceSinks_eq, Options.fileSink?]
  cases hfile : o.file with
  | none =>
    refine ⟨o.firstSinks, hsinks _ _, fun _ => ⟨?_, fun _ => rfl, by simp⟩⟩
    simp
  | some path =>
    dsimp only
    cases hprepare : set.fs.prepare path with
    | error e => exact ⟨o.firstSinks, hsinks _ _, fun hok => by cases hok⟩
    | ok fs =>
      have htwice : Puts ⟨component, level, o.firstSinks ++ [Sink.file path o.format]⟩ cs _ :=
        (hsinks o.firstSinks fs).update (f := setSinks _) (fun _ => rfl) fs
      refine ⟨_, htwice, fun _ => ⟨rfl, by simp, fun path' hpath => ?_⟩⟩
      obtain rfl := Option.some.inj hpath
      exact hprepare

/-- What setting a component up leads to. If the file that is asked for cannot be had, the level is
set nevertheless. -/
theorem puts_configure (component : String) (h : o.Accepted) (cs : Channels) :
    ∃ sinks, Puts ⟨component, o.levelOver (cs.channelOf component).level, sinks⟩ cs
        (after (configure component o) cs) ∧
      (answer (configure component o) cs = .ok () →
        sinks = o.sinksOver (cs.channelOf component).sinks ∧
        (o.file = none → (after (configure component o) cs).fs = cs.fs) ∧
        ∀ path, o.file = some path →
          cs.fs.prepare path = .ok (after (configure component o) cs).fs) := by
  have hput :
      Puts ⟨component, o.levelOver (cs.channelOf component).level, (cs.channelOf component).sinks⟩
        cs (leveled component o cs) := by
    have hleveled := puts_leveled component o cs
    rwa [setLevel, component_channelOf] at hleveled
  have hfs : (leveled component o cs).fs = cs.fs := by
    rw [leveled, create]
    split_ifs <;> rfl
  rw [answer, after, configure_of_accepted component h, configureSinks_eq, hput.channelOf,
    Options.sinksOver]
  split_ifs with hreplaced
  · rw [← hfs]
    exact puts_replaceSinks hput o
  · refine ⟨_, hput, fun _ => ⟨rfl, fun _ => hfs, fun path hpath => ?_⟩⟩
    simp [hpath] at hreplaced

theorem setAll_eq {name : String} {level : Level} (h : levelOfName name = .ok level)
    (cs : Channels) :
    cs.setAll name = .ok ⟨cs.list.map (setLevel level), cs.fs⟩ := by
  rw [setAll, h]
  rfl

end Channels

end ClassAtlas.Log
