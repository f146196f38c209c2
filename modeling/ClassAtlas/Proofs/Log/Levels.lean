import ClassAtlas.Proofs.Log.Channels

/-! The level of a component in the course of changes. The latest change that gave it a level
decides, but the level that stands for none does not last: the next time the component is set up
without a level it gets the default one, as if it had been set up for the first time. -/

namespace ClassAtlas.Log

/-- A component is set up, or all that are there get a level. -/
inductive Change where
  | construct (component : String) (o : Options)
  | setAll (name : String)

namespace Change

variable {component : String} {change : Change} {changes : List Change} {cs : Channels}
  {level : Level}

/-- Its level can be had, if it asks for one. -/
def Accepted : Change → Prop
  | construct _ o => o.Accepted
  | setAll name => ∃ level, levelOfName name = .ok level

/-- A component is there from then on. -/
def Constructs (component : String) : Change → Prop
  | construct other _ => other = component
  | setAll _ => False

instance (component : String) : DecidablePred (Constructs component)
  | construct other _ => inferInstanceAs (Decidable (other = component))
  | setAll _ => inferInstanceAs (Decidable False)

/-- The level a change gives to a component that is there. -/
def level? (component : String) : Change → Option Level
  | construct other o =>
    if other = component then o.level.bind fun name => (levelOfName name).toOption else none
  | setAll name => (levelOfName name).toOption

def next (cs : Channels) : Change → Channels
  | construct component o => after (Channels.configure component o) cs
  | setAll name => (cs.setAll name).toOption.getD cs

/-- The channels after some changes. -/
def run (changes : List Change) (cs : Channels) : Channels :=
  changes.foldl next cs

end Change

def Channels.level? (cs : Channels) (component : String) : Option Level :=
  (cs.get? component).map Channel.level

namespace Change

variable {component : String} {change : Change} {changes : List Change} {cs : Channels}
  {level : Level}

theorem level?_construct (h : change.Accepted) (hown : change.Constructs component)
    (cs : Channels) :
    (change.next cs).level? component = some ((change.level? component).getD
      (if (cs.level? component).getD 0 = 0 then warning else (cs.level? component).getD 0)) := by
  cases change with
  | setAll name => cases hown
  | construct other o =>
    obtain rfl : other = component := hown
    obtain ⟨sinks, hput, -⟩ := Channels.puts_configure other h cs
    have hbefore : (cs.channelOf other).level = (cs.level? other).getD 0 := by
      rw [Channels.channelOf, Channels.level?]
      cases cs.get? other <;> rfl
    rw [next, Channels.level?, hput.own, Option.map_some, hbefore, level?, if_pos rfl,
      Options.levelOver]
    cases hname : o.level with
    | none => rfl
    | some name =>
      obtain ⟨level, hlevel⟩ := h name hname
      simp [hlevel, Except.toOption]

theorem level?_other (h : change.Accepted) (hother : ¬ change.Constructs component)
    (cs : Channels) :
    (change.next cs).level? component =
      (cs.level? component).map fun before => (change.level? component).getD before := by
  cases change with
  | construct other o =>
    have hne : component ≠ other := fun heq => hother heq.symm
    obtain ⟨sinks, hput, -⟩ := Channels.puts_configure other h cs
    rw [next, Channels.level?, hput.other component hne, level?, if_neg hne.symm]
    exact Option.map_id'.symm ▸ rfl
  | setAll name =>
    obtain ⟨level, hlevel⟩ := h
    have hnext : (setAll name).next cs = ⟨cs.list.map (Channels.setLevel level), cs.fs⟩ := by
      rw [next, Channels.setAll_eq hlevel]
      rfl
    rw [hnext, Channels.level?, Channels.get?_map (Channels.setLevel level) fun _ => rfl,
      level?, hlevel, Channels.level?, Option.map_map, Option.map_map]
    rfl

/-- Changes that give a component no level keep the one it has, unless that stands for none and the
component is set up. -/
theorem level?_run_of_kept (h : ∀ change ∈ changes, change.Accepted)
    (hkept : ∀ change ∈ changes, change.level? component = none)
    (hlevel : cs.level? component = some level) :
    (run changes cs).level? component = some
      (if level = 0 ∧ ∃ change ∈ changes, change.Constructs component then warning else level) := by
  induction changes generalizing cs level with
  | nil => simpa [run] using hlevel
  | cons change changes ih =>
    obtain ⟨haccepted, hrest⟩ := List.forall_mem_cons.mp h
    obtain ⟨hsame, hkept⟩ := List.forall_mem_cons.mp hkept
    by_cases hown : change.Constructs component
    · have hnext := level?_construct haccepted hown cs
      rw [hsame, hlevel, Option.getD_none, Option.getD_some] at hnext
      refine (ih hrest hkept hnext).trans (congrArg some ?_)
      have hset :
          ∃ c ∈ change :: changes, c.Constructs component := ⟨change, List.mem_cons_self, hown⟩
      have hwarning : ¬ warning = 0 := by decide
      by_cases hzero : level = 0
      · rw [if_pos (⟨hzero, hset⟩ : level = 0 ∧ _), if_pos hzero, if_neg fun h => hwarning h.1]
      · rw [if_neg hzero, if_neg fun h => hzero h.1, if_neg fun h => hzero h.1]
    · have hnext := level?_other haccepted hown cs
      rw [hsame, hlevel, Option.map_some, Option.getD_none] at hnext
      refine (ih hrest hkept hnext).trans ?_
      have hsplit : (∃ c ∈ change :: changes, c.Constructs component) ↔
          ∃ c ∈ changes, c.Constructs component := by simp [hown]
      simp only [hsplit]

theorem level?_run_of_absent (h : ∀ change ∈ changes, change.Accepted)
    (hnone : ∀ change ∈ changes, ¬ change.Constructs component)
    (hlevel : cs.level? component = none) :
    (run changes cs).level? component = none := by
  induction changes generalizing cs with
  | nil => exact hlevel
  | cons change changes ih =>
    obtain ⟨haccepted, hrest⟩ := List.forall_mem_cons.mp h
    obtain ⟨hother, hnone⟩ := List.forall_mem_cons.mp hnone
    refine ih hrest hnone ?_
    rw [level?_other haccepted hother, hlevel]
    rfl

/-- The component is there when the change after these is made, or since that change. -/
def There (component : String) (before : List Change) (change : Change) : Prop :=
  ∃ earlier ∈ before ++ [change], earlier.Constructs component

/-- No change gives a level to the component while it is there. -/
def Unset (component : String) (changes : List Change) : Prop :=
  ∀ before change behind, changes = before ++ change :: behind → There component before change →
    change.level? component = none

/-- A change that gives a level to a component that is there by then, as the last one that does. -/
structure SetsLast (component : String) (level : Level) (before : List Change) (change : Change)
    (behind : List Change) : Prop where
  there : There component before change
  level : change.level? component = some level
  last : ∀ later ∈ behind, later.level? component = none

/-- A component that no change gives a level has the default one from the first time it is set
up. -/
theorem level?_run_of_unset (h : ∀ change ∈ changes, change.Accepted)
    (hunset : Unset component changes) (hown : ∃ change ∈ changes, change.Constructs component)
    (hlevel : cs.level? component = none) :
    (run changes cs).level? component = some warning := by
  induction changes generalizing cs with
  | nil => simp at hown
  | cons change changes ih =>
    obtain ⟨haccepted, hrest⟩ := List.forall_mem_cons.mp h
    by_cases hfirst : change.Constructs component
    · have hnext := level?_construct haccepted hfirst cs
      rw [hunset [] change changes rfl ⟨change, by simp, hfirst⟩, hlevel] at hnext
      have hkept : ∀ later ∈ changes, later.level? component = none := by
        intro later hlater
        obtain ⟨middle, behind, rfl⟩ := List.append_of_mem hlater
        exact hunset (change :: middle) later behind rfl ⟨change, by simp, hfirst⟩
      refine (level?_run_of_kept hrest hkept hnext).trans (congrArg some ?_)
      exact if_neg fun h => absurd h.1 (by decide)
    · have hnext := level?_other haccepted hfirst cs
      rw [hlevel, Option.map_none] at hnext
      refine ih hrest ?_ ?_ hnext
      · rintro before c behind hsplit ⟨earlier, hearlier, hconstructs⟩
        exact hunset (change :: before) c behind (congrArg _ hsplit)
          ⟨earlier, List.mem_cons_of_mem _ hearlier, hconstructs⟩
      · obtain ⟨c, hc, hconstructs⟩ := hown
        rcases List.mem_cons.mp hc with rfl | hc
        · exact absurd hconstructs hfirst
        · exact ⟨c, hc, hconstructs⟩

/-- Either no change gave the component a level while it was there, or one was the last to do so. -/
theorem unset_or_setsLast (component : String) (changes : List Change) : Unset component changes ∨
    ∃ before change behind level, changes = before ++ change :: behind ∧
      SetsLast component level before change behind := by
  induction changes using List.reverseRecOn with
  | nil => exact .inl fun before change behind hsplit => by simp at hsplit
  | append_singleton changes c ih =>
    by_cases hkept : There component changes c → c.level? component = none
    · rcases ih with hunset | ⟨before, change, behind, level, rfl, hset⟩
      · refine .inl fun before change behind hsplit hthere => ?_
        cases behind using List.reverseRecOn with
        | nil =>
          obtain ⟨rfl, hlast⟩ := List.append_inj' hsplit rfl
          obtain rfl := List.head_eq_of_cons_eq hlast
          exact hkept hthere
        | append_singleton behind d =>
          rw [← List.cons_append, ← List.append_assoc] at hsplit
          exact hunset before change behind (List.append_inj' hsplit rfl).1 hthere
      · obtain ⟨earlier, hearlier, hconstructs⟩ := hset.there
        have hthere : There component (before ++ change :: behind) c := by
          refine ⟨earlier, ?_, hconstructs⟩
          rcases List.mem_append.mp hearlier with hmem | hmem
          · simp [hmem]
          · simp [List.mem_singleton.mp hmem]
        refine .inr ⟨before, change, behind ++ [c], level, by simp, hset.there, hset.level, ?_⟩
        intro later hlater
        rcases List.mem_append.mp hlater with hmem | hmem
        · exact hset.last later hmem
        · exact List.mem_singleton.mp hmem ▸ hkept hthere
    · obtain ⟨hthere, hgiven⟩ := Classical.not_imp.mp hkept
      obtain ⟨level, hlevel⟩ := Option.ne_none_iff_exists'.mp hgiven
      exact .inr ⟨changes, c, [], level, rfl, hthere, hlevel, by simp⟩

theorem run_append (before behind : List Change) (cs : Channels) :
    run (before ++ behind) cs = run behind (run before cs) :=
  List.foldl_append

theorem isSome_level?_run (h : ∀ change ∈ changes, change.Accepted)
    (hown : (cs.level? component).isSome ∨ ∃ change ∈ changes, change.Constructs component) :
    ((run changes cs).level? component).isSome := by
  induction changes generalizing cs with
  | nil => simpa [run] using hown
  | cons change changes ih =>
    obtain ⟨haccepted, hrest⟩ := List.forall_mem_cons.mp h
    refine ih hrest ?_
    by_cases hfirst : change.Constructs component
    · exact .inl (by rw [level?_construct haccepted hfirst]; rfl)
    · rw [level?_other haccepted hfirst, Option.isSome_map]
      refine hown.imp_right ?_
      rintro ⟨c, hc, hconstructs⟩
      rcases List.mem_cons.mp hc with rfl | hc
      · exact absurd hconstructs hfirst
      · exact ⟨c, hc, hconstructs⟩

theorem level?_run_of_setsLast {before behind : List Change}
    (h : ∀ c ∈ before ++ change :: behind, c.Accepted)
    (hset : SetsLast component level before change behind) (cs : Channels) :
    (run (before ++ change :: behind) cs).level? component = some
      (if level = 0 ∧ ∃ later ∈ behind, later.Constructs component then warning else level) := by
  obtain ⟨hbefore, hrest⟩ := List.forall_mem_append.mp h
  obtain ⟨haccepted, hbehind⟩ := List.forall_mem_cons.mp hrest
  rw [run_append]
  show (run behind (change.next (run before cs))).level? component = _
  refine level?_run_of_kept hbehind hset.last ?_
  by_cases hown : change.Constructs component
  · rw [level?_construct haccepted hown, hset.level]
    rfl
  · have hthere : ∃ earlier ∈ before, earlier.Constructs component := by
      obtain ⟨earlier, hearlier, hconstructs⟩ := hset.there
      rcases List.mem_append.mp hearlier with hmem | hmem
      · exact ⟨earlier, hmem, hconstructs⟩
      · obtain rfl := List.mem_singleton.mp hmem
        exact absurd hconstructs hown
    obtain ⟨old, hold⟩ := Option.isSome_iff_exists.mp (isSome_level?_run hbefore (.inr hthere))
    rw [level?_other haccepted hown, hold, hset.level]
    rfl

/-- What is there from the start is what two components leave that were set up without options. -/
theorem start_eq_run (fs : FileSystem) : Channels.start fs =
    run [construct "reader" ⟨none, none, .text, true⟩,
      construct "attributes" ⟨none, none, .text, true⟩]
      ⟨[], fs⟩ := rfl

/-- The level of a component is the one that it was given by the latest change, when it was there.
Was that the level that stands for none, then the next time it is set up it gets the default. A
component that was given no level has the default. -/
theorem level?_run_latest (fs : FileSystem) (component : String) (changes : List Change)
    (h : ∀ change ∈ changes, change.Accepted) :
    (Unset component changes ∨ ∃ before change behind level, changes = before ++ change :: behind ∧
      SetsLast component level before change behind) ∧
    (∀ before change behind level, changes = before ++ change :: behind →
      SetsLast component level before change behind →
      (run changes ⟨[], fs⟩).level? component = some
        (if level = 0 ∧ ∃ later ∈ behind, later.Constructs component then warning else level)) ∧
    (Unset component changes → (run changes ⟨[], fs⟩).level? component =
      if ∃ change ∈ changes, change.Constructs component then some warning else none) ∧
    ∀ (o : Options) (level : Level), o.level = none →
      (run changes ⟨[], fs⟩).level? component = some level →
      (run (changes ++ [construct component o]) ⟨[], fs⟩).level? component =
        some (if level = 0 then warning else level) := by
  refine ⟨unset_or_setsLast component changes, ?_, fun hunset => ?_,
    fun o level hplain hlevel => ?_⟩
  · rintro before change behind level rfl hset
    exact level?_run_of_setsLast h hset _
  · split_ifs with hown
    · exact level?_run_of_unset h hunset hown rfl
    · exact level?_run_of_absent h
        (fun change hchange hconstructs => hown ⟨change, hchange, hconstructs⟩) rfl
  · have haccepted : ∀ c ∈ [construct component o], c.Accepted :=
      List.forall_mem_singleton.mpr (Options.accepted_of_none hplain)
    have hkept : ∀ c ∈ [construct component o], c.level? component = none := by
      refine List.forall_mem_singleton.mpr ?_
      rw [level?, if_pos rfl, hplain]
      rfl
    have hrun := level?_run_of_kept haccepted hkept hlevel
    rw [run_append]
    simpa [Constructs] using hrun

theorem level?_run_latest_global :
    let changes := [construct "engine" ⟨none, none, .text, true⟩, setAll "debug",
      construct "reader" ⟨some "Error", none, .text, true⟩,
        construct "engine" ⟨none, none, .json, false⟩]
    (∀ change ∈ changes, change.Accepted) ∧
      (run changes ⟨[], .empty ["home"]⟩).level? "engine" = some debug := by
  intro changes
  have herror : levelOfName "Error" = .ok error := by decide
  have haccepted : ∀ change ∈ changes, change.Accepted := by
    simp only [changes, List.forall_mem_cons]
    exact ⟨Options.accepted_of_none rfl, ⟨debug, by decide⟩, Options.accepted_of_some rfl herror,
      Options.accepted_of_none rfl, by simp⟩
  have hset :
      SetsLast "engine" debug [construct "engine" ⟨none, none, .text, true⟩] (setAll "debug")
        [construct "reader" ⟨some "Error", none, .text, true⟩,
          construct "engine" ⟨none, none, .json, false⟩] :=
    ⟨⟨_, List.mem_cons_self, rfl⟩, by decide, by decide⟩
  exact ⟨haccepted, (level?_run_latest (.empty ["home"]) "engine" changes haccepted).2.1 _ _
    _ _ rfl hset⟩

/-- The level that was asked for last is not always the one there is: a component that was set up
without severity gets the default one when it is set up again. -/
theorem not_always_latest : ¬ ∀ (fs : FileSystem) (component : String) (level : Level)
    (before : List Change) (change : Change) (behind : List Change),
    (∀ c ∈ before ++ change :: behind, c.Accepted) → SetsLast component level before change behind →
    (run (before ++ change :: behind) ⟨[], fs⟩).level? component = some level := by
  intro h
  have hset : SetsLast "engine" 0 [] (construct "engine" ⟨some "NOTSET", none, .text, true⟩)
      [construct "engine" ⟨none, none, .text, true⟩] :=
    ⟨⟨_, List.mem_cons_self, rfl⟩, by decide, by decide⟩
  have haccepted : ∀ c ∈ [construct "engine" ⟨some "NOTSET", none, .text, true⟩,
      construct "engine" ⟨none, none, .text, true⟩], c.Accepted := by
    have hnone : levelOfName "NOTSET" = .ok 0 := by decide
    simp only [List.forall_mem_cons]
    exact ⟨Options.accepted_of_some rfl hnone, Options.accepted_of_none rfl, by simp⟩
  have hasked := h (.empty []) "engine" 0 [] _ _ haccepted hset
  have hthere := level?_run_of_setsLast haccepted hset ⟨[], .empty []⟩
  rw [if_pos ⟨rfl, by decide⟩] at hthere
  exact absurd (hasked.symm.trans hthere) (by decide)

end Change

end ClassAtlas.Log
