import ClassAtlas.Proofs.Descriptor.Inverse

/-! Where the reading of descriptors finds fault. What stands in front of the place it names is
never to blame: it can be completed to a descriptor that is accepted. -/

namespace ClassAtlas

namespace Descriptor

open Signature

variable {levels : Nat} {P : Signature → Prop} {front : List Char}

/-- A text that some suffix completes to the descriptor of a type that satisfies `P`. -/
def Begins (P : Signature → Prop) (front : List Char) : Prop :=
  ∃ s suffix, P s ∧ s.letters = front ++ suffix

/-- Only a whole text can have characters behind its type. -/
def Fault.IsInner (fault : Fault) : Prop :=
  ∀ rest, fault ≠ .trailing rest

/-- A step whose faults lie behind characters that begin a type that satisfies `P`. -/
def Blames (read : Nat → List Char → Outcome Signature) (P : Signature → Prop) : Prop :=
  ∀ pos cs place fault, read pos cs = .error (place, fault) → fault.IsInner ∧ ∃ front behind,
    cs = front ++ behind ∧ place = pos + front.length ∧ Begins P front

/-- Parts of methods are read with one level less, and their faults are those of types. -/
def PartsBlame (levels : Nat) (read : Option (Nat → List Char → Outcome Signature)) : Prop :=
  PartsRead levels read ∧ ∀ r ∈ read, ∃ l, levels = l + 1 ∧ Blames r (Within l)

theorem begins_nil (h : ∃ s, P s) : Begins P [] := by
  obtain ⟨s, hs⟩ := h
  exact ⟨s, s.letters, hs, rfl⟩

theorem exists_plain (levels : Nat) : ∃ s : Signature, ¬ s.IsArray ∧ s.Within levels :=
  ⟨base .void, id, within_base levels .void⟩

theorem Begins.wrap {depth : Nat} (h : Begins (fun s => ¬ s.IsArray ∧ s.Within levels) front)
    (hdepth : depth ≤ maxDimensions) :
      Begins (Within levels) (List.replicate depth '[' ++ front) := by
  obtain ⟨s, suffix, ⟨harray, hwithin⟩, hletters⟩ := h
  refine ⟨s.wrap depth, suffix, (within_wrap_iff harray levels depth).mpr ⟨hdepth, hwithin⟩, ?_⟩
  rw [letters_wrap, hletters, List.append_assoc]

theorem blames_dimensions {plain : Nat → List Char → Outcome Signature}
    (h : Blames plain fun s => ¬ s.IsArray ∧ s.Within levels) :
    Blames (readDimensions plain) (Within levels) := by
  intro pos cs place fault hread
  obtain ⟨depth, behind, hbrackets⟩ : ∃ depth behind, takeBrackets cs = (depth, behind) :=
    ⟨_, _, rfl⟩
  simp only [readDimensions, hbrackets] at hread
  split at hread
  · cases hread
    exact ⟨by simp [Fault.IsInner], [], cs, rfl, rfl, begins_nil ⟨_, within_base levels .void⟩⟩
  · rename_i hdepth
    split at hread
    · rename_i e hplain
      cases hread
      obtain ⟨hinner, front, rest, rfl, rfl, hbegins⟩ := h _ _ _ _ hplain
      refine ⟨hinner, List.replicate depth '[' ++ front, rest, ?_, ?_, hbegins.wrap (by omega)⟩
      · rw [(takeBrackets_eq_iff.mp hbrackets).1, List.append_assoc]
      · rw [List.length_append, List.length_replicate, Nat.add_assoc]
    · cases hread

/-- The place is that of the letter in front of a class path, or of the path itself. -/
theorem place_of_readObject {pos place : Nat} {cs : List Char} {fault : Fault}
    (h : readObject pos cs = .error (place, fault)) :
    fault.IsInner ∧ (place = pos ∨ place = pos + 1) := by
  rw [readObject] at h
  split at h
  · cases h
    exact ⟨by simp [Fault.IsInner], .inl rfl⟩
  · split at h
    · cases h
    · cases h
      exact ⟨by simp [Fault.IsInner], .inr rfl⟩

/-- A fault among the arguments is that they have no end, which is told at the opening bracket, or
lies behind characters that begin a list of arguments. -/
theorem begins_of_readArguments {read : Nat → List Char → Outcome Signature} (hread : Reads read P)
    (hblames : Blames read P) {opening fuel pos place : Nat} {cs : List Char} {fault : Fault}
    (h : readArguments read opening fuel pos cs = .error (place, fault)) :
    fault.IsInner ∧ (place = opening ∨ ∃ front behind args suffix, cs = front ++ behind ∧
      place = pos + front.length ∧ (∀ a ∈ args, P a) ∧ descriptors args = front ++ suffix) := by
  induction fuel generalizing pos cs with
  | zero =>
    cases h
    exact ⟨by simp [Fault.IsInner], .inl rfl⟩
  | succ fuel ih =>
    cases cs with
    | nil =>
      cases h
      exact ⟨by simp [Fault.IsInner], .inl rfl⟩
    | cons c cs =>
      by_cases hclose : c = ')'
      · subst hclose
        cases h
      · rw [readArguments_cons hclose] at h
        split at h
        · rename_i e harg
          cases h
          obtain ⟨hinner, front, behind, hcs, hplace, s, suffix, hs, hletters⟩ :=
            hblames _ _ _ _ harg
          refine ⟨hinner, .inr ⟨front, behind, [s], suffix, hcs, hplace, by simpa using hs, ?_⟩⟩
          rw [descriptors_cons, hletters]
          exact List.append_nil _
        · rename_i a next rest harg
          split at h
          · rename_i e hargs
            cases h
            obtain ⟨ha, hcs, rfl⟩ := (hread _ _ _ _ _).mp harg
            obtain ⟨hinner, hopening | ⟨front, behind, args, suffix, rfl, rfl, hall, hargs⟩⟩ :=
              ih hargs
            · exact ⟨hinner, .inl hopening⟩
            · refine ⟨hinner, .inr ⟨a.letters ++ front, behind, a :: args, suffix, ?_, ?_,
                List.forall_mem_cons.mpr ⟨ha, hall⟩, ?_⟩⟩
              · rw [hcs, List.append_assoc]
              · rw [List.length_append, Nat.add_assoc]
              · rw [descriptors_cons, hargs, List.append_assoc]
          · cases h

theorem begins_object : Begins (fun s => ¬ s.IsArray ∧ s.Within levels) ['L'] := by
  have hname : isInternalName "A".toList = true := by rfl
  exact ⟨object "A", ['A', ';'], ⟨id, within_object_iff.mpr hname⟩, rfl⟩

/-- A list of arguments that was begun is completed and followed by a result. -/
theorem begins_arguments {args : List Signature} {suffix : List Char}
    (hargs : ∀ a ∈ args, a.Within levels) (h : descriptors args = front ++ suffix) :
    Begins (fun s => ¬ s.IsArray ∧ s.Within (levels + 1)) ('(' :: front) := by
  have hwithin : (method args (base .void)).Within (levels + 1) :=
    within_succ_method_iff.mpr ⟨hargs, within_base levels .void⟩
  refine ⟨method args (base .void), suffix ++ ')' :: (base .void).letters, ⟨id, hwithin⟩, ?_⟩
  rw [letters_method, h, List.append_assoc, List.cons_append]

theorem begins_result {args : List Signature} (hargs : ∀ a ∈ args, a.Within levels)
    (h : Begins (Within levels) front) :
    Begins (fun s => ¬ s.IsArray ∧ s.Within (levels + 1))
      ('(' :: (descriptors args ++ ')' :: front)) := by
  obtain ⟨result, suffix, hresult, hletters⟩ := h
  refine ⟨method args result, suffix, ⟨id, within_succ_method_iff.mpr ⟨hargs, hresult⟩⟩, ?_⟩
  rw [letters_method, hletters]
  simp

theorem blames_plain {read : Option (Nat → List Char → Outcome Signature)}
    (h : PartsBlame levels read) :
      Blames (readPlain read) fun s => ¬ s.IsArray ∧ s.Within levels := by
  obtain ⟨hparts, hblames⟩ := h
  intro pos cs place fault hread
  have hnone : ∃ front behind, cs = front ++ behind ∧ pos = pos + front.length ∧
      Begins (fun s => ¬ s.IsArray ∧ s.Within levels) front :=
    ⟨[], cs, rfl, rfl, begins_nil (exists_plain levels)⟩
  rw [readPlain.eq_def] at hread
  split at hread
  · cases hread
    exact ⟨by simp [Fault.IsInner], hnone⟩
  · rename_i c cs
    split at hread
    · cases hread
    · split at hread
      · rename_i hc
        subst hc
        obtain ⟨hinner, rfl | rfl⟩ := place_of_readObject hread
        · exact ⟨hinner, hnone⟩
        · exact ⟨hinner, ['L'], cs, rfl, rfl, begins_object⟩
      · split at hread
        · rename_i hc
          subst hc
          split at hread
          · cases hread
            exact ⟨by simp [Fault.IsInner], hnone⟩
          · rename_i r
            obtain ⟨l, rfl, hblame⟩ := hblames r rfl
            have hreads : Reads r (Within l) := hparts
            split at hread
            · rename_i e hargs
              cases hread
              obtain ⟨hinner, rfl | ⟨front, behind, args, suffix, rfl, rfl, hall, hargs⟩⟩ :=
                begins_of_readArguments hreads hblame hargs
              · exact ⟨hinner, hnone⟩
              · refine ⟨hinner, '(' :: front, behind, rfl, ?_, begins_arguments hall hargs⟩
                rw [List.length_cons]
                omega
            · rename_i args next rest hargs
              split at hread
              · rename_i e hresult
                cases hread
                obtain ⟨hall, rfl, rfl⟩ :=
                  (readArguments_eq_ok_iff hreads pos (Nat.lt_succ_self _)).mp hargs
                obtain ⟨hinner, front, behind, rfl, rfl, hbegins⟩ := hblame _ _ _ _ hresult
                refine ⟨hinner, '(' :: (descriptors args ++ ')' :: front), behind, by simp, ?_,
                  begins_result hall hbegins⟩
                simp only [List.length_cons, List.length_append]
                omega
              · cases hread
        · cases hread
          exact ⟨by simp [Fault.IsInner], hnone⟩

theorem blames_type (levels : Nat) : Blames (readType levels) (Within levels) := by
  induction levels with
  | zero =>
    have hparts : PartsBlame 0 none := ⟨trivial, by simp⟩
    exact blames_dimensions (blames_plain hparts)
  | succ levels ih =>
    have hparts : PartsBlame (levels + 1) (some (readType levels)) :=
      ⟨reads_type levels, fun r hr => ⟨levels, rfl, Option.some.inj hr ▸ ih⟩⟩
    exact blames_dimensions (blames_plain hparts)

/-- A text with a fault starts with characters that begin a descriptor, as many as there are in
front of the fault. Where only the rest is too much, they are a descriptor themselves. -/
theorem begins_of_readAll {cs : List Char} {place : Nat} {fault : Fault}
    (h : readAll cs = .error (place, fault)) : ∃ front behind, cs = front ++ behind ∧
      place = front.length ∧ Begins (Within maxNesting) front ∧
      ∀ rest, fault = .trailing rest →
        rest = behind ∧ ∃ s : Signature, s.Within maxNesting ∧ s.letters = front := by
  rw [readAll] at h
  split at h
  · cases h
    exact ⟨[], cs, rfl, rfl, begins_nil ⟨_, within_base _ .void⟩, by simp⟩
  · split at h
    · rename_i e htype
      cases h
      obtain ⟨hinner, front, behind, hcs, hplace, hbegins⟩ := blames_type maxNesting _ _ _ _ htype
      rw [Nat.zero_add] at hplace
      exact ⟨front, behind, hcs, hplace, hbegins, fun rest hrest => absurd hrest (hinner rest)⟩
    · rename_i s next rest htype
      split at h
      · cases h
      · cases h
        obtain ⟨hwithin, hcs, hnext⟩ := (reads_type maxNesting _ _ _ _ _).mp htype
        rw [Nat.zero_add] at hnext
        refine ⟨s.letters, rest, hcs, hnext, ⟨s, [], hwithin, by simp⟩, fun rest' hrest => ?_⟩
        cases hrest
        exact ⟨rfl, s, hwithin, rfl⟩

end Descriptor

namespace Signature

/-- A text that is refused is named by the error together with a place in it. What stands in front
of the place is no fault: some suffix completes it to a descriptor that is accepted. Where only the
rest of the text is too much, it is accepted as it is. -/
theorem ofDescriptor_blames {text : String} {e : GrammarError} (h : ofDescriptor text = .error e) :
    e.text = text ∧ e.position ≤ text.length ∧
    (∃ suffix s, ofDescriptor (String.ofList (text.toList.take e.position) ++ suffix) = .ok s) ∧
    ∀ rest, e.fault = .trailing rest → rest = text.toList.drop e.position ∧
      ∃ s, ofDescriptor (String.ofList (text.toList.take e.position)) = .ok s := by
  obtain ⟨position, fault, hread, rfl⟩ : ∃ position fault,
      Descriptor.readAll text.toList = .error (position, fault) ∧ e = ⟨text, position, fault⟩ := by
    rw [ofDescriptor] at h
    split at h
    · cases h
    · rename_i position fault hread
      exact ⟨position, fault, hread, (Except.error.inj h).symm⟩
  obtain ⟨front, behind, htext, rfl, ⟨s, suffix, hwithin, hletters⟩, htrailing⟩ :=
    Descriptor.begins_of_readAll hread
  have hfront : text.toList.take front.length = front := by rw [htext, List.take_left]
  refine ⟨rfl, ?place, ⟨String.ofList suffix, s, ?begun⟩, fun rest hrest => ?whole⟩
  case place =>
    rw [← String.length_toList, htext, List.length_append]
    exact Nat.le_add_right _ _
  case begun =>
    refine ofDescriptor_eq_ok_iff.mpr ⟨?_, hwithin⟩
    rw [hfront, ← String.ofList_append, ← hletters, descriptor]
  case whole =>
    obtain ⟨rfl, s, hwithin, hletters⟩ := htrailing rest hrest
    refine ⟨by rw [htext, List.drop_left], s, ofDescriptor_eq_ok_iff.mpr ⟨?_, hwithin⟩⟩
    rw [hfront, ← hletters, descriptor]

theorem ofDescriptor_blames_character :
    (ofDescriptor "([[IX)V" = .error ⟨"([[IX)V", 4, .unexpectedCharacter 'X'⟩ ∧
      ∃ suffix s, ofDescriptor ("([[I" ++ suffix) = .ok s) ∧
    ofDescriptor "()VI" = .error ⟨"()VI", 3, .trailing ['I']⟩ ∧
      ∃ s, ofDescriptor "()V" = .ok s := by
  have hcharacter : ofDescriptor "([[IX)V" =
      .error ⟨"([[IX)V", 4, .unexpectedCharacter 'X'⟩ := by cbv
  have htrailing : ofDescriptor "()VI" = .error ⟨"()VI", 3, .trailing ['I']⟩ := by rfl
  obtain ⟨-, -, hcompleted, -⟩ := ofDescriptor_blames hcharacter
  obtain ⟨-, -, -, hwhole⟩ := ofDescriptor_blames htrailing
  exact ⟨⟨hcharacter, hcompleted⟩, htrailing, (hwhole ['I'] rfl).2⟩

end Signature

end ClassAtlas
