import ClassAtlas.Class
import ClassAtlas.Proofs.ClassFile.Serialization
import ClassAtlas.Proofs.ClassFile.Streaming

/-! Class files that are cut short or have something behind them, and where the faults of broken
ones show. -/

namespace ClassAtlas

/-- A fault that shows in bytes that have been read, not in where they end. -/
def LayoutFault.IsSeen : LayoutFault → Prop
  | .badMagic _ | .unknownTag _ | .noSecondSlot .. => True
  | .truncated .. | .trailing .. => False

namespace ClassFile

open Read

variable {start : Nat}

theorem streams_u8 (what : String) : Streams start (u8 what) :=
  (takes_u8 what).streams start

theorem streams_u16 (what : String) : Streams start (u16 what) :=
  (takes_u16 what).streams start

theorem streams_u32 (what : String) : Streams start (u32 what) :=
  (takes_u32 what).streams start

theorem streams_u64 (what : String) : Streams start (u64 what) :=
  (takes_u64 what).streams start

theorem streams_utf8 : Streams start readUtf8 :=
  (streams_u16 _).bind fun size => ((takes_bytes size.toNat _).streams start).map _

theorem streams_pair (first second : String) (make : Int → Int → Entry) :
    Streams start (readPair first second make) :=
  (streams_u16 first).bind fun a => (streams_u16 second).map fun b => make a.toNat b.toNat

theorem streams_body (kind : EntryKind) : Streams start (readBody kind) := by
  cases kind with
  | utf8 => exact streams_utf8
  | integer | float => exact (streams_u32 _).map _
  | long | double => exact (streams_u64 _).map _
  | classRef | string | methodType => exact (streams_u16 _).map _
  | fieldRef | methodRef | interfaceMethodRef | nameAndType | invokeDynamic =>
    exact streams_pair _ _ _
  | methodHandle => exact (streams_u8 _).bind fun kind => (streams_u16 _).map _

theorem streams_entry : Streams start readEntry := by
  refine Streams.offset_bind fun n _ => (streams_u8 _).bind fun tag => ?_
  cases EntryKind.ofTag? tag with
  | some kind => exact streams_body kind
  | none => exact streams_failAt le_rfl _

theorem streams_slots (total left : Nat) (done : List (Option Entry)) :
    Streams start (readSlots total left done) := by
  -- Strong induction, since a long or a double fills two slots at once.
  induction left using Nat.strong_induction_on generalizing start done with
  | _ left ih =>
    cases left with
    | zero =>
      rw [readSlots]
      exact streams_pure start done.reverse
    | succ left =>
      rw [readSlots]
      refine Streams.offset_bind fun n _ => streams_entry.bind fun e => ?_
      by_cases he : e.slots = 2
      · simp only [he, if_true]
        cases left with
        | zero => exact streams_failAt le_rfl _
        | succ left => exact ih left (by omega) _
      · simp only [he, if_false]
        exact ih left (by omega) _

theorem streams_pool : Streams start readPool :=
  (streams_u16 _).bind fun _ => (streams_slots _ _ _).map _

theorem streams_attribute : Streams start readAttribute :=
  (streams_u16 _).bind fun _ => (streams_u32 _).bind fun size =>
    ((takes_bytes size.toNat _).streams start).map _

theorem streams_attributes : Streams start readAttributes :=
  streams_attribute.counted _

theorem streams_member (what : String) : Streams start (readMember what) :=
  (streams_u16 _).bind fun _ => (streams_u16 _).bind fun _ => (streams_u16 _).bind fun _ =>
    streams_attributes.map _

theorem streams_members (what : String) : Streams start (readMembers what) :=
  (streams_member what).counted _

theorem streams_header : Streams start readHeader := by
  refine (streams_u32 _).bind fun found => ?_
  by_cases hf : found = magic
  · simp only [hf, if_true]
    exact (streams_u16 _).bind fun _ => (streams_u16 _).map _
  · simp only [hf, if_false]
    exact streams_failAt (Nat.zero_le start) _

theorem streams_parts : Streams start readParts :=
  streams_header.bind fun _ => streams_pool.bind fun _ => (streams_u16 _).bind fun _ =>
    (streams_u16 _).bind fun _ => (streams_u16 _).bind fun _ =>
    ((streams_u16 _).counted _).bind fun _ => (streams_members _).bind fun _ =>
    (streams_members _).bind fun _ => streams_attributes.map _

variable {bytes front more : List UInt8} {c : ClassFile} {d : Cursor} {e : LayoutError}

theorem ofBytes_of_readParts_error (h : readParts (.ofBytes bytes) = .error e) :
    ofBytes bytes = .error e := by
  have hread : read (.ofBytes bytes) = .error e := by
    rw [read_eq_readParts]
    exact bind_of_error _ h
  rw [ofBytes, run, hread]

theorem ofBytes_of_readParts (h : readParts (.ofBytes bytes) = .ok (c, d)) :
    ofBytes bytes = if d.rest = [] then .ok c
      else .error ⟨.trailing d.rest.length "class attributes", d.offset⟩ := by
  have hread : read (.ofBytes bytes) =
      (atEnd "class attributes" >>= fun _ => (Pure.pure c : Read ClassFile)) d := by
    rw [read_eq_readParts]
    exact bind_of_ok _ h
  obtain ⟨offset, rest⟩ := d
  rw [ofBytes, run, hread]
  cases rest <;> rfl

theorem readParts_of_ofBytes (h : ofBytes bytes = .ok c) :
    readParts (.ofBytes bytes) = .ok (c, ⟨bytes.length, []⟩) := by
  cases hparts : readParts (.ofBytes bytes) with
  | error e =>
    rw [ofBytes_of_readParts_error hparts] at h
    cases h
  | ok r =>
    obtain ⟨c', offset, rest⟩ := r
    have hlimit := (streams_parts.result (Nat.zero_le _) hparts).2.1
    rw [ofBytes_of_readParts hparts] at h
    split_ifs at h with hrest
    obtain rfl := Except.ok.inj h
    obtain rfl : rest = [] := hrest
    obtain rfl : offset = bytes.length := by simpa [Cursor.limit, Cursor.ofBytes] using hlimit
    rfl

theorem offset_le_of_ofBytes (h : ofBytes bytes = .error e) : e.offset ≤ bytes.length := by
  have hlength : (Cursor.ofBytes bytes).limit = bytes.length := Nat.zero_add _
  cases hparts : readParts (.ofBytes bytes) with
  | error e' =>
    rw [ofBytes_of_readParts_error hparts] at h
    obtain rfl := Except.error.inj h
    have hle := (streams_parts.failure (Nat.zero_le _) hparts).1
    rwa [hlength] at hle
  | ok r =>
    obtain ⟨c, d⟩ := r
    have hlimit := (streams_parts.result (Nat.zero_le _) hparts).2.1
    rw [ofBytes_of_readParts hparts] at h
    split_ifs at h
    obtain rfl := Except.error.inj h
    rw [hlength, Cursor.limit] at hlimit
    show d.offset ≤ bytes.length
    omega

theorem ofBytes_append (h : ofBytes bytes = .ok c) (hmore : more ≠ []) :
    ofBytes (bytes ++ more) = .error ⟨.trailing more.length "class attributes", bytes.length⟩ := by
  have hparts : readParts (.ofBytes (bytes ++ more)) =
      .ok (c, Cursor.extend ⟨bytes.length, []⟩ more) :=
    (streams_parts.result (Nat.zero_le _) (readParts_of_ofBytes h)).2.2 more
  have hrest : (Cursor.extend ⟨bytes.length, []⟩ more).rest ≠ [] := by
    simpa [Cursor.extend] using hmore
  rw [ofBytes_of_readParts hparts, if_neg hrest]
  simp [Cursor.extend]

/-- What is left out of a class file is missed where a read crosses the end of the rest. -/
theorem ofBytes_of_append (h : ofBytes (front ++ more) = .ok c) (hmore : more ≠ []) :
    ∃ e, ofBytes front = .error e ∧ e.RunsOut front.length := by
  have hall := readParts_of_ofBytes h
  have hextend : Cursor.ofBytes (front ++ more) = (Cursor.ofBytes front).extend more := rfl
  have hlength : (Cursor.ofBytes front).limit = front.length := Nat.zero_add _
  rw [hextend] at hall
  cases hparts : readParts (.ofBytes front) with
  | ok r =>
    obtain ⟨c', d⟩ := r
    rw [(streams_parts.result (Nat.zero_le _) hparts).2.2 more] at hall
    have hd := congrArg Cursor.rest (Prod.mk.inj (Except.ok.inj hall)).2
    exact absurd (List.append_eq_nil_iff.mp hd).2 hmore
  | error e =>
    refine ⟨e, ofBytes_of_readParts_error hparts, ?_⟩
    rw [← hlength]
    refine (streams_parts.failure (Nat.zero_le _) hparts).2.resolve_right fun hsame => ?_
    rw [hsame more] at hall
    cases hall

theorem ofBytes_append_of_isSeen (h : ofBytes bytes = .error e) (hseen : e.fault.IsSeen) :
    ofBytes (bytes ++ more) = .error e := by
  cases hparts : readParts (.ofBytes bytes) with
  | ok r =>
    obtain ⟨c, d⟩ := r
    rw [ofBytes_of_readParts hparts] at h
    split_ifs at h
    obtain rfl := Except.error.inj h
    exact hseen.elim
  | error e' =>
    rw [ofBytes_of_readParts_error hparts] at h
    obtain rfl := Except.error.inj h
    obtain ⟨-, hout | hsame⟩ := streams_parts.failure (Nat.zero_le _) hparts
    · obtain ⟨what, needed, missing, hfault, -⟩ := hout
      rw [hfault] at hseen
      exact hseen.elim
    · exact ofBytes_of_readParts_error (hsame more)

theorem error_of_classOfBytes {e : DecodeError} (h : Class.ofBytes bytes = .error e) :
    (∃ l, ofBytes bytes = .error l ∧ e = .layout l) ∨ ∃ r, e = .reference r := by
  unfold Class.ofBytes at h
  cases hfile : ofBytes bytes with
  | error l =>
    rw [hfile] at h
    exact .inl ⟨l, rfl, (Except.error.inj h).symm⟩
  | ok c =>
    rw [hfile] at h
    cases hclass : Class.ofFile c with
    | error r =>
      simp only [hclass, Except.mapError, Except.error.injEq] at h
      exact .inr ⟨r, h.symm⟩
    | ok c' => simp [hclass, Except.mapError] at h

/-- A byte string that is no class file has its fault within it, and one that is a class file can
fail to be a class only by a reference. No class file starts another: what is cut off is missed
where the rest ends, and what is added is left over. A fault that has been seen stays as it is,
whatever follows. -/
theorem ofBytes_cut_or_extended (bytes : List UInt8) :
    (∀ e, ofBytes bytes = .error e → e.offset ≤ bytes.length) ∧
    (∀ e, Class.ofBytes bytes = .error e →
      (∃ l, ofBytes bytes = .error l ∧ e = .layout l) ∨ ∃ r, e = .reference r) ∧
    (∀ c, ofBytes bytes = .ok c →
      (∀ front back, front ++ back = bytes → back ≠ [] →
        ∃ what needed missing offset,
          ofBytes front = .error ⟨.truncated what needed missing, offset⟩ ∧
          0 < missing ∧ missing ≤ needed ∧ offset + (needed - missing) = front.length) ∧
      ∀ more, more ≠ [] → ofBytes (bytes ++ more) =
        .error ⟨.trailing more.length "class attributes", bytes.length⟩) ∧
    ∀ e, ofBytes bytes = .error e → e.fault.IsSeen →
      ∀ more, ofBytes (bytes ++ more) = .error e := by
  refine ⟨fun e => offset_le_of_ofBytes, fun e => error_of_classOfBytes, fun c hc => ⟨?_, ?_⟩, ?_⟩
  · rintro front back rfl hback
    obtain ⟨⟨fault, offset⟩, hfront, what, needed, missing, rfl, hmissing, hle, hoffset⟩ :=
      ofBytes_of_append hc hback
    exact ⟨what, needed, missing, offset, hfront, hmissing, hle, hoffset⟩
  · intro more hmore
    exact ofBytes_append hc hmore
  · intro e he hseen more
    exact ofBytes_append_of_isSeen he hseen

/-- The start of a file whose pool holds an entry of no known kind. -/
def strangeFile : List UInt8 :=
  [0xCA, 0xFE, 0xBA, 0xBE, 0, 0, 0, 52, 0, 2, 2]

theorem ofBytes_cut_or_extended_bare :
    ofBytes (bare.bytes 1) = .ok bare ∧
    (∃ what needed missing offset,
      ofBytes ((bare.bytes 1).take 23) = .error ⟨.truncated what needed missing, offset⟩ ∧
      0 < missing ∧ missing ≤ needed ∧ offset + (needed - missing) = 23) ∧
    ofBytes (bare.bytes 1 ++ [7]) = .error ⟨.trailing 1 "class attributes", 24⟩ ∧
    ofBytes strangeFile = .error ⟨.unknownTag 2, 10⟩ ∧
    ofBytes (strangeFile ++ [7, 7]) = .error ⟨.unknownTag 2, 10⟩ := by
  have hbare : ofBytes (bare.bytes 1) = .ok bare := by rfl
  have hstrange : ofBytes strangeFile = .error ⟨.unknownTag 2, 10⟩ := by rfl
  obtain ⟨-, -, haccepted, -⟩ := ofBytes_cut_or_extended (bare.bytes 1)
  obtain ⟨-, -, -, hseen⟩ := ofBytes_cut_or_extended strangeFile
  obtain ⟨hcut, hextended⟩ := haccepted bare hbare
  exact ⟨hbare, hcut ((bare.bytes 1).take 23) [0] (by rfl) (by simp), hextended [7] (by simp),
    hstrange, hseen _ hstrange trivial [7, 7]⟩

end ClassFile

end ClassAtlas
