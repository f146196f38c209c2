import ClassAtlas.Proofs.Descriptor.Limits

/-! Reading descriptors accepts exactly the descriptors of types within the limits, so that reading
and writing invert each other. -/

namespace ClassAtlas

theorem mem_pieces_of_not_sep {α : Type} {sep : α → Bool} {text : List α} {c : α} (hc : c ∈ text)
    (hs : sep c = false) : ∃ p ∈ pieces sep text, c ∈ p := by
  induction text with
  | nil => simp at hc
  | cons b text ih =>
    rw [pieces]
    by_cases hb : sep b = true
    · have hc' : c ∈ text := by
        rcases List.mem_cons.mp hc with rfl | hc
        · simp [hb] at hs
        · exact hc
      obtain ⟨p, hp, hm⟩ := ih hc'
      exact ⟨p, by simp [hb, hp], hm⟩
    · simp only [hb]
      cases hp : pieces sep text with
      | nil =>
        rcases List.mem_cons.mp hc with rfl | hc
        · exact ⟨[c], by simp, by simp⟩
        · obtain ⟨p, hm, -⟩ := ih hc
          simp [hp] at hm
      | cons p ps =>
        rcases List.mem_cons.mp hc with rfl | hc
        · exact ⟨c :: p, by simp, by simp⟩
        · obtain ⟨q, hq, hm⟩ := ih hc
          rcases List.mem_cons.mp (hp ▸ hq) with rfl | hq
          · exact ⟨b :: q, by simp, by simp [hm]⟩
          · exact ⟨q, by simp [hq], hm⟩

theorem isIdentifierPart_of_mem {text : List Char} {c : Char} (h : isIdentifier text = true)
    (hc : c ∈ text) : isIdentifierPart c = true := by
  cases text with
  | nil => simp at hc
  | cons b text =>
    simp only [isIdentifier, isIdentifierStart, Bool.and_eq_true, Bool.or_eq_true,
      List.all_eq_true] at h
    rcases List.mem_cons.mp hc with rfl | hc
    · rw [isIdentifierPart, Bool.or_eq_true]
      exact h.1.imp id And.left
    · exact h.2 c hc

theorem semicolon_not_mem {text : List Char} (h : isInternalName text = true) : ';' ∉ text := by
  intro hc
  obtain ⟨p, hp, hm⟩ := mem_pieces_of_not_sep hc (show isSlash ';' = false from rfl)
  have hi := isIdentifierPart_of_mem (List.all_eq_true.mp h p hp) hm
  have hn : isIdentifierPart ';' = false := by decide
  simp [hn] at hi

namespace Signature

abbrev letters (s : Signature) : List Char :=
  s.descriptorWithin 0

theorem descriptorWithin_eq (depth : Nat) : (s : Signature) →
    s.descriptorWithin depth = List.replicate depth '[' ++ s.letters
  | base _ => by simp [descriptorWithin]
  | object _ => by simp [descriptorWithin]
  | method _ _ => by simp [descriptorWithin]
  | array component => by
    rw [letters, descriptorWithin, descriptorWithin, descriptorWithin_eq (depth + 1) component,
      descriptorWithin_eq (0 + 1) component, ← List.append_assoc, List.replicate_append_replicate,
      Nat.zero_add]

theorem letters_wrap (s : Signature) (depth : Nat) :
    (s.wrap depth).letters = List.replicate depth '[' ++ s.letters := by
  induction depth with
  | zero => rfl
  | succ depth ih =>
    rw [wrap_succ, letters, descriptorWithin, descriptorWithin_eq, ih, ← List.append_assoc,
      List.replicate_append_replicate, Nat.add_comm]

theorem letters_of_not_isArray {s : Signature} (h : ¬ s.IsArray) :
    ∃ c cs, s.letters = c :: cs ∧ c ≠ '[' ∧ c ≠ ')' := by
  cases s with
  | base type => cases type <;> exact ⟨_, _, rfl, by decide, by decide⟩
  | object name => exact ⟨'L', name.toList ++ [';'], rfl, by decide, by decide⟩
  | array component => exact absurd trivial h
  | method args result => exact ⟨'(', _, rfl, by decide, by decide⟩

theorem descriptors_cons (a : Signature) (as : List Signature) :
    descriptors (a :: as) = a.letters ++ descriptors as := rfl

theorem letters_method (args : List Signature) (result : Signature) :
    (method args result).letters = '(' :: (descriptors args ++ ')' :: result.letters) := rfl

theorem letters_eq_cons (s : Signature) : ∃ c cs, s.letters = c :: cs ∧ c ≠ ')' := by
  obtain ⟨depth, s, ha, rfl⟩ := exists_wrap s
  obtain ⟨c, cs, hc, -, hp⟩ := letters_of_not_isArray ha
  rw [letters_wrap, hc]
  cases depth with
  | zero => exact ⟨c, cs, rfl, hp⟩
  | succ depth => exact ⟨'[', _, rfl, by decide⟩

end Signature

theorem Primitive.ofLetter?_eq_some_iff {c : Char} {type : Primitive} :
    Primitive.ofLetter? c = some type ↔ type.letter = c := by
  constructor
  · intro h
    unfold Primitive.ofLetter? at h
    split at h <;> cases h <;> rfl
  · rintro rfl
    cases type <;> rfl

namespace Descriptor

open Signature

/-- A step that succeeds exactly on the descriptors of the types that satisfy `P`, whatever follows
them, and stops behind them. -/
def Reads (read : Nat → List Char → Outcome Signature) (P : Signature → Prop) : Prop :=
  ∀ pos cs s next rest, read pos cs = .ok (s, next, rest) ↔
    P s ∧ cs = s.letters ++ rest ∧ next = pos + s.letters.length

theorem takeBrackets_eq_iff {cs rest : List Char} {depth : Nat} :
    takeBrackets cs = (depth, rest) ↔
      cs = List.replicate depth '[' ++ rest ∧ rest.head? ≠ some '[' := by
  induction cs generalizing depth with
  | nil =>
    simp only [takeBrackets, Prod.mk.injEq]
    constructor
    · rintro ⟨rfl, rfl⟩
      simp
    · rintro ⟨h, -⟩
      obtain ⟨hd, rfl⟩ := List.append_eq_nil_iff.mp h.symm
      exact ⟨(by simpa using hd : depth = 0).symm, rfl⟩
  | cons c cs ih =>
    by_cases hc : c = '['
    · subst hc
      simp only [takeBrackets, Prod.mk.injEq]
      cases depth with
      | zero =>
        simp only [Nat.add_eq_zero_iff, one_ne_zero, and_false, false_and, false_iff]
        rintro ⟨rfl, h⟩
        exact h rfl
      | succ depth =>
        have hh : takeBrackets cs = (depth, rest) ↔
            cs = List.replicate depth '[' ++ rest ∧ rest.head? ≠ some '[' := ih
        rw [Prod.ext_iff] at hh
        simpa [List.replicate_succ] using hh
    · have ht : takeBrackets (c :: cs) = (0, c :: cs) := by
        simp [takeBrackets, hc]
      rw [ht, Prod.mk.injEq]
      constructor
      · rintro ⟨rfl, rfl⟩
        simpa using hc
      · rintro ⟨h, hr⟩
        cases depth with
        | zero => exact ⟨rfl, h⟩
        | succ depth => exact absurd (List.cons.inj h).1 hc

theorem reads_dimensions {plain : Nat → List Char → Outcome Signature} {levels : Nat}
    (h : Reads plain fun s => ¬ s.IsArray ∧ s.Within levels) :
    Reads (readDimensions plain) (Within levels) := by
  intro pos cs t next rest
  constructor
  · intro hr
    obtain ⟨depth, behind, hb⟩ : ∃ depth behind, takeBrackets cs = (depth, behind) := ⟨_, _, rfl⟩
    simp only [readDimensions, hb] at hr
    split at hr
    · cases hr
    · rename_i hd
      split at hr
      · cases hr
      · rename_i s last rest' hp
        simp only [Except.ok.injEq, Prod.mk.injEq] at hr
        obtain ⟨rfl, rfl, rfl⟩ := hr
        obtain ⟨⟨ha, hw⟩, rfl, rfl⟩ := (h _ _ _ _ _).mp hp
        refine ⟨(within_wrap_iff ha levels depth).mpr ⟨by omega, hw⟩, ?_, ?_⟩
        · rw [(takeBrackets_eq_iff.mp hb).1, letters_wrap, List.append_assoc]
        · rw [letters_wrap, List.length_append, List.length_replicate, Nat.add_assoc]
  · rintro ⟨hw, rfl, rfl⟩
    obtain ⟨depth, s, ha, rfl⟩ := exists_wrap t
    obtain ⟨hd, hw⟩ := (within_wrap_iff ha levels depth).mp hw
    obtain ⟨c, cs, hc, hb, -⟩ := letters_of_not_isArray ha
    have ht : takeBrackets ((s.wrap depth).letters ++ rest) = (depth, s.letters ++ rest) := by
      rw [takeBrackets_eq_iff, letters_wrap, List.append_assoc, hc]
      exact ⟨rfl, by simpa using hb⟩
    have hp := (h (pos + depth) _ s _ rest).mpr ⟨⟨ha, hw⟩, rfl, rfl⟩
    have hn : ¬ maxDimensions < depth := by omega
    simp only [readDimensions, ht, hn, if_false, hp]
    rw [letters_wrap, List.length_append, List.length_replicate, Nat.add_assoc]

theorem readObject_eq_ok_iff {pos next : Nat} {cs rest : List Char} {s : Signature} :
    readObject pos cs = .ok (s, next, rest) ↔ ∃ name, s = object name ∧
      isInternalName name.toList = true ∧ cs = name.toList ++ ';' :: rest ∧
      next = pos + name.toList.length + 2 := by
  rw [readObject, List.span_eq_takeWhile_dropWhile]
  constructor
  · intro h
    split at h
    · cases h
    · rename_i path c rest' hs
      obtain ⟨hp, hd⟩ := Prod.mk.inj hs
      split at h
      · rename_i hi
        simp only [Except.ok.injEq, Prod.mk.injEq] at h
        obtain ⟨rfl, rfl, rfl⟩ := h
        have hc : c = ';' := by
          have hh := List.head?_dropWhile_not (· != ';') cs
          rw [hd] at hh
          simpa using hh
        refine ⟨String.ofList path, rfl, by simpa using hi, ?_, by simp⟩
        rw [String.toList_ofList, ← hc, ← hp, ← hd, List.takeWhile_append_dropWhile]
      · cases h
  · rintro ⟨name, rfl, hi, rfl, rfl⟩
    have hall : ∀ c ∈ name.toList, (c != ';') = true := by
      intro c hc
      rw [bne_iff_ne]
      rintro rfl
      exact semicolon_not_mem hi hc
    rw [List.takeWhile_append_of_pos hall, List.dropWhile_append_of_pos hall]
    simp [hi]

theorem readArguments_cons {read : Nat → List Char → Outcome Signature}
    {opening fuel pos : Nat} {c : Char} {cs : List Char} (hc : c ≠ ')') :
    readArguments read opening (fuel + 1) pos (c :: cs) =
      match read pos (c :: cs) with
      | .error e => .error e
      | .ok (arg, next, rest) =>
        match readArguments read opening fuel next rest with
        | .error e => .error e
        | .ok (args, last, rest) => .ok (arg :: args, last, rest) := by
  have hnil : c :: cs = [] → False := by simp
  have hclose : ∀ rest, c :: cs = ')' :: rest → False := by simpa using hc
  exact readArguments.eq_4 read opening pos (c :: cs) fuel hnil hclose

theorem close_eq_descriptors_iff {cs rest : List Char} {args : List Signature} :
    ')' :: cs = descriptors args ++ ')' :: rest ↔ args = [] ∧ cs = rest := by
  cases args with
  | nil => simp [descriptors]
  | cons a args =>
    obtain ⟨d, ds, hd, hclose⟩ := a.letters_eq_cons
    have hne : ')' ≠ d := fun h => hclose h.symm
    simp [descriptors_cons, hd, hne]

theorem length_lt_of_letters {fuel : Nat} {behind : List Char} (a : Signature)
    (h : (a.letters ++ behind).length < fuel + 1) : behind.length < fuel := by
  obtain ⟨d, ds, hd, -⟩ := a.letters_eq_cons
  rw [hd, List.length_append, List.length_cons] at h
  omega

theorem readArguments_eq_ok_iff {read : Nat → List Char → Outcome Signature} {P : Signature → Prop}
    (h : Reads read P) (opening : Nat) {fuel pos next : Nat} {cs rest : List Char}
    {args : List Signature} (hf : cs.length < fuel) :
    readArguments read opening fuel pos cs = .ok (args, next, rest) ↔ (∀ a ∈ args, P a) ∧
      cs = descriptors args ++ ')' :: rest ∧ next = pos + (descriptors args).length + 1 := by
  induction fuel generalizing pos cs args next rest with
  | zero => omega
  | succ fuel ih =>
    cases cs with
    | nil =>
      simp only [readArguments, reduceCtorEq, false_iff]
      rintro ⟨-, hc, -⟩
      simp at hc
    | cons c cs =>
      by_cases hc : c = ')'
      · subst hc
        simp only [readArguments, Except.ok.injEq, Prod.mk.injEq, close_eq_descriptors_iff]
        constructor
        · rintro ⟨rfl, rfl, rfl⟩
          simp [descriptors]
        · rintro ⟨-, ⟨rfl, rfl⟩, rfl⟩
          simp [descriptors]
      · rw [readArguments_cons hc]
        constructor
        · intro hr
          split at hr
          · cases hr
          · rename_i a last behind ha
            split at hr
            · cases hr
            · rename_i as last' behind' has
              simp only [Except.ok.injEq, Prod.mk.injEq] at hr
              obtain ⟨rfl, rfl, rfl⟩ := hr
              obtain ⟨hP, hcs, rfl⟩ := (h _ _ _ _ _).mp ha
              -- An argument takes a character at least, so the fuel lasts for those behind it.
              have hlt : behind.length < fuel := length_lt_of_letters a (hcs ▸ hf)
              obtain ⟨hPs, rfl, rfl⟩ := (ih hlt).mp has
              refine ⟨List.forall_mem_cons.mpr ⟨hP, hPs⟩, ?_, ?_⟩
              · rw [hcs, descriptors_cons, List.append_assoc]
              · rw [descriptors_cons, List.length_append, Nat.add_assoc pos]
        · rintro ⟨hPs, he, rfl⟩
          cases args with
          | nil => exact absurd (List.cons.inj he).1 hc
          | cons a args =>
            obtain ⟨hP, hPs⟩ := List.forall_mem_cons.mp hPs
            rw [descriptors_cons, List.append_assoc] at he
            have ha := (h pos _ a _ (descriptors args ++ ')' :: rest)).mpr ⟨hP, he, rfl⟩
            have hlt : (descriptors args ++ ')' :: rest).length < fuel :=
              length_lt_of_letters a (he ▸ hf)
            have has : readArguments read opening fuel (pos + a.letters.length)
                (descriptors args ++ ')' :: rest) = .ok (args, _, rest) :=
              (ih hlt).mpr ⟨hPs, rfl, rfl⟩
            rw [ha]
            simp only [has, descriptors_cons, List.length_append, Nat.add_assoc]

/-- The parts of a method are read with one level less, and not at all where no level is left. -/
def PartsRead : (levels : Nat) → Option (Nat → List Char → Outcome Signature) → Prop
  | 0, none => True
  | levels + 1, some read => Reads read (Within levels)
  | _, _ => False

theorem PartsRead.exists_reads {levels : Nat}
    {read : Nat → List Char → Outcome Signature} (h : PartsRead levels (some read)) :
    ∃ l, levels = l + 1 ∧ Reads read (Within l) := by
  cases levels with
  | zero => exact h.elim
  | succ l => exact ⟨l, rfl, h⟩

theorem PartsRead.within_method {levels : Nat}
    {read : Option (Nat → List Char → Outcome Signature)} (h : PartsRead levels read)
    {args : List Signature} {result : Signature} (hw : (method args result).Within levels) :
    ∃ l r, read = some r ∧ Reads r (Within l) ∧ (∀ a ∈ args, a.Within l) ∧ result.Within l := by
  cases levels with
  | zero => exact absurd hw (not_within_zero_method args result)
  | succ l =>
    cases read with
    | none => exact h.elim
    | some r => exact ⟨l, r, rfl, h, within_succ_method_iff.mp hw⟩

theorem readPlain_sound {levels : Nat} {read : Option (Nat → List Char → Outcome Signature)}
    (h : PartsRead levels read) {pos next : Nat} {cs rest : List Char} {s : Signature}
    (hr : readPlain read pos cs = .ok (s, next, rest)) :
    (¬ s.IsArray ∧ s.Within levels) ∧ cs = s.letters ++ rest ∧ next = pos + s.letters.length := by
  rw [readPlain.eq_def] at hr
  split at hr
  · cases hr
  · rename_i c cs
    split at hr
    · rename_i type ht
      simp only [Except.ok.injEq, Prod.mk.injEq] at hr
      obtain ⟨rfl, rfl, rfl⟩ := hr
      rw [← Primitive.ofLetter?_eq_some_iff.mp ht]
      exact ⟨⟨id, within_base levels type⟩, rfl, rfl⟩
    · split at hr
      · rename_i hc
        obtain ⟨name, rfl, hi, rfl, rfl⟩ := readObject_eq_ok_iff.mp hr
        refine ⟨⟨id, within_object_iff.mpr hi⟩, ?_, ?_⟩
        · simp [letters, descriptorWithin, hc]
        · simp [letters, descriptorWithin, Nat.add_assoc]
      · split at hr
        · rename_i hc
          split at hr
          · cases hr
          · rename_i r
            obtain ⟨l, rfl, hread⟩ := h.exists_reads
            split at hr
            · cases hr
            · rename_i args after behind ha
              split at hr
              · cases hr
              · rename_i result last rest' hb
                simp only [Except.ok.injEq, Prod.mk.injEq] at hr
                obtain ⟨rfl, rfl, rfl⟩ := hr
                obtain ⟨hPs, rfl, rfl⟩ :=
                  (readArguments_eq_ok_iff hread pos (Nat.lt_succ_self _)).mp ha
                obtain ⟨hP, rfl, rfl⟩ := (hread _ _ _ _ _).mp hb
                refine ⟨⟨id, within_succ_method_iff.mpr ⟨hPs, hP⟩⟩, ?_, ?_⟩
                · rw [hc, letters_method]
                  simp
                · rw [letters_method]
                  simp only [List.length_cons, List.length_append]
                  omega
        · cases hr

theorem readPlain_complete {levels : Nat} {read : Option (Nat → List Char → Outcome Signature)}
    (h : PartsRead levels read) {s : Signature} (ha : ¬ s.IsArray) (hw : s.Within levels)
    (pos : Nat) (rest : List Char) :
    readPlain read pos (s.letters ++ rest) = .ok (s, pos + s.letters.length, rest) := by
  rw [readPlain.eq_def]
  cases s with
  | base type =>
    have ht : Primitive.ofLetter? type.letter = some type :=
      Primitive.ofLetter?_eq_some_iff.mpr rfl
    simp [letters, descriptorWithin, ht]
  | object name =>
    have hp : Primitive.ofLetter? 'L' = none := rfl
    have ho : readObject pos (name.toList ++ ';' :: rest) =
        .ok (object name, pos + name.toList.length + 2, rest) :=
      readObject_eq_ok_iff.mpr ⟨name, rfl, within_object_iff.mp hw, rfl, rfl⟩
    simp [letters, descriptorWithin, hp, ho, Nat.add_assoc]
  | array component => exact absurd trivial ha
  | method args result =>
    obtain ⟨l, r, rfl, hread, hPs, hP⟩ := h.within_method hw
    have hp : Primitive.ofLetter? '(' = none := rfl
    have hargs :
        readArguments r pos ((descriptors args ++ ')' :: (result.letters ++ rest)).length + 1)
          (pos + 1) (descriptors args ++ ')' :: (result.letters ++ rest)) =
          .ok (args, pos + 1 + (descriptors args).length + 1, result.letters ++ rest) :=
      (readArguments_eq_ok_iff hread pos (Nat.lt_succ_self _)).mpr ⟨hPs, rfl, rfl⟩
    have hresult := (hread (pos + 1 + (descriptors args).length + 1) _ result _ rest).mpr
      ⟨hP, rfl, rfl⟩
    have hlength : (method args result).letters.length =
        1 + (descriptors args).length + 1 + result.letters.length := by
      rw [letters_method]
      simp only [List.length_cons, List.length_append]
      omega
    have hl : (method args result).letters ++ rest =
        '(' :: (descriptors args ++ ')' :: (result.letters ++ rest)) := by
      rw [letters_method]
      simp
    rw [hl]
    simp only [hp, if_true, hargs, hresult]
    simp [hlength, Nat.add_assoc]

theorem reads_plain {levels : Nat} {read : Option (Nat → List Char → Outcome Signature)}
    (h : PartsRead levels read) :
    Reads (readPlain read) fun s => ¬ s.IsArray ∧ s.Within levels := by
  intro pos cs s next rest
  constructor
  · exact readPlain_sound h
  · rintro ⟨⟨ha, hw⟩, rfl, rfl⟩
    exact readPlain_complete h ha hw pos rest

theorem reads_type (levels : Nat) : Reads (readType levels) (Within levels) := by
  induction levels with
  | zero =>
    have hparts : PartsRead 0 none := trivial
    exact reads_dimensions (reads_plain hparts)
  | succ levels ih =>
    have hparts : PartsRead (levels + 1) (some (readType levels)) := ih
    exact reads_dimensions (reads_plain hparts)

theorem readAll_eq_ok_iff {cs : List Char} {s : Signature} :
    readAll cs = .ok s ↔ s.Within maxNesting ∧ cs = s.letters := by
  rw [readAll]
  cases cs with
  | nil =>
    obtain ⟨c, ds, hc, -⟩ := s.letters_eq_cons
    simp [hc]
  | cons c cs =>
    simp only [List.isEmpty_cons, Bool.false_eq_true, if_false]
    constructor
    · intro h
      split at h
      · cases h
      · rename_i t pos rest ht
        split at h
        · rename_i he
          obtain rfl := Except.ok.inj h
          obtain ⟨hw, hcs, -⟩ := (reads_type maxNesting _ _ _ _ _).mp ht
          rw [List.isEmpty_iff.mp he, List.append_nil] at hcs
          exact ⟨hw, hcs⟩
        · cases h
    · rintro ⟨hw, hcs⟩
      have ht := (reads_type maxNesting 0 (c :: cs) s _ []).mpr
        ⟨hw, by rw [hcs, List.append_nil], rfl⟩
      rw [ht]
      rfl

end Descriptor

namespace Signature

theorem ofDescriptor_eq_ok_iff {text : String} {s : Signature} :
    ofDescriptor text = .ok s ↔ s.descriptor = text ∧ s.Within Descriptor.maxNesting := by
  have hread : ofDescriptor text = .ok s ↔ Descriptor.readAll text.toList = .ok s := by
    rw [ofDescriptor]
    cases Descriptor.readAll text.toList <;> simp
  have htext : s.descriptor = text ↔ text.toList = s.letters := by
    rw [descriptor, ← String.toList_inj, String.toList_ofList, eq_comm]
  rw [hread, Descriptor.readAll_eq_ok_iff, htext, and_comm]

/-- Reading inverts writing on both sides: a text is read as a type exactly if it is the descriptor
of the type and the type is within the limits. So no two types within them share a descriptor. -/
theorem ofDescriptor_inverts_descriptor :
    (∀ (text : String) (s : Signature), ofDescriptor text = .ok s ↔
      s.descriptor = text ∧ s.Within Descriptor.maxNesting) ∧
    ∀ s t : Signature, s.Within Descriptor.maxNesting → t.Within Descriptor.maxNesting →
      s.descriptor = t.descriptor → s = t := by
  refine ⟨fun text s => ofDescriptor_eq_ok_iff, fun s t hs ht he => ?_⟩
  have hs' := ofDescriptor_eq_ok_iff.mpr ⟨rfl, hs⟩
  rw [he, ofDescriptor_eq_ok_iff.mpr ⟨rfl, ht⟩] at hs'
  exact (Except.ok.inj hs').symm

def nested : Signature :=
  .method [(base .int).wrap 2, .method [base .boolean] (base .void)] (object "a/B")

theorem ofDescriptor_nested :
    (nested.descriptor = "([[I(Z)V)La/B;" ∧ ofDescriptor "([[I(Z)V)La/B;" = .ok nested) ∧
    nested.Within Descriptor.maxNesting ∧ ((base .int).wrap 2).Within Descriptor.maxNesting ∧
      (base .int).wrap 2 = array (array (base .int)) := by
  have hd : nested.descriptor = "([[I(Z)V)La/B;" := by decide
  have hn : nested.Within Descriptor.maxNesting := ⟨by decide, by decide, by decide⟩
  have ha : ((base .int).wrap 2).Within Descriptor.maxNesting := ⟨rfl, rfl, by decide⟩
  exact ⟨⟨hd, (ofDescriptor_inverts_descriptor.1 _ nested).mpr ⟨hd, hn⟩⟩, hn, ha,
    ofDescriptor_inverts_descriptor.2 _ (array (array (base .int))) ha ha rfl⟩

end Signature

end ClassAtlas
