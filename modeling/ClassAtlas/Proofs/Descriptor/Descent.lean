import ClassAtlas.Proofs.Descriptor.Inverse

/-! Reading descriptors by recursive descent, where a type, a class reference or a method takes room
for one call as long as it is being read. The limit on how deep methods nest bounds the room that is
ever taken. -/

namespace ClassAtlas

namespace Descriptor

/-- Where a reader stands: the place, the characters from there on and the number of methods around
it. -/
structure Scan where
  pos : Nat
  rest : List Char
  depth : Nat

/-- A value or a failure, or neither if the room did not suffice. -/
abbrev Attempt := ExceptT Failure Option

def noRoom {α : Type} : Attempt α :=
  ExceptT.mk none

/-- The arguments of a method one by one, up to the closing bracket. The loop takes no room;
`rounds` bounds how often it goes around. -/
def takeArguments (argument : Scan → Attempt (Signature × Scan)) (opening : Nat) :
    (rounds : Nat) → Scan → Attempt (List Signature × Scan)
  | 0, _ => noRoom
  | rounds + 1, s =>
    match s.rest with
    | [] => throw (opening, .unterminatedArguments)
    | c :: rest =>
      if c = ')' then return ([], ⟨s.pos + 1, rest, s.depth⟩)
      else do
        let (arg, s) ← argument s
        let (args, s) ← takeArguments argument opening rounds s
        return (arg :: args, s)

def enterObject : (room : Nat) → Scan → Attempt (Signature × Scan)
  | 0, _ => noRoom
  | _ + 1, s =>
    match readObject s.pos s.rest.tail with
    | .ok (type, next, rest) => return (type, ⟨next, rest, s.depth⟩)
    | .error e => throw e

mutual

/-- A type. All array dimensions in front of it are taken at once, and what follows them is entered
anew. -/
def enterType : (room : Nat) → Scan → Attempt (Signature × Scan)
  | 0, _ => noRoom
  | room + 1, s =>
    match s.rest with
    | [] => throw (s.pos, .unexpectedEnd)
    | c :: cs =>
      let (dimensions, rest) := takeBrackets s.rest
      if maxDimensions < dimensions then throw (s.pos, .tooManyDimensions dimensions)
      else if 0 < dimensions then do
        let (type, s) ← enterType room ⟨s.pos + dimensions, rest, s.depth⟩
        return (type.wrap dimensions, s)
      else
        match Primitive.ofLetter? c with
        | some type => return (.base type, ⟨s.pos + 1, cs, s.depth⟩)
        | none =>
          if c = 'L' then enterObject room s
          else if c = '(' then enterMethod room s
          else throw (s.pos, .unexpectedCharacter c)

/-- A method. Its result stands behind the closing bracket, but is read within the method. -/
def enterMethod : (room : Nat) → Scan → Attempt (Signature × Scan)
  | 0, _ => noRoom
  | room + 1, s =>
    if maxNesting ≤ s.depth then throw (s.pos, .nestedTooDeeply)
    else do
      let (args, t) ← takeArguments (enterType room) s.pos s.rest.length
        ⟨s.pos + 1, s.rest.tail, s.depth + 1⟩
      let (result, t) ← enterType room t
      return (.method args result, { t with depth := t.depth - 1 })

end

/-- The whole text has to be one descriptor. -/
def enterAll (room : Nat) (cs : List Char) : Attempt Signature :=
  if cs.isEmpty then throw (0, .empty)
  else do
    let (type, s) ← enterType room ⟨0, cs, 0⟩
    if s.rest.isEmpty then return type else throw (s.pos, .trailing s.rest)

/-- An outcome as that of a reader with `depth` methods around it. -/
def finished {α : Type} (depth : Nat) : Outcome α → Attempt (α × Scan)
  | .ok (a, pos, rest) => return (a, ⟨pos, rest, depth⟩)
  | .error e => throw e

variable {α β : Type} {levels room depth : Nat}

theorem finished_bind (x : Outcome α) (f : α × Scan → Attempt β) :
    finished depth x >>= f = match x with
      | .ok (a, pos, rest) => f (a, ⟨pos, rest, depth⟩)
      | .error e => throw e := by
  rcases x with e | ⟨a, pos, rest⟩ <;> rfl

theorem takeArguments_eq {argument : Scan → Attempt (Signature × Scan)}
    {read : Nat → List Char → Outcome Signature} {P : Signature → Prop} (hreads : Reads read P)
    (hargument : ∀ pos cs, argument ⟨pos, cs, depth⟩ = finished depth (read pos cs))
    (opening : Nat) {rounds pos : Nat} {cs : List Char} (h : cs.length < rounds) :
    takeArguments argument opening rounds ⟨pos, cs, depth⟩ =
      finished depth (readArguments read opening rounds pos cs) := by
  induction rounds generalizing pos cs with
  | zero => omega
  | succ rounds ih =>
    cases cs with
    | nil => rfl
    | cons c cs =>
      by_cases hclose : c = ')'
      · subst hclose
        rfl
      · rw [readArguments_cons hclose, takeArguments]
        simp only [if_neg hclose, hargument, finished_bind]
        cases hread : read pos (c :: cs) with
        | error e => rfl
        | ok r =>
          obtain ⟨arg, next, rest⟩ := r
          -- An argument takes a character at least, so the rounds last for those behind it.
          obtain ⟨-, hcs, -⟩ := (hreads _ _ _ _ _).mp hread
          have hlt : rest.length < rounds := length_lt_of_letters arg (hcs ▸ h)
          simp only [ih hlt, finished_bind]
          cases readArguments read opening rounds next rest <;> rfl

/-- How the parts of a method are read where methods may nest `levels` deep. -/
def partsReader : (levels : Nat) → Option (Nat → List Char → Outcome Signature)
  | 0 => none
  | levels + 1 => some (readType levels)

theorem readType_eq (levels : Nat) :
    readType levels = readDimensions (readPlain (partsReader levels)) := by
  cases levels <;> rfl

/-- With room for three at each level of methods that is left, and for three more, a type is read by
descent as it is read without counting. The reader knows the levels it has used, and so those that
are left. -/
def RoomSuffices (levels : Nat) : Prop :=
  ∀ room, 3 * levels + 3 ≤ room → ∀ pos cs depth, depth + levels = maxNesting →
    enterType room ⟨pos, cs, depth⟩ = finished depth (readType levels pos cs)

theorem enterType_opening (room pos depth : Nat) (cs : List Char) :
    enterType (room + 1) ⟨pos, '(' :: cs, depth⟩ = enterMethod room ⟨pos, '(' :: cs, depth⟩ := by
  have hbrackets : takeBrackets ('(' :: cs) = (0, '(' :: cs) := rfl
  have hletter : Primitive.ofLetter? '(' = none := rfl
  rw [enterType]
  simp [hbrackets, hletter]

theorem enterType_brackets {dimensions : Nat} {cs rest : List Char}
    (h : takeBrackets cs = (dimensions + 1, rest)) (room pos depth : Nat) :
    enterType (room + 1) ⟨pos, cs, depth⟩ =
      if maxDimensions < dimensions + 1 then throw (pos, .tooManyDimensions (dimensions + 1))
      else do
        let (type, s) ← enterType room ⟨pos + (dimensions + 1), rest, depth⟩
        return (type.wrap (dimensions + 1), s) := by
  cases cs with
  | nil => simp [takeBrackets] at h
  | cons c cs => simp [enterType, h]

theorem enterObject_eq (room pos depth : Nat) (c : Char) (cs : List Char) :
    enterObject (room + 1) ⟨pos, c :: cs, depth⟩ = finished depth (readObject pos cs) := by
  rw [enterObject]
  dsimp only [List.tail_cons]
  rcases readObject pos cs with e | ⟨type, next, rest⟩ <;> rfl

theorem enterMethod_eq (ih : ∀ l < levels, RoomSuffices l) (hroom : 3 * levels + 1 ≤ room)
    (hdepth : depth + levels = maxNesting) (pos : Nat) (cs : List Char) :
    enterMethod room ⟨pos, '(' :: cs, depth⟩ =
      finished depth (readPlain (partsReader levels) pos ('(' :: cs)) := by
  have hletter : Primitive.ofLetter? '(' = none := rfl
  obtain ⟨room, rfl⟩ : ∃ r, room = r + 1 := ⟨room - 1, by omega⟩
  rw [enterMethod, readPlain.eq_def]
  simp only [hletter, if_neg (show '(' ≠ 'L' by decide), if_true, List.length_cons, List.tail_cons]
  cases levels with
  | zero =>
    rw [if_pos (by omega)]
    rfl
  | succ l =>
    have hinner : ∀ pos cs, enterType room ⟨pos, cs, depth + 1⟩ =
        finished (depth + 1) (readType l pos cs) :=
      fun pos cs => ih l (Nat.lt_succ_self l) room (by omega) pos cs (depth + 1) (by omega)
    rw [if_neg (by omega), takeArguments_eq (reads_type l) hinner pos (Nat.lt_succ_self _)]
    simp only [partsReader, finished_bind]
    rcases readArguments (readType l) pos (cs.length + 1) (pos + 1) cs with e | ⟨args, next, rest⟩
    · rfl
    · simp only [hinner, finished_bind]
      rcases readType l next rest with e | ⟨result, last, rest⟩ <;> rfl

theorem enterType_plain (ih : ∀ l < levels, RoomSuffices l) (hroom : 3 * levels + 2 ≤ room)
    (hdepth : depth + levels = maxNesting) (pos : Nat) {cs : List Char}
    (hcs : cs.head? ≠ some '[') :
    enterType room ⟨pos, cs, depth⟩ = finished depth (readPlain (partsReader levels) pos cs) := by
  obtain ⟨room, rfl⟩ : ∃ r, room = r + 1 + 1 := ⟨room - 2, by omega⟩
  cases cs with
  | nil => rfl
  | cons c cs =>
    have hbrackets : takeBrackets (c :: cs) = (0, c :: cs) := takeBrackets_eq_iff.mpr ⟨rfl, hcs⟩
    by_cases hmethod : c = '('
    · subst hmethod
      rw [enterType_opening]
      exact enterMethod_eq ih (by omega) hdepth pos cs
    · rw [enterType, readPlain.eq_def]
      simp only [hbrackets, Nat.not_lt_zero, if_false, if_neg hmethod]
      cases Primitive.ofLetter? c with
      | some type => rfl
      | none =>
        by_cases hobject : c = 'L'
        · simp only [if_pos hobject]
          exact enterObject_eq room pos depth c cs
        · simp only [if_neg hobject]
          rfl

theorem roomSuffices (levels : Nat) : RoomSuffices levels := by
  induction levels using Nat.strong_induction_on with
  | _ levels ih =>
    intro room hroom pos cs depth hdepth
    obtain ⟨dimensions, rest, hbrackets⟩ :
      ∃ dimensions rest, takeBrackets cs = (dimensions, rest) :=
      ⟨_, _, rfl⟩
    obtain ⟨hcs, hrest⟩ := takeBrackets_eq_iff.mp hbrackets
    have hplain : ∀ room pos, 3 * levels + 2 ≤ room → enterType room ⟨pos, rest, depth⟩ =
        finished depth (readPlain (partsReader levels) pos rest) :=
      fun room pos hroom => enterType_plain ih hroom hdepth pos hrest
    rw [readType_eq, readDimensions, hbrackets]
    dsimp only
    cases dimensions with
    | zero =>
      obtain rfl : cs = rest := hcs
      rw [hplain room pos (by omega), if_neg (Nat.not_lt_zero _), Nat.add_zero]
      rcases readPlain (partsReader levels) pos cs with e | ⟨type, next, rest⟩ <;> rfl
    | succ dimensions =>
      -- The array takes one call more than the type inside it, which starts with no bracket.
      obtain ⟨room, rfl⟩ : ∃ r, room = r + 1 := ⟨room - 1, by omega⟩
      rw [enterType_brackets hbrackets]
      by_cases hmany : maxDimensions < dimensions + 1
      · rw [if_pos hmany, if_pos hmany]
        rfl
      · rw [if_neg hmany, if_neg hmany, hplain room _ (by omega), finished_bind]
        rcases readPlain (partsReader levels) _ rest with e | ⟨type, next, rest⟩ <;> rfl

theorem enterAll_eq (cs : List Char) (extra : Nat) :
    enterAll (3 * maxNesting + 3 + extra) cs = ExceptT.mk (some (readAll cs)) := by
  have hroom : 3 * maxNesting + 3 ≤ 3 * maxNesting + 3 + extra := Nat.le_add_right _ _
  have htype := roomSuffices maxNesting _ hroom 0 cs 0 (Nat.zero_add maxNesting)
  rw [enterAll, readAll, htype, finished_bind]
  by_cases hempty : cs.isEmpty = true
  · rw [if_pos hempty, if_pos hempty]
    rfl
  · rw [if_neg hempty, if_neg hempty]
    rcases readType maxNesting 0 cs with e | ⟨type, next, rest⟩
    · rfl
    · dsimp only
      split <;> rfl

/-- So many methods and arrays by turns, and a class reference inside them. -/
def turns : (levels : Nat) → List Char
  | 0 => ['[', 'L']
  | levels + 1 => '[' :: '(' :: turns levels

theorem exists_turns_eq_cons (levels : Nat) : ∃ cs, turns levels = '[' :: cs := by
  cases levels <;> exact ⟨_, rfl⟩

theorem noRoom_bind (f : α → Attempt β) : noRoom >>= f = noRoom := rfl

/-- Entering the methods and arrays of `turns` takes all the room there may be, so that none is left
for the class reference. -/
theorem enterType_turns (levels pos depth : Nat) (h : depth + levels = maxNesting) :
    enterType (3 * levels + 2) ⟨pos, turns levels, depth⟩ = noRoom := by
  induction levels generalizing pos depth with
  | zero => rfl
  | succ levels ih =>
    obtain ⟨cs, hcs⟩ := exists_turns_eq_cons levels
    -- Three calls lead from one level to the next: the array, the type inside it and the method.
    have hroom : 3 * (levels + 1) + 2 = 3 * levels + 2 + 1 + 1 + 1 := by omega
    have hbrackets : takeBrackets (turns (levels + 1)) = (0 + 1, '(' :: turns levels) := rfl
    have hmany : ¬ maxDimensions < 0 + 1 := by decide
    have hdepth : ¬ maxNesting ≤ depth := by omega
    have hargument := ih (pos + 1 + 1) (depth + 1) (by omega)
    have harguments :
        takeArguments (enterType (3 * levels + 2)) (pos + 1) ('(' :: turns levels).length
          ⟨pos + 1 + 1, turns levels, depth + 1⟩ = noRoom := by
      rw [hcs] at hargument ⊢
      rw [List.length_cons, takeArguments]
      dsimp only
      rw [if_neg (by decide), hargument, noRoom_bind]
    rw [hroom, enterType_brackets hbrackets, if_neg hmany, enterType_opening, enterMethod,
      if_neg hdepth]
    dsimp only [List.tail_cons]
    rw [harguments, noRoom_bind, noRoom_bind]

end Descriptor

namespace Signature

/-- Reading a descriptor with `room` for types, class references and methods within one another. -/
def ofDescriptorWithin (room : Nat) (text : String) : Option (Except GrammarError Signature) :=
  (Descriptor.enterAll room text.toList).run.map
    (Except.mapError fun (position, fault) => ⟨text, position, fault⟩)

/-- With room for three calls at each level of methods and for three more, or with more room than
that, every text is read to its type or to an error of the grammar, and never runs out of room. One
call less is too few for some text. -/
theorem ofDescriptorWithin_suffices :
    (∀ (text : String) (extra : Nat),
      ofDescriptorWithin (3 * Descriptor.maxNesting + 3 + extra) text = some (ofDescriptor text)) ∧
    ∃ text, ofDescriptorWithin (3 * Descriptor.maxNesting + 2) text = none := by
  refine ⟨fun text extra => ?_, String.ofList (Descriptor.turns Descriptor.maxNesting), ?_⟩
  · rw [ofDescriptorWithin, Descriptor.enterAll_eq, ofDescriptor]
    rcases Descriptor.readAll text.toList with ⟨position, fault⟩ | type <;> rfl
  · obtain ⟨cs, hcs⟩ := Descriptor.exists_turns_eq_cons Descriptor.maxNesting
    have hturns := Descriptor.enterType_turns Descriptor.maxNesting 0 0 (Nat.zero_add _)
    have hempty : ¬ (Descriptor.turns Descriptor.maxNesting).isEmpty = true := by
      rw [hcs]
      simp
    rw [ofDescriptorWithin, String.toList_ofList, Descriptor.enterAll, if_neg hempty, hturns,
      Descriptor.noRoom_bind]
    rfl

end Signature

end ClassAtlas
