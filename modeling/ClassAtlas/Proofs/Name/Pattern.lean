import ClassAtlas.Proofs.Descriptor.Inverse
import ClassAtlas.Proofs.FileSystem.Places
import Mathlib.Computability.Language

/-! Patterns that are matched in place, between two positions of a text. What they match depends
only on the characters between the positions, and names, written as patterns, are the texts whose
pieces are identifiers. -/

namespace ClassAtlas

open scoped Computability

theorem slice_eq_take_drop (text : List Char) (start stop : Nat) :
    slice text start stop = (text.drop start).take (stop - start) :=
  List.drop_take

theorem length_slice {text : List Char} {start stop : Nat} (h : stop ≤ text.length) :
    (slice text start stop).length = stop - start := by
  rw [slice_eq_take_drop, List.length_take, List.length_drop]
  omega

theorem slice_append {text : List Char} {start mid stop : Nat} (hmid : start ≤ mid)
    (hstop : mid ≤ stop) : slice text start mid ++ slice text mid stop = slice text start stop := by
  have hlength : stop - start = (mid - start) + (stop - mid) := by omega
  have hdrop : text.drop mid = (text.drop start).drop (mid - start) := by
    rw [List.drop_drop]
    congr 1
    omega
  simp only [slice_eq_take_drop]
  rw [hlength, List.take_add, hdrop]

theorem slice_succ {text : List Char} {i : Nat} {c : Char} (h : text[i]? = some c) :
    slice text i (i + 1) = [c] := by
  rw [slice_eq_take_drop, Nat.add_sub_cancel_left, List.take_one, List.head?_drop, h]
  rfl

/-- Where a slice falls into two parts, the text between the ends does too. -/
theorem exists_mid_of_slice {text front back : List Char} {start stop : Nat} (hle : start ≤ stop)
    (hstop : stop ≤ text.length) (h : front ++ back = slice text start stop) :
    ∃ mid, start ≤ mid ∧ mid ≤ stop ∧ slice text start mid = front ∧
      slice text mid stop = back := by
  have hlength := congrArg List.length h
  rw [List.length_append, length_slice hstop] at hlength
  have hmid : start ≤ start + front.length := by omega
  have hle' : start + front.length ≤ stop := by omega
  have hparts : front ++ back =
      slice text start (start + front.length) ++ slice text (start + front.length) stop :=
    h.trans (slice_append hmid hle').symm
  have hfront : front.length = (slice text start (start + front.length)).length := by
    rw [length_slice (by omega), Nat.add_sub_cancel_left]
  obtain ⟨hfirst, hsecond⟩ := List.append_inj hparts hfront
  exact ⟨_, hmid, hle', hfirst.symm, hsecond.symm⟩

/-- Expressions over classes of characters. -/
inductive Pattern where
  | one (cls : Char → Bool)
  | either (p q : Pattern)
  | seq (p q : Pattern)
  | star (p : Pattern)

namespace Pattern

/-- A match in place, from the first position up to the second one. -/
inductive Spans (text : List Char) : Pattern → Nat → Nat → Prop
  | one {cls : Char → Bool} {c : Char} {i : Nat} (hc : text[i]? = some c) (hcls : cls c = true) :
      Spans text (one cls) i (i + 1)
  | left {p q : Pattern} {i j : Nat} (h : Spans text p i j) : Spans text (either p q) i j
  | right {p q : Pattern} {i j : Nat} (h : Spans text q i j) : Spans text (either p q) i j
  | seq {p q : Pattern} {i j k : Nat} (hp : Spans text p i j) (hq : Spans text q j k) :
      Spans text (seq p q) i k
  | done {p : Pattern} {i : Nat} : Spans text (star p) i i
  | more {p : Pattern} {i j k : Nat} (hp : Spans text p i j) (hrest : Spans text (star p) j k) :
      Spans text (star p) i k

/-- The texts that a pattern matches as a whole. -/
def language : Pattern → Language Char
  | one cls => {word | ∃ c, cls c = true ∧ word = [c]}
  | either p q => language p + language q
  | seq p q => language p * language q
  | star p => (language p)∗

theorem mem_one {cls : Char → Bool} {word : List Char} :
    word ∈ (one cls).language ↔ ∃ c, cls c = true ∧ word = [c] := Iff.rfl

theorem mem_either {p q : Pattern} {word : List Char} :
    word ∈ (either p q).language ↔ word ∈ p.language ∨ word ∈ q.language := Iff.rfl

theorem mem_seq {p q : Pattern} {word : List Char} :
    word ∈ (seq p q).language ↔ ∃ a ∈ p.language, ∃ b ∈ q.language, a ++ b = word :=
  Language.mem_mul

theorem mem_star {p : Pattern} {word : List Char} :
    word ∈ (star p).language ↔ ∃ parts : List (List Char), word = parts.flatten ∧
      ∀ part ∈ parts, part ∈ p.language :=
  Language.mem_kstar

variable {text : List Char} {p : Pattern} {start stop : Nat}

theorem Spans.mem_language (h : p.Spans text start stop) :
    start ≤ stop ∧ slice text start stop ∈ p.language := by
  induction h with
  | one hc hcls => exact ⟨Nat.le_succ _, mem_one.mpr ⟨_, hcls, slice_succ hc⟩⟩
  | left _ ih => exact ⟨ih.1, mem_either.mpr (.inl ih.2)⟩
  | right _ ih => exact ⟨ih.1, mem_either.mpr (.inr ih.2)⟩
  | seq _ _ ihp ihq =>
    exact ⟨ihp.1.trans ihq.1, mem_seq.mpr ⟨_, ihp.2, _, ihq.2, slice_append ihp.1 ihq.1⟩⟩
  | @done p i =>
    have hnil : slice text i i = [] := by simp [slice_eq_take_drop]
    exact ⟨le_refl i, mem_star.mpr ⟨[], hnil, by simp⟩⟩
  | @more p i j k _ _ ihp ihrest =>
    obtain ⟨parts, hparts, hall⟩ := mem_star.mp ihrest.2
    refine ⟨ihp.1.trans ihrest.1, mem_star.mpr ⟨slice text i j :: parts, ?_, ?_⟩⟩
    · rw [List.flatten_cons, ← hparts, slice_append ihp.1 ihrest.1]
    · exact List.forall_mem_cons.mpr ⟨ihp.2, hall⟩

theorem spans_of_mem_language (hle : start ≤ stop) (hstop : stop ≤ text.length)
    (h : slice text start stop ∈ p.language) : p.Spans text start stop := by
  induction p generalizing start stop with
  | one cls =>
    obtain ⟨c, hcls, hword⟩ := mem_one.mp h
    have hlength := congrArg List.length hword
    rw [length_slice hstop, List.length_singleton] at hlength
    have hnext : stop = start + 1 := by omega
    have hc : text[start]? = some c := by
      have hhead := congrArg List.head? hword
      rwa [slice_eq_take_drop, List.head?_take, if_neg (by omega), List.head?_drop] at hhead
    subst hnext
    exact .one hc hcls
  | either p q ihp ihq =>
    rcases mem_either.mp h with h | h
    · exact .left (ihp hle hstop h)
    · exact .right (ihq hle hstop h)
  | seq p q ihp ihq =>
    obtain ⟨a, ha, b, hb, hab⟩ := mem_seq.mp h
    obtain ⟨mid, hmid, hle', rfl, rfl⟩ := exists_mid_of_slice hle hstop hab
    exact .seq (ihp hmid (by omega) ha) (ihq hle' hstop hb)
  | star p ih =>
    obtain ⟨parts, hparts, hall⟩ := mem_star.mp h
    -- The parts lie one behind the other from the first position on.
    induction parts generalizing start with
    | nil =>
      have hlength := congrArg List.length hparts
      rw [length_slice hstop, List.flatten_nil, List.length_nil] at hlength
      have hend : stop = start := by omega
      subst hend
      exact .done
    | cons part parts ihparts =>
      obtain ⟨hpart, hrest⟩ := List.forall_mem_cons.mp hall
      rw [List.flatten_cons] at hparts
      obtain ⟨mid, hmid, hle', rfl, htail⟩ := exists_mid_of_slice hle hstop hparts.symm
      have hmem : slice text mid stop ∈ (star p).language := mem_star.mpr ⟨parts, htail, hrest⟩
      exact .more (ih hmid (by omega) hpart) (ihparts hle' hmem htail hrest)

/-- A match in place is a match of the text between the positions. -/
theorem spans_iff (hle : start ≤ stop) (hstop : stop ≤ text.length) :
    p.Spans text start stop ↔ slice text start stop ∈ p.language :=
  ⟨fun h => h.mem_language.2, spans_of_mem_language hle hstop⟩

/-- Words with a separator between each two of them. -/
def separated (sep : Char → Bool) (word : Pattern) : Pattern :=
  seq word (star (seq (one sep) word))

/-- A letter that is no digit, or a dollar sign; then letters, digits and dollar signs. -/
def identifier : Pattern :=
  seq (either (one fun c => !(!isWordChar c || isDigitChar c)) (one fun c => c == '$'))
    (star (one fun c => isWordChar c || c == '$'))

def internalName : Pattern :=
  separated (fun c => c == '/') identifier

def qualifiedName : Pattern :=
  separated (fun c => c == '/' || c == '.') identifier

/-- A text is its first piece, then each further one behind a separator. -/
theorem exists_pieces {α : Type} (sep : α → Bool) (text : List α) :
    ∃ (first : List α) (rest : List (α × List α)), pieces sep text = first :: rest.map Prod.snd ∧
      text = first ++ (rest.map fun r => r.1 :: r.2).flatten ∧ ∀ r ∈ rest, sep r.1 = true := by
  induction text with
  | nil => exact ⟨[], [], rfl, rfl, by simp⟩
  | cons c text ih =>
    obtain ⟨first, rest, hpieces, htext, hsep⟩ := ih
    by_cases hc : sep c = true
    · refine ⟨[], (c, first) :: rest, by simp [pieces, hc, hpieces], ?_, ?_⟩
      · simp [← htext]
      · exact List.forall_mem_cons.mpr ⟨hc, hsep⟩
    · exact ⟨c :: first, rest, by simp [pieces, hc, hpieces], by simp [← htext], hsep⟩

theorem mem_separated_iff {sep : Char → Bool} {word : Pattern}
    (hword : ∀ w ∈ word.language, ∀ c ∈ w, sep c = false) :
    text ∈ (separated sep word).language ↔ ∀ piece ∈ pieces sep text, piece ∈ word.language := by
  constructor
  · intro h
    obtain ⟨first, hfirst, tail, htail, rfl⟩ := mem_seq.mp h
    obtain ⟨parts, rfl, hparts⟩ := mem_star.mp htail
    clear h htail
    induction parts generalizing first with
    | nil =>
      rw [List.flatten_nil, List.append_nil, pieces_eq_splitOnP,
        List.splitOnP_eq_singleton (hword first hfirst)]
      simpa using hfirst
    | cons part parts ih =>
      obtain ⟨hpart, hrest⟩ := List.forall_mem_cons.mp hparts
      obtain ⟨mark, hmark, next, hnext, rfl⟩ := mem_seq.mp hpart
      obtain ⟨c, hc, rfl⟩ := mem_one.mp hmark
      have htext :
          first ++ (([c] ++ next) :: parts).flatten = first ++ c :: (next ++ parts.flatten) := by
        simp
      rw [htext, pieces_eq_splitOnP,
        List.splitOnP_append_cons_of_forall_mem (hword first hfirst) c hc,
        ← pieces_eq_splitOnP]
      exact List.forall_mem_cons.mpr ⟨hfirst, ih next hnext hrest⟩
  · intro h
    obtain ⟨first, rest, hpieces, htext, hsep⟩ := exists_pieces sep text
    rw [hpieces] at h
    obtain ⟨hfirst, hrest⟩ := List.forall_mem_cons.mp h
    refine mem_seq.mpr ⟨first, hfirst, _, mem_star.mpr ⟨_, rfl, ?_⟩, htext.symm⟩
    intro part hpart
    obtain ⟨r, hr, rfl⟩ := List.mem_map.mp hpart
    have hmark : [r.1] ∈ (one sep).language := mem_one.mpr ⟨r.1, hsep r hr, rfl⟩
    exact mem_seq.mpr ⟨[r.1], hmark, r.2, hrest _ (List.mem_map_of_mem hr), rfl⟩

theorem mem_star_one {cls : Char → Bool} {word : List Char} :
    word ∈ (star (one cls)).language ↔ word.all cls = true := by
  rw [mem_star, List.all_eq_true]
  constructor
  · rintro ⟨parts, rfl, hparts⟩ c hc
    obtain ⟨part, hpart, hmem⟩ := List.mem_flatten.mp hc
    obtain ⟨d, hd, rfl⟩ := mem_one.mp (hparts part hpart)
    rwa [List.mem_singleton.mp hmem]
  · intro h
    refine ⟨word.map fun c => [c], (List.flatMap_singleton' word).symm, fun part hpart => ?_⟩
    obtain ⟨c, hc, rfl⟩ := List.mem_map.mp hpart
    exact mem_one.mpr ⟨c, h c hc, rfl⟩

theorem mem_identifier_iff {word : List Char} :
    word ∈ identifier.language ↔ isIdentifier word = true := by
  have hstart (c : Char) : isIdentifierStart c = true ↔
      (!(!isWordChar c || isDigitChar c)) = true ∨ (c == '$') = true := by
    rw [isIdentifierStart, Bool.not_or, Bool.not_not, Bool.or_eq_true, or_comm]
  have hpart : (fun c => isWordChar c || c == '$') = isIdentifierPart :=
    funext fun c => Bool.or_comm _ _
  rw [identifier, mem_seq]
  constructor
  · rintro ⟨a, ha, b, hb, rfl⟩
    rw [mem_star_one, hpart] at hb
    obtain ⟨c, hc, rfl⟩ : ∃ c, isIdentifierStart c = true ∧ a = [c] := by
      rcases mem_either.mp ha with ha | ha
      · obtain ⟨c, hc, ha⟩ := mem_one.mp ha
        exact ⟨c, (hstart c).mpr (.inl hc), ha⟩
      · obtain ⟨c, hc, ha⟩ := mem_one.mp ha
        exact ⟨c, (hstart c).mpr (.inr hc), ha⟩
    simp [isIdentifier, hc, hb]
  · intro h
    cases word with
    | nil => simp [isIdentifier] at h
    | cons c cs =>
      rw [isIdentifier, Bool.and_eq_true] at h
      refine ⟨[c], ?_, cs, by rw [mem_star_one, hpart]; exact h.2, rfl⟩
      rcases (hstart c).mp h.1 with hc | hc
      · exact mem_either.mpr (.inl (mem_one.mpr ⟨c, hc, rfl⟩))
      · exact mem_either.mpr (.inr (mem_one.mpr ⟨c, hc, rfl⟩))

theorem not_sep_of_mem_identifier {word : List Char} (h : word ∈ identifier.language) :
    ∀ c ∈ word, isNameSeparator c = false := by
  intro c hc
  have hpart := isIdentifierPart_of_mem (mem_identifier_iff.mp h) hc
  by_contra hsep
  rw [Bool.not_eq_false, isNameSeparator, Bool.or_eq_true, beq_iff_eq, beq_iff_eq] at hsep
  rcases hsep with rfl | rfl
  · exact absurd hpart (by decide)
  · exact absurd hpart (by decide)

theorem mem_qualifiedName_iff {word : List Char} :
    word ∈ qualifiedName.language ↔ isQualifiedName word = true := by
  have hmem : word ∈ qualifiedName.language ↔
      ∀ piece ∈ pieces isNameSeparator word, piece ∈ identifier.language :=
    mem_separated_iff fun w hw => not_sep_of_mem_identifier hw
  simp only [hmem, mem_identifier_iff, isQualifiedName, List.all_eq_true]

theorem mem_internalName_iff {word : List Char} :
    word ∈ internalName.language ↔ isInternalName word = true := by
  have hmem : word ∈ internalName.language ↔
      ∀ piece ∈ pieces isSlash word, piece ∈ identifier.language := by
    refine mem_separated_iff fun w hw c hc => ?_
    have hsep := not_sep_of_mem_identifier hw c hc
    rw [isNameSeparator, Bool.or_eq_false_iff] at hsep
    exact hsep.1
  simp only [hmem, mem_identifier_iff, isInternalName, List.all_eq_true]

end Pattern

end ClassAtlas
