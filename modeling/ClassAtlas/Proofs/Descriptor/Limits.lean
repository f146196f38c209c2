import ClassAtlas.Descriptor
import Mathlib.Tactic

/-! Which types have a descriptor that can be read back: object names are paths of identifiers, runs
of array dimensions are short, and methods do not nest deeply. -/

namespace ClassAtlas.Signature

mutual

/-- Whether the type and every type inside it satisfy `p`. -/
def every (p : Signature → Bool) : Signature → Bool
  | base type => p (base type)
  | object name => p (object name)
  | array component => p (array component) && every p component
  | method args result => p (method args result) && everyIn p args && every p result

def everyIn (p : Signature → Bool) : List Signature → Bool
  | [] => true
  | arg :: args => every p arg && everyIn p args

end

mutual

/-- How deep methods nest, through arguments, results and arrays. -/
def nesting : Signature → Nat
  | base _ => 0
  | object _ => 0
  | array component => nesting component
  | method args result => max (nestingIn args) (nesting result) + 1

def nestingIn : List Signature → Nat
  | [] => 0
  | arg :: args => max (nesting arg) (nestingIn args)

end

def isNamed : Signature → Bool
  | object name => isInternalName name.toList
  | _ => true

/-- The run of dimensions that starts with the type is short enough. -/
def hasShortRun (s : Signature) : Bool :=
  s.unwrap.1 ≤ Descriptor.maxDimensions

/-- The limits of descriptors, where methods may nest `levels` deep. -/
structure Within (levels : Nat) (s : Signature) : Prop where
  named : s.every isNamed = true
  shortRuns : s.every hasShortRun = true
  nesting_le : s.nesting ≤ levels

def IsArray : Signature → Prop
  | array _ => True
  | _ => False

theorem everyIn_iff {p : Signature → Bool} {args : List Signature} :
    everyIn p args = true ↔ ∀ a ∈ args, a.every p = true := by
  induction args with
  | nil => simp [everyIn]
  | cons arg args ih => simp [everyIn, ih]

theorem nestingIn_le_iff {levels : Nat} {args : List Signature} :
    nestingIn args ≤ levels ↔ ∀ a ∈ args, a.nesting ≤ levels := by
  induction args with
  | nil => simp [nestingIn]
  | cons arg args ih => simp [nestingIn, ih]

theorem wrap_succ (depth : Nat) (s : Signature) : s.wrap (depth + 1) = array (s.wrap depth) := by
  induction depth generalizing s with
  | zero => rfl
  | succ depth ih => exact ih (array s)

theorem wrap_unwrap : (s : Signature) → s.unwrap.2.wrap s.unwrap.1 = s
  | base _ => rfl
  | object _ => rfl
  | method _ _ => rfl
  | array component => by rw [unwrap, wrap_succ, wrap_unwrap component]

theorem not_isArray_unwrap : (s : Signature) → ¬ s.unwrap.2.IsArray
  | base _ => id
  | object _ => id
  | method _ _ => id
  | array component => not_isArray_unwrap component

theorem exists_wrap (t : Signature) : ∃ (depth : Nat) (s : Signature), ¬ s.IsArray ∧
    t = s.wrap depth :=
  ⟨t.unwrap.1, t.unwrap.2, not_isArray_unwrap t, (wrap_unwrap t).symm⟩

theorem unwrap_of_not_isArray {s : Signature} (h : ¬ s.IsArray) : s.unwrap = (0, s) := by
  cases s with
  | array component => exact absurd trivial h
  | _ => rfl

theorem unwrap_wrap {s : Signature} (h : ¬ s.IsArray) (depth : Nat) :
    (s.wrap depth).unwrap = (depth, s) := by
  induction depth with
  | zero => exact unwrap_of_not_isArray h
  | succ depth ih => rw [wrap_succ, unwrap, ih]

theorem every_isNamed_wrap (s : Signature) (depth : Nat) :
    (s.wrap depth).every isNamed = s.every isNamed := by
  induction depth with
  | zero => rfl
  | succ depth ih => simp [wrap_succ, every, isNamed, ih]

theorem every_hasShortRun_wrap {s : Signature} (h : ¬ s.IsArray) (depth : Nat) :
    (s.wrap depth).every hasShortRun = true ↔
      depth ≤ Descriptor.maxDimensions ∧ s.every hasShortRun = true := by
  induction depth with
  | zero => simp [wrap]
  | succ depth ih =>
    have hrun : hasShortRun (s.wrap (depth + 1)) = true ↔
        depth + 1 ≤ Descriptor.maxDimensions := by
      simp [hasShortRun, unwrap_wrap h]
    rw [wrap_succ] at hrun ⊢
    rw [every, Bool.and_eq_true, ih, hrun]
    constructor
    · rintro ⟨hd, -, hs⟩
      exact ⟨hd, hs⟩
    · rintro ⟨hd, hs⟩
      exact ⟨hd, by omega, hs⟩

theorem nesting_wrap (s : Signature) (depth : Nat) : (s.wrap depth).nesting = s.nesting := by
  induction depth with
  | zero => rfl
  | succ depth ih => rw [wrap_succ, nesting, ih]

theorem within_wrap_iff {s : Signature} (h : ¬ s.IsArray) (levels depth : Nat) :
    (s.wrap depth).Within levels ↔ depth ≤ Descriptor.maxDimensions ∧ s.Within levels := by
  constructor
  · rintro ⟨hn, hr, hl⟩
    have hr' := (every_hasShortRun_wrap h depth).mp hr
    exact ⟨hr'.1, by rwa [every_isNamed_wrap] at hn, hr'.2, by rwa [nesting_wrap] at hl⟩
  · rintro ⟨hd, hn, hr, hl⟩
    exact ⟨by rwa [every_isNamed_wrap], (every_hasShortRun_wrap h depth).mpr ⟨hd, hr⟩,
      by rwa [nesting_wrap]⟩

theorem within_base (levels : Nat) (type : Primitive) : (base type).Within levels :=
  ⟨rfl, rfl, Nat.zero_le _⟩

theorem within_object_iff {levels : Nat} {name : String} :
    (object name).Within levels ↔ isInternalName name.toList = true :=
  ⟨fun h => h.named, fun h => ⟨h, rfl, Nat.zero_le _⟩⟩

theorem not_within_zero_method (args : List Signature) (result : Signature) :
    ¬ (method args result).Within 0 := by
  intro h
  have hn := h.nesting_le
  simp [nesting] at hn

theorem within_succ_method_iff {levels : Nat} {args : List Signature} {result : Signature} :
    (method args result).Within (levels + 1) ↔
      (∀ a ∈ args, a.Within levels) ∧ result.Within levels := by
  constructor
  · rintro ⟨hn, hr, hl⟩
    simp only [every, isNamed, Bool.true_and, Bool.and_eq_true, everyIn_iff] at hn hr
    simp only [nesting, Nat.add_le_add_iff_right, max_le_iff, nestingIn_le_iff] at hl
    exact ⟨fun a ha => ⟨hn.1 a ha, hr.1.2 a ha, hl.1 a ha⟩, ⟨hn.2, hr.2, hl.2⟩⟩
  · rintro ⟨ha, hn, hr, hl⟩
    have hrun : hasShortRun (method args result) = true := rfl
    refine ⟨?_, ?_, ?_⟩
    · simp only [every, isNamed, Bool.true_and, Bool.and_eq_true, everyIn_iff]
      exact ⟨fun a h => (ha a h).named, hn⟩
    · simp only [every, hrun, Bool.true_and, Bool.and_eq_true, everyIn_iff]
      exact ⟨fun a h => (ha a h).shortRuns, hr⟩
    · simp only [nesting, Nat.add_le_add_iff_right, max_le_iff, nestingIn_le_iff]
      exact ⟨fun a h => (ha a h).nesting_le, hl⟩

end ClassAtlas.Signature
