import ClassAtlas.Proofs.Descriptor.Inverse

/-! Written forms by recursion on the type. The renderings of types count a run of array dimensions
before they write it, and agree with the plain recursion, however deep arrays and methods are
nested. -/

namespace ClassAtlas.Signature

mutual

/-- The descriptor, one constructor after the other. -/
def plainDescriptor : Signature → String
  | base type => String.singleton type.letter
  | object name => "L" ++ name ++ ";"
  | array component => "[" ++ plainDescriptor component
  | method args result =>
    "(" ++ String.join (plainDescriptors args) ++ ")" ++ plainDescriptor result

def plainDescriptors : List Signature → List String
  | [] => []
  | arg :: args => plainDescriptor arg :: plainDescriptors args

end

mutual

/-- The form of source code, one constructor after the other. -/
def plainDisplay : Signature → String
  | base type => type.keyword
  | object name => name.map fun c => if c = '/' then '.' else c
  | array component => plainDisplay component ++ "[]"
  | method args result =>
    plainDisplay result ++ " (" ++ ", ".intercalate (plainDisplays args) ++ ")"

def plainDisplays : List Signature → List String
  | [] => []
  | arg :: args => plainDisplay arg :: plainDisplays args

end

/-- Number of array dimensions that a descriptor starts with. -/
def leadingBrackets (text : String) : Nat :=
  (text.toList.takeWhile (· = '[')).length

theorem brackets_add (m n : Nat) : brackets (m + n) = brackets m ++ brackets n := by
  induction m with
  | zero => rw [Nat.zero_add, brackets, List.nil_append]
  | succ m ih => rw [Nat.succ_add, brackets, ih, brackets, List.cons_append, List.cons_append]

theorem displayWithin_eq (depth : Nat) : (s : Signature) →
    s.displayWithin depth = s.displayWithin 0 ++ brackets depth
  | base _ => by simp [displayWithin, brackets]
  | object _ => by simp [displayWithin, brackets]
  | method _ _ => by simp [displayWithin, brackets]
  | array component => by
    have hhere := displayWithin_eq (depth + 1) component
    have hzero := displayWithin_eq (0 + 1) component
    rw [displayWithin, displayWithin, hhere, hzero, List.append_assoc, ← brackets_add]
    rw [Nat.zero_add, Nat.add_comm]

theorem descriptor_array (component : Signature) :
    (array component).descriptor = "[" ++ component.descriptor := by
  have hletters :
      (array component).letters = '[' :: component.letters := descriptorWithin_eq 1 component
  apply String.toList_inj.mp
  simp [descriptor, hletters]

theorem display_array (component : Signature) :
    (array component).display = component.display ++ "[]" := by
  have hwithin : (array component).displayWithin 0 = component.displayWithin 0 ++ ['[', ']'] :=
    displayWithin_eq 1 component
  apply String.toList_inj.mp
  simp [display, hwithin]

theorem descriptors_eq_join (args : List Signature) :
    descriptors args = (String.join (args.map descriptor)).toList := by
  induction args with
  | nil => simp [descriptors]
  | cons arg args ih => simp [descriptors, ih, descriptor]

theorem descriptor_method (args : List Signature) (result : Signature) :
    (method args result).descriptor =
      "(" ++ String.join (args.map descriptor) ++ ")" ++ result.descriptor := by
  apply String.toList_inj.mp
  simp [descriptor, descriptorWithin, descriptors_eq_join]

theorem displays_eq_intercalate (args : List Signature) :
    displays args = (", ".intercalate (args.map display)).toList := by
  induction args with
  | nil => simp [displays]
  | cons arg args ih =>
    cases args with
    | nil => simp [displays, display]
    | cons next args => simp [displays, ih, display]

theorem display_method (args : List Signature) (result : Signature) :
    (method args result).display =
      result.display ++ " (" ++ ", ".intercalate (args.map display) ++ ")" := by
  apply String.toList_inj.mp
  simp [display, displayWithin, displays_eq_intercalate, brackets]

theorem descriptor_wrap (s : Signature) (depth : Nat) :
    (s.wrap depth).descriptor = String.ofList (List.replicate depth '[') ++ s.descriptor := by
  have hletters : (s.wrap depth).descriptorWithin 0 = _ := letters_wrap s depth
  rw [descriptor, hletters, String.ofList_append, descriptor]

theorem display_wrap (s : Signature) (depth : Nat) :
    (s.wrap depth).display = s.display ++ String.ofList (brackets depth) := by
  induction depth with
  | zero => simp [wrap, brackets]
  | succ depth ih =>
    have hbrackets : brackets (depth + 1) = brackets depth ++ ['[', ']'] := brackets_add depth 1
    rw [wrap_succ, display_array, ih, hbrackets, String.ofList_append, String.append_assoc]

/-- No type but an array has a descriptor that starts with a bracket. -/
theorem leadingBrackets_descriptor (s : Signature) : leadingBrackets s.descriptor = s.unwrap.1 := by
  obtain ⟨depth, inner, harray, rfl⟩ := exists_wrap s
  obtain ⟨c, cs, hletters, hc, -⟩ := letters_of_not_isArray harray
  have hinner : inner.descriptor.toList = c :: cs := by
    rw [descriptor, String.toList_ofList]
    exact hletters
  have hrun : ∀ b ∈ List.replicate depth '[', decide (b = '[') = true := by simp
  rw [unwrap_wrap harray, leadingBrackets, descriptor_wrap, String.toList_append,
    String.toList_ofList, hinner, List.takeWhile_append_of_pos hrun]
  simp [hc]

mutual

theorem plainDescriptor_eq : (s : Signature) → s.plainDescriptor = s.descriptor
  | base type => rfl
  | object name => by
    apply String.toList_inj.mp
    simp [plainDescriptor, descriptor, descriptorWithin]
  | array component => by
    rw [plainDescriptor, plainDescriptor_eq component, descriptor_array]
  | method args result => by
    rw [plainDescriptor, plainDescriptors_eq args, plainDescriptor_eq result, descriptor_method]

theorem plainDescriptors_eq : (args : List Signature) → plainDescriptors args = args.map descriptor
  | [] => rfl
  | arg :: args => by
    rw [plainDescriptors, plainDescriptor_eq arg, plainDescriptors_eq args, List.map_cons]

end

mutual

theorem plainDisplay_eq : (s : Signature) → s.plainDisplay = s.display
  | base type => by simp [plainDisplay, display, displayWithin, brackets]
  | object name => by
    apply String.toList_inj.mp
    simp [plainDisplay, display, displayWithin, dottedClass, brackets]
  | array component => by
    rw [plainDisplay, plainDisplay_eq component, display_array]
  | method args result => by
    rw [plainDisplay, plainDisplays_eq args, plainDisplay_eq result, display_method]

theorem plainDisplays_eq : (args : List Signature) → plainDisplays args = args.map display
  | [] => rfl
  | arg :: args => by
    rw [plainDisplays, plainDisplay_eq arg, plainDisplays_eq args, List.map_cons]

end

/-- Both written forms of a type are put together from those of its parts by its outermost
constructor, at any depth. The dimensions of an array may as well be written at once around the type
inside all of them; they are as many as the brackets in front of its descriptor. -/
theorem written_by_structure :
    (∀ s : Signature, s.descriptor = s.plainDescriptor ∧ s.display = s.plainDisplay ∧
      s.descriptor = String.ofList (List.replicate s.unwrap.1 '[') ++ s.unwrap.2.descriptor ∧
      s.display = s.unwrap.2.display ++ String.ofList (brackets s.unwrap.1) ∧
      s.unwrap.1 = leadingBrackets s.descriptor) ∧
    (∀ component : Signature, (array component).descriptor = "[" ++ component.descriptor ∧
      (array component).display = component.display ++ "[]") ∧
    ∀ (args : List Signature) (result : Signature),
      (method args result).descriptor =
        "(" ++ String.join (args.map descriptor) ++ ")" ++ result.descriptor ∧
      (method args result).display =
        result.display ++ " (" ++ ", ".intercalate (args.map display) ++ ")" := by
  refine ⟨fun s => ?_, fun component => ⟨descriptor_array component, display_array component⟩,
    fun args result => ⟨descriptor_method args result, display_method args result⟩⟩
  have hdescriptor := descriptor_wrap s.unwrap.2 s.unwrap.1
  have hdisplay := display_wrap s.unwrap.2 s.unwrap.1
  rw [wrap_unwrap] at hdescriptor hdisplay
  exact ⟨(plainDescriptor_eq s).symm, (plainDisplay_eq s).symm, hdescriptor, hdisplay,
    (leadingBrackets_descriptor s).symm⟩

example : (array (array (method [array (base .int), object "a/B"] (base .void)))).display =
    "void (int[], a.B)[][]" := by
  decide

end ClassAtlas.Signature
