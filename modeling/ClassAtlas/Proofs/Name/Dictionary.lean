import ClassAtlas.Proofs.Name.Map
import ClassAtlas.Proofs.Name.Slashes

/-! Texts and names as keys. Equality and hashing look at one text, so a map keyed by names acts as
an insertion-ordered map keyed by texts. -/

namespace ClassAtlas

namespace NameLike

variable {a b c n n' : NameLike} {s t : String}

def IsName : NameLike → Prop
  | plain _ => False
  | span _ => True
  | owned _ => True

/-- The hash of a plain text is that of the text, the hash of a name that of its slashed form. -/
def hashWith {η : Type} (hash : String → η) : NameLike → η
  | plain text => hash text
  | span name => hash name.toOwned.normalized
  | owned name => hash name.normalized

theorem hashWith_eq {η : Type} (hash : String → η) (n : NameLike) :
    n.hashWith hash = hash n.key := by
  cases n <;> rfl

theorem key_of_isName (h : n.IsName) : n.key = slashes n.text := by
  cases n with
  | plain text => cases h
  | span name => rfl
  | owned name => rfl

theorem beq_iff : (a == b) = true ↔ a.key = b.key := by
  rw [beq_eq_key, decide_eq_true_iff]

instance : EquivBEq NameLike where
  rfl := beq_iff.mpr rfl
  symm h := beq_iff.mpr (beq_iff.mp h).symm
  trans h h' := beq_iff.mpr ((beq_iff.mp h).trans (beq_iff.mp h'))

theorem hashWith_of_beq {η : Type} (hash : String → η) (h : (a == b) = true) :
    a.hashWith hash = b.hashWith hash := by
  rw [hashWith_eq, hashWith_eq, beq_iff.mp h]

theorem plain_beq_iff (h : n.IsName) : (plain s == n) = true ↔ s = slashes n.text := by
  rw [beq_iff, key_of_isName h]
  rfl

theorem beq_iff_of_isName (h : n.IsName) (h' : n'.IsName) :
    (n == n') = true ↔ slashes n.text = slashes n'.text := by
  rw [beq_iff, key_of_isName h, key_of_isName h']

theorem dot_not_mem_slashes (text : String) : '.' ∉ (slashes text).toList := by
  intro hdot
  simp only [slashes, String.toList_ofList, List.mem_map] at hdot
  obtain ⟨c, -, hc⟩ := hdot
  by_cases hsame : c = '.'
  · rw [QualifiedName.slashed, if_pos hsame] at hc
    exact absurd hc (by decide)
  · rw [QualifiedName.slashed, if_neg hsame] at hc
    exact hsame hc

/-- A text with a dot in it is equal to no name. -/
theorem plain_beq_of_dot (hs : '.' ∈ s.toList) (h : n.IsName) : (plain s == n) = false := by
  rw [Bool.eq_false_iff]
  intro hbeq
  rw [(plain_beq_iff h).mp hbeq] at hs
  exact dot_not_mem_slashes _ hs

end NameLike

variable {α : Type}

namespace NameMap

inductive Call (α : Type) where
  | put (name : NameLike) (value : α)
  | get (name : NameLike)
  | erase (name : NameLike)

/-- Works through calls, each of which gives a reply. -/
def Call.run {σ : Type} (step : σ → Call α → Option α × σ) (s : σ) :
    List (Call α) → List (Option α) × σ
  | [] => ([], s)
  | call :: calls =>
    let rest := run step (step s call).2 calls
    ((step s call).1 :: rest.1, rest.2)

/-- An erased name gives its value, and none if there is no such name. -/
def step (m : NameMap α) : Call α → Option α × NameMap α
  | .put name value => (none, m.put name value)
  | .get name => (m.get? name, m)
  | .erase name => (m.get? name, m.erase name)

end NameMap

/-- An insertion-ordered map keyed by texts. With each value stands the name under which its text
was first put. -/
structure TextMap (α : Type) where
  order : List String
  content : String → Option (NameLike × α)

namespace TextMap

open NameMap (Call)

def empty : TextMap α :=
  ⟨[], fun _ => none⟩

def entries (o : TextMap α) : List (NameLike × α) :=
  o.order.filterMap o.content

def value? (o : TextMap α) (text : String) : Option α :=
  (o.content text).map Prod.snd

def put (o : TextMap α) (name : NameLike) (value : α) : TextMap α :=
  match o.content name.key with
  | some (first, _) => ⟨o.order, Function.update o.content name.key (some (first, value))⟩
  | none => ⟨o.order ++ [name.key], Function.update o.content name.key (some (name, value))⟩

def erase (o : TextMap α) (text : String) : TextMap α :=
  ⟨o.order.filter (· ≠ text), Function.update o.content text none⟩

def step (o : TextMap α) : Call α → Option α × TextMap α
  | .put name value => (none, o.put name value)
  | .get name => (o.value? name.key, o)
  | .erase name => (o.value? name.key, o.erase name.key)

end TextMap

namespace NameMap

variable {m : NameMap α} {o : TextMap α} {name n : NameLike} {value : α} {text : String}

/-- The entry whose key has the text. -/
def entryOf (m : NameMap α) (text : String) : Option (NameLike × α) :=
  m.entries.find? fun e => e.1.key = text

theorem get?_eq_entryOf : m.get? n = (m.entryOf n.key).map Prod.snd := by
  simp only [get?, entryOf, NameLike.beq_eq_key]

theorem key_of_entryOf {e : NameLike × α} (h : m.entryOf text = some e) :
    e ∈ m.entries ∧ e.1.key = text :=
  ⟨List.mem_of_find?_eq_some h, by simpa using List.find?_some h⟩

theorem entryOf_eq_none_iff : m.entryOf text = none ↔ text ∉ m.names := by
  simp [entryOf, names]

theorem entryOf_of_mem (hnodup : m.names.Nodup) {e : NameLike × α} (he : e ∈ m.entries) :
    m.entryOf e.1.key = some e := by
  cases hfound : m.entryOf e.1.key with
  | none => exact absurd (List.mem_map_of_mem he) (entryOf_eq_none_iff.mp hfound)
  | some e' =>
    obtain ⟨he', hkey⟩ := key_of_entryOf hfound
    rw [List.inj_on_of_nodup_map hnodup he' he hkey]

theorem filterMap_entryOf (hnodup : m.names.Nodup) : m.names.filterMap m.entryOf = m.entries := by
  have hself : ∀ e ∈ m.entries, (m.entryOf ∘ fun e => e.1.key) e = some e :=
    fun e he => entryOf_of_mem hnodup he
  rw [names, List.filterMap_map, List.filterMap_congr hself, List.filterMap_some]

theorem contains_of_entryOf {e : NameLike × α} (h : m.entryOf name.key = some e) :
    m.contains name = true := by
  obtain ⟨he, hkey⟩ := key_of_entryOf h
  exact contains_iff.mpr (hkey ▸ List.mem_map_of_mem he)

theorem not_contains_of_entryOf (h : m.entryOf name.key = none) : m.contains name = false :=
  Bool.eq_false_iff.mpr fun hc => entryOf_eq_none_iff.mp h (contains_iff.mp hc)

/-- An equal key has its value replaced and stays as it is. -/
def replacing (name : NameLike) (value : α) (e : NameLike × α) : NameLike × α :=
  if e.1 == name then (e.1, value) else e

theorem fst_replacing (e : NameLike × α) : (replacing name value e).1 = e.1 := by
  unfold replacing
  split_ifs <;> rfl

theorem put_of_contains (h : m.contains name = true) :
    (m.put name value).entries = m.entries.map (replacing name value) := by
  rw [put, if_pos h]
  rfl

theorem names_put_of_contains (h : m.contains name = true) :
    (m.put name value).names = m.names := by
  have hkeys : (fun e : NameLike × α => e.1.key) ∘ replacing name value = fun e => e.1.key := by
    funext e
    exact congrArg NameLike.key (fst_replacing e)
  rw [names, put_of_contains h, List.map_map, hkeys, names]

theorem entryOf_put_of_some {e : NameLike × α} (h : m.entryOf name.key = some e) :
    (m.put name value).entryOf = Function.update m.entryOf name.key (some (e.1, value)) := by
  have hcontains := contains_of_entryOf h
  funext text
  have hkeys : (fun e : NameLike × α => decide (e.1.key = text)) ∘ replacing name value =
      fun e => decide (e.1.key = text) := by
    funext e
    simp [fst_replacing]
  have hmap : (m.put name value).entryOf text = (m.entryOf text).map (replacing name value) := by
    rw [entryOf, put_of_contains hcontains, List.find?_map, hkeys, entryOf]
  rw [hmap]
  -- The entry of the text is replaced if the text is the key's, and stays as it is otherwise.
  by_cases htext : text = name.key
  · subst htext
    have hsame : (e.1 == name) = true := NameLike.beq_iff.mpr (key_of_entryOf h).2
    simp [h, replacing, hsame]
  · rw [Function.update_of_ne htext]
    cases hfound : m.entryOf text with
    | none => rfl
    | some e' =>
      have hother : ¬ (e'.1 == name) = true := by
        rw [NameLike.beq_iff, (key_of_entryOf hfound).2]
        exact htext
      simp [replacing, hother]

theorem entryOf_put_of_none (h : m.entryOf name.key = none) :
    (m.put name value).entryOf = Function.update m.entryOf name.key (some (name, value)) := by
  funext text
  rw [entryOf, put_of_not_contains (not_contains_of_entryOf h), List.find?_append]
  by_cases htext : text = name.key
  · subst htext
    have hnone : m.entries.find? (fun e => decide (e.1.key = name.key)) = none := h
    simp [hnone]
  · have hother : ¬ name.key = text := fun heq => htext heq.symm
    rw [Function.update_of_ne htext]
    simp [entryOf, hother]

theorem names_erase : (m.erase name).names = m.names.filter (· ≠ name.key) := by
  simp only [names, erase, NameLike.beq_eq_key, List.filter_map, Function.comp_def]
  congr 2
  simp

theorem entryOf_erase : (m.erase name).entryOf = Function.update m.entryOf name.key none := by
  funext text
  rw [entryOf, erase, List.find?_filter]
  by_cases htext : text = name.key
  · subst htext
    simp [NameLike.beq_eq_key]
  · have hkept : ∀ e : NameLike × α, e.1.key = text → ¬ e.1.key = name.key := by
      rintro e rfl
      exact htext
    rw [Function.update_of_ne htext, entryOf]
    congr 1
    funext e
    by_cases hkey : e.1.key = text <;> simp [NameLike.beq_eq_key, hkey, htext]

/-- The map holds the entries of the other one under the same texts and in the same order. -/
structure Represents (m : NameMap α) (o : TextMap α) : Prop where
  order : o.order = m.names
  nodup : m.names.Nodup
  content : o.content = m.entryOf

namespace Represents

theorem entries (h : m.Represents o) : o.entries = m.entries := by
  rw [TextMap.entries, h.order, h.content, filterMap_entryOf h.nodup]

theorem value? (h : m.Represents o) (name : NameLike) : o.value? name.key = m.get? name := by
  rw [TextMap.value?, h.content, get?_eq_entryOf]

theorem put (h : m.Represents o) (name : NameLike) (value : α) :
    (m.put name value).Represents (o.put name value) := by
  cases hentry : m.entryOf name.key with
  | some e =>
    have hnames :
        (m.put name value).names = m.names := names_put_of_contains (contains_of_entryOf hentry)
    have hput :
        o.put name value = ⟨o.order, Function.update o.content name.key (some (e.1, value))⟩ := by
      simp [TextMap.put, h.content, hentry]
    rw [hput]
    refine ⟨?_, ?_, ?_⟩
    · rw [hnames]
      exact h.order
    · rw [hnames]
      exact h.nodup
    · rw [entryOf_put_of_some hentry, h.content]
  | none =>
    have hnew : name.key ∉ m.names := entryOf_eq_none_iff.mp hentry
    have hput : o.put name value =
        ⟨o.order ++ [name.key], Function.update o.content name.key (some (name, value))⟩ := by
      simp [TextMap.put, h.content, hentry]
    rw [hput]
    refine ⟨?_, ?_, ?_⟩
    · rw [names_put hnew, h.order]
    · rw [names_put hnew, ← List.concat_eq_append]
      exact h.nodup.concat hnew
    · rw [entryOf_put_of_none hentry, h.content]

theorem erase (h : m.Represents o) (name : NameLike) :
    (m.erase name).Represents (o.erase name.key) := by
  refine ⟨?_, ?_, ?_⟩
  · rw [TextMap.erase, names_erase, h.order]
  · rw [names_erase]
    exact h.nodup.filter _
  · rw [TextMap.erase, entryOf_erase, h.content]

theorem step (h : m.Represents o) (call : Call α) :
    (m.step call).1 = (o.step call).1 ∧ (m.step call).2.Represents (o.step call).2 := by
  cases call with
  | put name value => exact ⟨rfl, h.put name value⟩
  | get name => exact ⟨(h.value? name).symm, h⟩
  | erase name => exact ⟨(h.value? name).symm, h.erase name⟩

theorem run (h : m.Represents o) (calls : List (Call α)) :
    (Call.run NameMap.step m calls).1 = (Call.run TextMap.step o calls).1 ∧
      (Call.run NameMap.step m calls).2.Represents (Call.run TextMap.step o calls).2 := by
  induction calls generalizing m o with
  | nil => exact ⟨rfl, h⟩
  | cons call calls ih =>
    obtain ⟨hreply, hnext⟩ := h.step call
    obtain ⟨hreplies, hlast⟩ := ih hnext
    refine ⟨?_, hlast⟩
    rw [Call.run, Call.run, hreply, hreplies]

end Represents

theorem represents_empty : (empty : NameMap α).Represents .empty :=
  ⟨rfl, .nil, rfl⟩

/-- Equality of texts and names is an equivalence and goes with every hash. A text is equal to a
name only in its slashed form. Every run of calls on a map keyed by both gives the replies, and
leaves the entries, of an insertion-ordered map keyed by the one text that is compared: an equal key
keeps its first spelling and its place, and a text with a dot meets no entry of a name. -/
theorem keyed_by_text :
    (∀ a : NameLike, (a == a) = true) ∧
    (∀ a b : NameLike, (a == b) = true → (b == a) = true) ∧
    (∀ a b c : NameLike, (a == b) = true → (b == c) = true → (a == c) = true) ∧
    (∀ (η : Type) (hash : String → η) (a b : NameLike), (a == b) = true →
      a.hashWith hash = b.hashWith hash) ∧
    (∀ s t : String, (NameLike.plain s == .plain t) = true ↔ s = t) ∧
    (∀ (s : String) (n : NameLike), n.IsName → ((.plain s == n) = true ↔ s = slashes n.text)) ∧
    (∀ n n' : NameLike, n.IsName → n'.IsName →
      ((n == n') = true ↔ slashes n.text = slashes n'.text)) ∧
    ∀ calls : List (Call α),
      (Call.run NameMap.step .empty calls).1 = (Call.run TextMap.step .empty calls).1 ∧
      (Call.run NameMap.step .empty calls).2.entries =
        (Call.run TextMap.step .empty calls).2.entries ∧
      ∀ e ∈ (Call.run NameMap.step .empty calls).2.entries, e.1.IsName →
        ∀ s : String, '.' ∈ s.toList → (.plain s == e.1) = false := by
  refine ⟨BEq.refl, fun _ _ => BEq.symm, fun _ _ _ => BEq.trans,
    fun _ hash _ _ => NameLike.hashWith_of_beq hash, fun _ _ => NameLike.beq_iff,
    fun _ _ => NameLike.plain_beq_iff, fun _ _ => NameLike.beq_iff_of_isName, fun calls => ?_⟩
  obtain ⟨hreplies, hlast⟩ := represents_empty.run calls
  exact ⟨hreplies, hlast.entries.symm, fun e _ hname s hs => NameLike.plain_beq_of_dot hs hname⟩

example :
    (Call.run step empty [.put (.owned ⟨"a.b", by decide⟩) 1, .put (.owned ⟨"a/b", by decide⟩) 2,
    .get (.plain "a/b"), .get (.plain "a.b")]).1 = [none, none, some 2, none] := by
  decide

end NameMap

end ClassAtlas
