import ClassAtlas.Name.Map
import Mathlib.Tactic

/-! What lookups in maps keyed by names give. Only the keys of names count. -/

namespace ClassAtlas

theorem NameLike.beq_eq_key (a b : NameLike) : (a == b) = decide (a.key = b.key) := by
  show (a.key == b.key) = _
  rw [beq_eq_decide]

namespace NameMap

variable {α : Type} {m : NameMap α} {name n : NameLike} {value : α}

def names (m : NameMap α) : List String :=
  m.entries.map fun e => e.1.key

theorem contains_iff : m.contains n = true ↔ n.key ∈ m.names := by
  simp [contains, names, NameLike.beq_eq_key]

theorem get?_eq_of_key (h : n.key = name.key) : m.get? n = m.get? name := by
  simp only [get?, NameLike.beq_eq_key, h]

theorem get?_mem (h : m.get? n = some value) : value ∈ m.entries.map Prod.snd := by
  obtain ⟨e, he, rfl⟩ := Option.map_eq_some_iff.mp h
  exact List.mem_map_of_mem (List.mem_of_find?_eq_some he)

theorem get?_eq_some_iff (hnodup : m.names.Nodup) :
    m.get? n = some value ↔ ∃ e ∈ m.entries, e.1.key = n.key ∧ e.2 = value := by
  simp only [get?, NameLike.beq_eq_key, Option.map_eq_some_iff]
  constructor
  · rintro ⟨e, he, hvalue⟩
    exact ⟨e, List.mem_of_find?_eq_some he, by simpa using List.find?_some he, hvalue⟩
  · rintro ⟨e, he, hkey, hvalue⟩
    have hfound : (m.entries.find? fun e => decide (e.1.key = n.key)).isSome = true :=
      List.find?_isSome.mpr ⟨e, he, by simpa using hkey⟩
    obtain ⟨e', he'⟩ := Option.isSome_iff_exists.mp hfound
    have hkey' : e'.1.key = n.key := by simpa using List.find?_some he'
    obtain rfl := List.inj_on_of_nodup_map hnodup (List.mem_of_find?_eq_some he') he
      (hkey'.trans hkey.symm)
    exact ⟨e', he', hvalue⟩

theorem put_of_not_contains (h : m.contains name = false) :
    (m.put name value).entries = m.entries ++ [(name, value)] := by
  simp [put, h]

theorem get?_eq_none_iff : m.get? n = none ↔ n.key ∉ m.names := by
  simp [get?, names, NameLike.beq_eq_key]

theorem names_put (h : name.key ∉ m.names) : (m.put name value).names = m.names ++ [name.key] := by
  have hnew : m.contains name = false := Bool.eq_false_iff.mpr fun hc => h (contains_iff.mp hc)
  simp [names, put_of_not_contains hnew]

/-- What is put under a name answers for all names of its key. -/
theorem get?_put : (m.put name value).get? n =
    if n.key = name.key then some value else m.get? n := by
  obtain ⟨entries⟩ := m
  simp only [put, contains, get?, NameLike.beq_eq_key]
  split_ifs with hc hn hn
  · rw [hn]
    induction entries with
    | nil => simp at hc
    | cons e entries ih =>
      by_cases he : e.1.key = name.key
      · simp [he]
      · have hc' : (entries.any fun e => decide (e.1.key = name.key)) = true := by
          simpa [he] using hc
        simpa [he] using ih hc'
  · clear hc
    induction entries with
    | nil => rfl
    | cons e entries ih =>
      by_cases he : e.1.key = name.key
      · have hne : name.key ≠ n.key := fun h => hn h.symm
        simpa [he, hne] using ih
      · by_cases hen : e.1.key = n.key
        · simp [hen, hn]
        · simpa [he, hen] using ih
  · have hnone : entries.find? (fun e => decide (e.1.key = name.key)) = none := by
      simpa using hc
    simp [List.find?_append, hn, hnone]
  · have hne : name.key ≠ n.key := fun h => hn h.symm
    simp [List.find?_append, hne]

end NameMap

end ClassAtlas
