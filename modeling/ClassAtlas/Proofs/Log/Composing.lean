import ClassAtlas.Log.Call
import ClassAtlas.Proofs.Outcomes

/-! What the record that a call makes takes from the logger and what from the call. -/

namespace ClassAtlas.Log

namespace Call

/-- What is added to a call apart from the few names that ask for something else. -/
def fields (c : Call) : List (String × Json) :=
  c.added.filter fun f => !Details.ownNames.contains f.1

/-- Extra fields are an object; anything else brings none. -/
def extra (c : Call) : List (String × Json) :=
  match c.added.lookup "extra" with
  | some (.obj fields) => fields
  | _ => []

/-- The context that a call brings: what is added, or what stands in for it among the extra
fields. -/
def context (c : Call) : Json :=
  if c.fields.isEmpty then (c.extra.lookup Details.contextName).getD .null else .obj c.fields

end Call

namespace Details

variable {c : Call} {fields extra : List (String × Json)} {d : Details}

theorem ofFields_eq_ok (h : ofFields fields = .ok d) :
    d.context = (fields.filter fun f => !ownNames.contains f.1) ∧
      d.extra = (fields.lookup "extra").getD .null := by
  rw [ofFields] at h
  split at h
  · cases h
  · obtain rfl := Except.ok.inj h
    exact ⟨rfl, rfl⟩

theorem extra_of_extraFields (hd : ofFields c.added = .ok d) (h : d.extraFields = .ok extra) :
    c.extra = extra := by
  rw [extraFields, (ofFields_eq_ok hd).2] at h
  rw [Call.extra]
  cases hgiven : c.added.lookup "extra" with
  | none => simpa [hgiven, Json.isOn] using h
  | some value =>
    rw [hgiven, Option.getD_some] at h
    cases value
    case obj fields =>
      cases fields with
      | nil => simpa [Json.isOn] using h
      | cons f fields => simpa [Json.isOn] using h
    all_goals
      -- What counts as switched off brings no fields, and what does not is refused.
      split_ifs at h
      exact Except.ok.inj h

theorem contextOver_eq (hd : ofFields c.added = .ok d) (h : d.extraFields = .ok extra) :
    d.contextOver extra = c.context := by
  rw [contextOver, (ofFields_eq_ok hd).1, Call.context, extra_of_extraFields hd h]
  rfl

end Details

/-- A record tells who reports it, the operation under way there, and the context of the call. -/
structure Composed (l : Logger) (c : Call) (r : Record) : Prop where
  level : r.level = c.level
  component : r.component = l.component
  operation : r.operation = l.operation
  context : r.context = c.context

/-- Only calls of a level that is reported make records. -/
theorem Logger.composed_of_compose {l : Logger} {threshold : Level} {console : Bool}
    {c : Call} {r : Record} (h : l.compose threshold console c = .ok (some r)) :
    enabled threshold c.level = true ∧ Composed l c r := by
  obtain ⟨d, hd, h⟩ := bind_eq_ok_iff.mp h
  dsimp only at h
  by_cases hon : enabled threshold c.level = true
  · simp only [hon, Bool.not_true, Bool.and_false, Bool.false_eq_true, if_false] at h
    obtain ⟨extra, hextra, h⟩ := bind_eq_ok_iff.mp h
    obtain ⟨_, -, h⟩ := bind_eq_ok_iff.mp h
    cases hfill : fillMessage c.text c.values with
    | error e =>
      rw [hfill] at h
      cases console <;> cases h
    | ok message =>
      rw [hfill] at h
      obtain rfl := Option.some.inj (Except.ok.inj h)
      exact ⟨hon, rfl, rfl, rfl, Details.contextOver_eq hd hextra⟩
  · simp only [hon, Bool.not_false, if_true] at h
    split_ifs at h
    · cases h
    · obtain ⟨extra, -, h⟩ := bind_eq_ok_iff.mp h
      cases h

end ClassAtlas.Log
