import ClassAtlas.Proofs.Finder.Steady

/-! Two runs and what comes of them. Their outcomes are alike if both succeed with related results
or both fail with related errors, and that passes on from step to step; so does that one of them
goes like the other for as long as it goes. -/

namespace ClassAtlas

variable {ε α β γ δ : Type} {E E' : ε → ε → Prop} {R : α → β → Prop} {S : γ → δ → Prop}
  {x : Except ε α} {y : Except ε β}

inductive Alike (E : ε → ε → Prop) (R : α → β → Prop) : Except ε α → Except ε β → Prop
  | ok {a : α} {b : β} : R a b → Alike E R (.ok a) (.ok b)
  | error {e e' : ε} : E e e' → Alike E R (.error e) (.error e')

namespace Alike

theorem refl {R : α → α → Prop} (hE : ∀ e, E e e) (hR : ∀ a, R a a) (x : Except ε α) :
    Alike E R x x := by
  cases x with
  | ok a => exact .ok (hR a)
  | error e => exact .error (hE e)

theorem mono {R' : α → β → Prop} (h : Alike E R x y) (hE : ∀ e e', E e e' → E' e e')
    (hR : ∀ a b, R a b → R' a b) : Alike E' R' x y := by
  cases h with
  | ok h => exact .ok (hR _ _ h)
  | error h => exact .error (hE _ _ h)

theorem eq {x y : Except ε α} (h : Alike Eq Eq x y) : x = y := by
  cases h with
  | ok h => rw [h]
  | error h => rw [h]

theorem bind {f : α → Except ε γ} {g : β → Except ε δ} (h : Alike E R x y)
    (hf : ∀ a b, R a b → Alike E S (f a) (g b)) : Alike E S (x >>= f) (y >>= g) := by
  cases h with
  | ok h => exact hf _ _ h
  | error h => exact .error h

/-- The same step, followed by steps that are alike after each of its results. -/
theorem bind_same {f : α → Except ε γ} {g : α → Except ε δ} (hE : ∀ e, E e e) (x : Except ε α)
    (hf : ∀ a, Alike E S (f a) (g a)) : Alike E S (x >>= f) (x >>= g) := by
  refine (Alike.refl (R := Eq) hE (fun _ => rfl) x).bind fun a b hab => ?_
  rw [hab]
  exact hf b

theorem mapM {f : α → Except ε γ} {g : β → Except ε δ} {as : List α} {bs : List β}
    (h : List.Forall₂ (fun a b => Alike E S (f a) (g b)) as bs) :
    Alike E (List.Forall₂ S) (as.mapM f) (bs.mapM g) := by
  induction h with
  | nil => exact .ok .nil
  | cons hhead _ ih =>
    rw [List.mapM_cons, List.mapM_cons]
    exact hhead.bind fun c d hcd => ih.bind fun cs ds hs => .ok (.cons hcd hs)

end Alike

/-- A run that goes like another one, unless it stops before, at a fault of some kind. -/
def EqUnless (stops : ε → Prop) (x y : Except ε α) : Prop :=
  x = y ∨ ∃ e, stops e ∧ x = .error e

namespace EqUnless

variable {stops : ε → Prop} {x y : Except ε α}

theorem of_eq (h : x = y) : EqUnless stops x y :=
  .inl h

theorem eq (h : EqUnless stops x y) (hnever : ∀ e, ¬stops e) : x = y :=
  h.resolve_right fun ⟨e, he, _⟩ => hnever e he

theorem mono {stops' : ε → Prop} (h : EqUnless stops x y) (hstops : ∀ e, stops e → stops' e) :
    EqUnless stops' x y :=
  h.imp_right fun ⟨e, he, hx⟩ => ⟨e, hstops e he, hx⟩

theorem bind {f g : α → Except ε β} (h : EqUnless stops x y)
    (hf : ∀ a, EqUnless stops (f a) (g a)) : EqUnless stops (x >>= f) (y >>= g) := by
  rcases h with rfl | ⟨e, he, rfl⟩
  · cases x with
    | error e => exact .of_eq rfl
    | ok a => exact hf a
  · exact .inr ⟨e, he, rfl⟩

theorem bind_same {f g : α → Except ε β} (x : Except ε α) (hf : ∀ a, EqUnless stops (f a) (g a)) :
    EqUnless stops (x >>= f) (x >>= g) :=
  EqUnless.bind (.of_eq rfl) hf

end EqUnless

theorem ok_of_mapError {ε' : Type} {f : ε → ε'} {a : α} (h : x.mapError f = .ok a) : x = .ok a := by
  cases x with
  | error e => cases h
  | ok b => rw [Except.ok.inj h]

theorem mapM_congr {f g : α → Except ε β} {as : List α} (h : ∀ a ∈ as, f a = g a) :
    as.mapM f = as.mapM g := by
  induction as with
  | nil => rfl
  | cons a as ih =>
    obtain ⟨ha, has⟩ := List.forall_mem_cons.mp h
    rw [List.mapM_cons, List.mapM_cons, ha, ih has]

/-- A list is worked through to the end exactly where each of its items has a result. -/
theorem mapM_eq_ok_iff {f : α → Except ε β} {as : List α} {bs : List β} :
    as.mapM f = .ok bs ↔ List.Forall₂ (fun a b => f a = .ok b) as bs := by
  induction as generalizing bs with
  | nil =>
    constructor
    · intro h
      obtain rfl := Except.ok.inj h
      exact .nil
    · intro h
      cases h
      rfl
  | cons a as ih =>
    simp only [List.mapM_cons, bind_eq_ok_iff]
    constructor
    · rintro ⟨b, hb, rest, hrest, hpure⟩
      obtain rfl := Except.ok.inj hpure
      exact .cons hb (ih.mp hrest)
    · intro h
      cases h with
      | cons hhead htail => exact ⟨_, hhead, _, ih.mpr htail, rfl⟩

/-- Working through a list fails with the error of the first item that has no result. -/
theorem mapM_eq_error_iff {f : α → Except ε β} {as : List α} {e : ε} :
    as.mapM f = .error e ↔ ∃ before a behind, as = before ++ a :: behind ∧
      (∀ b ∈ before, ∃ c, f b = .ok c) ∧ f a = .error e := by
  induction as with
  | nil =>
    have hnil : ([] : List α).mapM f = .ok [] := rfl
    simp [hnil]
  | cons a as ih =>
    rw [List.mapM_cons, bind_eq_error_iff]
    constructor
    · rintro (ha | ⟨b, hb, h⟩)
      · exact ⟨[], a, as, rfl, by simp, ha⟩
      · rcases bind_eq_error_iff.mp h with h | ⟨rest, -, h⟩
        · obtain ⟨before, first, behind, rfl, hbefore, hfirst⟩ := ih.mp h
          exact ⟨a :: before, first, behind, rfl,
            List.forall_mem_cons.mpr ⟨⟨b, hb⟩, hbefore⟩, hfirst⟩
        · cases h
    · rintro ⟨before, first, behind, has, hbefore, hfirst⟩
      cases before with
      | nil =>
        obtain ⟨rfl, rfl⟩ := List.cons.inj has
        exact .inl hfirst
      | cons b before =>
        obtain ⟨rfl, rfl⟩ := List.cons.inj has
        obtain ⟨⟨c, hc⟩, hbefore⟩ := List.forall_mem_cons.mp hbefore
        have hrest := ih.mpr ⟨before, first, behind, rfl, hbefore, hfirst⟩
        exact .inr ⟨c, hc, bind_eq_error_iff.mpr (.inl hrest)⟩

end ClassAtlas
