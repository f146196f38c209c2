import ClassAtlas.Finder
import Mathlib.Tactic

/-! Steps that keep what they have looked up. Such a step is steady if states count as alike only
where it answers alike, and if it leads to a state like the one before it. Steady steps answer one
after the other as if each of them had started from the first state. -/

namespace ClassAtlas

variable {σ ε α β : Type}

theorem bind_eq_ok_iff {x : Except ε α} {f : α → Except ε β} {b : β} :
    x >>= f = .ok b ↔ ∃ a, x = .ok a ∧ f a = .ok b := by
  cases x <;> simp [bind, Except.bind]

theorem bind_eq_error_iff {x : Except ε α} {f : α → Except ε β} {e : ε} :
    x >>= f = .error e ↔ x = .error e ∨ ∃ a, x = .ok a ∧ f a = .error e := by
  cases x <;> simp [bind, Except.bind]

/-- What a step gives in a state. -/
def answer (x : ExceptT ε (StateM σ) α) (s : σ) : Except ε α :=
  (x.run.run s).1

/-- The state that a step leads to. -/
def after (x : ExceptT ε (StateM σ) α) (s : σ) : σ :=
  (x.run.run s).2

@[simp] theorem answer_pure (a : α) (s : σ) :
    answer (pure a : ExceptT ε (StateM σ) α) s = .ok a := rfl

@[simp] theorem after_pure (a : α) (s : σ) : after (pure a : ExceptT ε (StateM σ) α) s = s := rfl

@[simp] theorem answer_throw (e : ε) (s : σ) :
    answer (throw e : ExceptT ε (StateM σ) α) s = .error e := rfl

@[simp] theorem after_throw (e : ε) (s : σ) : after (throw e : ExceptT ε (StateM σ) α) s = s := rfl

@[simp] theorem answer_modify (f : σ → σ) (s : σ) :
    answer (modify f : ExceptT ε (StateM σ) PUnit) s = .ok ⟨⟩ := rfl

@[simp] theorem after_modify (f : σ → σ) (s : σ) :
    after (modify f : ExceptT ε (StateM σ) PUnit) s = f s := rfl

theorem answer_get_bind (f : σ → ExceptT ε (StateM σ) α) (s : σ) :
    answer (get >>= f) s = answer (f s) s := rfl

theorem after_get_bind (f : σ → ExceptT ε (StateM σ) α) (s : σ) :
    after (get >>= f) s = after (f s) s := rfl

theorem answer_bind (x : ExceptT ε (StateM σ) α) (f : α → ExceptT ε (StateM σ) β) (s : σ) :
    answer (x >>= f) s = match answer x s with
      | .ok a => answer (f a) (after x s)
      | .error e => .error e := by
  simp only [answer, after, ExceptT.run_bind, StateT.run_bind]
  rcases x.run.run s with ⟨a | a, t⟩ <;> rfl

theorem answer_bind_eq_ok_iff {x : ExceptT ε (StateM σ) α} {f : α → ExceptT ε (StateM σ) β} {s : σ}
    {b : β} : answer (x >>= f) s = .ok b ↔
      ∃ a, answer x s = .ok a ∧ answer (f a) (after x s) = .ok b := by
  rw [answer_bind]
  cases answer x s <;> simp

theorem after_bind (x : ExceptT ε (StateM σ) α) (f : α → ExceptT ε (StateM σ) β) (s : σ) :
    after (x >>= f) s = match answer x s with
      | .ok a => after (f a) (after x s)
      | .error _ => after x s := by
  simp only [answer, after, ExceptT.run_bind, StateT.run_bind]
  rcases x.run.run s with ⟨a | a, t⟩ <;> rfl

theorem answer_tryCatch (x : ExceptT ε (StateM σ) α) (f : ε → ExceptT ε (StateM σ) α) (s : σ) :
    answer (tryCatch x f) s = match answer x s with
      | .ok a => .ok a
      | .error e => answer (f e) (after x s) := by
  simp only [answer, after, ExceptT.run_tryCatch, StateT.run_bind]
  rcases x.run.run s with ⟨a | a, t⟩ <;> rfl

theorem after_tryCatch (x : ExceptT ε (StateM σ) α) (f : ε → ExceptT ε (StateM σ) α) (s : σ) :
    after (tryCatch x f) s = match answer x s with
      | .ok _ => after x s
      | .error e => after (f e) (after x s) := by
  simp only [answer, after, ExceptT.run_tryCatch, StateT.run_bind]
  rcases x.run.run s with ⟨a | a, t⟩ <;> rfl

structure Steady (r : Setoid σ) (x : ExceptT ε (StateM σ) α) : Prop where
  after_alike (s : σ) : r.r (after x s) s
  answer_eq {s t : σ} (h : r.r s t) : answer x s = answer x t

namespace Steady

variable {r : Setoid σ} {x : ExceptT ε (StateM σ) α}

theorem pure (r : Setoid σ) (a : α) : Steady r (pure a : ExceptT ε (StateM σ) α) :=
  ⟨r.refl, fun _ => rfl⟩

theorem throw (r : Setoid σ) (e : ε) : Steady r (throw e : ExceptT ε (StateM σ) α) :=
  ⟨r.refl, fun _ => rfl⟩

theorem bind {f : α → ExceptT ε (StateM σ) β} (hx : Steady r x) (hf : ∀ a, Steady r (f a)) :
    Steady r (x >>= f) where
  after_alike s := by
    rw [after_bind]
    split
    · exact r.trans ((hf _).after_alike _) (hx.after_alike s)
    · exact hx.after_alike s
  answer_eq {s t} h := by
    rw [answer_bind, answer_bind, hx.answer_eq h]
    split
    · exact (hf _).answer_eq
        (r.trans (hx.after_alike s) (r.trans h (r.symm (hx.after_alike t))))
    · rfl

theorem answer_bind {f : α → ExceptT ε (StateM σ) β} (hx : Steady r x)
    (hf : ∀ a, Steady r (f a)) (s : σ) :
      answer (x >>= f) s = answer x s >>= fun a => answer (f a) s := by
  rw [ClassAtlas.answer_bind]
  cases answer x s with
  | error e => rfl
  | ok a => exact (hf a).answer_eq (hx.after_alike s)

theorem tryCatch {f : ε → ExceptT ε (StateM σ) α} (hx : Steady r x) (hf : ∀ e, Steady r (f e)) :
    Steady r (tryCatch x f) where
  after_alike s := by
    rw [after_tryCatch]
    split
    · exact hx.after_alike s
    · exact r.trans ((hf _).after_alike _) (hx.after_alike s)
  answer_eq {s t} h := by
    rw [answer_tryCatch, answer_tryCatch, hx.answer_eq h]
    split
    · rfl
    · exact (hf _).answer_eq
        (r.trans (hx.after_alike s) (r.trans h (r.symm (hx.after_alike t))))

theorem modify {f : σ → σ} (h : ∀ s, r.r (f s) s) :
    Steady r (modify f : ExceptT ε (StateM σ) PUnit) :=
  ⟨h, fun _ => rfl⟩

theorem get_bind {f : σ → ExceptT ε (StateM σ) α} (hf : ∀ s, Steady r (f s))
    (hc : ∀ s t, r.r s t → f s = f t) : Steady r (get >>= f) where
  after_alike s := (hf s).after_alike s
  answer_eq {s t} h := (congrArg (answer · s) (hc s t h)).trans ((hf t).answer_eq h)

theorem liftExcept (r : Setoid σ) (a : Except ε α) :
    Steady r (liftExcept a : ExceptT ε (StateM σ) α) := by
  cases a with
  | ok a => exact pure r a
  | error e => exact throw r e

end Steady

theorem answer_liftExcept (a : Except ε α) (s : σ) :
    answer (liftExcept a : ExceptT ε (StateM σ) α) s = a := by
  cases a <;> rfl

theorem after_liftExcept (a : Except ε α) (s : σ) :
    after (liftExcept a : ExceptT ε (StateM σ) α) s = s := by
  cases a <;> rfl

namespace Resolver

variable {fs : FileSystem} {path : Path} {relative : String}
  {motive : Resolving (Option Resource) → Prop}

theorem inFolder_cases (fault : ∀ e, motive (throw (.file e)))
    (done : ∀ resource, motive (pure resource)) :
    motive (inFolder fs path relative) := by
  rw [inFolder]
  rcases fs.isFile (path.join (Path.ofText relative)) with e | _ | _
  · exact fault _
  · exact done _
  · exact done _

/-- What holds of each step that a lookup may come down to holds of the lookup. -/
theorem lookup_cases (fault : ∀ e, motive (throw (.file e)))
    (folder : motive (inFolder fs path relative)) (archive : motive (inArchive fs path relative))
    (classFile : motive (inClassFile fs path relative))
    (unknown : motive (throw (.entry path .unknownKind)))
    (skipped : motive (tell s!"Skipping missing classpath directory {path.toText}" >>= fun _ =>
      pure none)) : motive (lookup fs path relative) := by
  rw [lookup]
  rcases fs.isFolder path with e | _ | _
  · exact fault _
  · dsimp only
    split_ifs
    · exact archive
    · exact classFile
    · rcases fs.exists? path with e | _ | _
      · exact fault _
      · exact skipped
      · exact unknown
  · exact folder

end Resolver

end ClassAtlas
