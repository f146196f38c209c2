import ClassAtlas.LineTable
import Mathlib.Data.List.Nodup
import Mathlib.Order.Bounds.Basic

/-! Line tables looked up. The line at an instruction is that of the latest start up to there, and
of the first entry with that start, in whatever order the table has its entries. -/

namespace ClassAtlas.LineTable

variable {pc line start : Int} {seen : List LineEntry} {best : Option LineEntry} {e : LineEntry}

/-- The starts of entries that lie at or before an instruction. -/
def startsUpTo (entries : List LineEntry) (pc : Int) : Set Int :=
  {start | start ≤ pc ∧ ∃ e ∈ entries, e.startPc = start}

/-- The first entry with a given start. -/
def firstAt (entries : List LineEntry) (start : Int) : Option LineEntry :=
  entries.find? fun e => e.startPc = start

/-- What is held after some entries of a table: nothing while none of them starts up to `pc`, else
the first of those that start latest. -/
def Holds (pc : Int) (seen : List LineEntry) : Option LineEntry → Prop
  | none => ∀ e ∈ seen, ¬ e.startPc ≤ pc
  | some e => IsGreatest (startsUpTo seen pc) e.startPc ∧ firstAt seen e.startPc = some e

theorem firstAt_eq_none (h : ∀ d ∈ seen, d.startPc ≠ start) : firstAt seen start = none :=
  List.find?_eq_none.mpr fun d hd => by simpa using h d hd

theorem firstAt_append_of_none (h : firstAt seen e.startPc = none) :
    firstAt (seen ++ [e]) e.startPc = some e := by
  rw [firstAt] at h
  simp [firstAt, List.find?_append, h]

theorem firstAt_append_of_some {b : LineEntry} (h : firstAt seen start = some b) :
    firstAt (seen ++ [e]) start = some b := by
  rw [firstAt] at h
  simp [firstAt, List.find?_append, h]

theorem mem_startsUpTo_append : start ∈ startsUpTo (seen ++ [e]) pc ↔
    start ∈ startsUpTo seen pc ∨ start ≤ pc ∧ e.startPc = start := by
  simp only [startsUpTo, Set.mem_ofPred_eq, List.mem_append, List.mem_singleton]
  constructor
  · rintro ⟨hpc, d, hd | rfl, hstart⟩
    · exact .inl ⟨hpc, d, hd, hstart⟩
    · exact .inr ⟨hpc, hstart⟩
  · rintro (⟨hpc, d, hd, hstart⟩ | ⟨hpc, hstart⟩)
    · exact ⟨hpc, d, .inl hd, hstart⟩
    · exact ⟨hpc, e, .inr rfl, hstart⟩

/-- An entry that starts later than all those before it, as far as these start up to `pc`. -/
theorem holds_new (hpc : e.startPc ≤ pc)
    (hlate : ∀ start ∈ startsUpTo seen pc, start < e.startPc) :
      Holds pc (seen ++ [e]) (some e) := by
  refine ⟨⟨mem_startsUpTo_append.mpr (.inr ⟨hpc, rfl⟩), fun start hstart => ?_⟩,
    firstAt_append_of_none (firstAt_eq_none fun d hd he => ?_)⟩
  · obtain hseen | ⟨-, rfl⟩ := mem_startsUpTo_append.mp hstart
    · exact (hlate start hseen).le
    · exact le_rfl
  · have hlt := hlate d.startPc ⟨he ▸ hpc, d, hd, rfl⟩
    omega

theorem Holds.step (h : Holds pc seen best) (e : LineEntry) :
    Holds pc (seen ++ [e]) (later pc best e) := by
  cases best with
  | none =>
    have hnone : ∀ start ∈ startsUpTo seen pc, start < e.startPc := by
      rintro start ⟨hpc, d, hd, rfl⟩
      exact absurd hpc (h d hd)
    rw [later]
    split_ifs with hpc
    · exact holds_new hpc hnone
    · exact List.forall_mem_append.mpr ⟨h, by simpa using hpc⟩
  | some b =>
    obtain ⟨⟨hmem, hbound⟩, hfirst⟩ := h
    rw [later]
    split_ifs with hlater
    · exact holds_new hlater.1 fun start hstart => (hbound hstart).trans_lt hlater.2
    · refine ⟨⟨mem_startsUpTo_append.mpr (.inl hmem), fun start hstart => ?_⟩,
        firstAt_append_of_some hfirst⟩
      obtain hseen | ⟨hpc, rfl⟩ := mem_startsUpTo_append.mp hstart
      · exact hbound hseen
      · exact le_of_not_gt fun hlt => hlater ⟨hpc, hlt⟩

theorem Holds.run (h : Holds pc seen best) (entries : List LineEntry) :
    Holds pc (seen ++ entries) (entries.foldl (later pc) best) := by
  induction entries generalizing seen best with
  | nil => rwa [List.append_nil]
  | cons e entries ih =>
    have hrest := ih (h.step e)
    rwa [List.append_assoc] at hrest

theorem holds_entries (t : LineTable) (pc : Int) :
    Holds pc t.entries (t.entries.foldl (later pc) none) := by
  have hstart : Holds pc [] none := by simp [Holds]
  exact hstart.run t.entries

theorem lineAt?_eq_none_iff {t : LineTable} :
    t.lineAt? pc = none ↔ ∀ e ∈ t.entries, ¬ e.startPc ≤ pc := by
  have hholds := holds_entries t pc
  rw [lineAt?, Option.map_eq_none_iff]
  cases hbest : t.entries.foldl (later pc) none with
  | none =>
    rw [hbest] at hholds
    exact iff_of_true rfl hholds
  | some b =>
    rw [hbest] at hholds
    obtain ⟨hpc, d, hd, hstart⟩ := hholds.1.1
    exact iff_of_false (by simp) fun hnone => hnone d hd (hstart ▸ hpc)

theorem lineAt?_eq_some_iff {t : LineTable} :
    t.lineAt? pc = some line ↔ ∃ start, IsGreatest (startsUpTo t.entries pc) start ∧
      ∃ e, firstAt t.entries start = some e ∧ e.line = line := by
  have hholds := holds_entries t pc
  rw [lineAt?]
  cases hbest : t.entries.foldl (later pc) none with
  | none =>
    rw [hbest] at hholds
    refine iff_of_false (by simp) ?_
    rintro ⟨start, ⟨⟨hpc, d, hd, rfl⟩, -⟩, -⟩
    exact hholds d hd hpc
  | some b =>
    rw [hbest] at hholds
    constructor
    · intro hline
      exact ⟨b.startPc, hholds.1, b, hholds.2, by simpa using hline⟩
    · rintro ⟨start, hgreatest, e, hfirst, rfl⟩
      rw [hgreatest.unique hholds.1, hholds.2] at hfirst
      rw [Option.some.inj hfirst, Option.map_some]

/-- Entries with different starts may change places. -/
theorem lineAt?_congr {t u : LineTable}
    (h : ∀ start, (u.entries.filter fun e => e.startPc = start) =
      t.entries.filter fun e => e.startPc = start) : u.lineAt? pc = t.lineAt? pc := by
  have hfirst : firstAt u.entries = firstAt t.entries := by
    funext start
    rw [firstAt, firstAt, ← List.head?_filter, ← List.head?_filter, h start]
  have hmem (e : LineEntry) : e ∈ u.entries ↔ e ∈ t.entries := by
    have he := congrArg (e ∈ ·) (h e.startPc)
    simpa using he
  have hstarts : startsUpTo u.entries pc = startsUpTo t.entries pc := by
    simp only [startsUpTo, hmem]
  refine Option.ext fun line => ?_
  rw [lineAt?_eq_some_iff, lineAt?_eq_some_iff, hfirst, hstarts]

theorem filter_start_of_perm {l m : List LineEntry} (h : l.Perm m)
    (hdistinct : (m.map LineEntry.startPc).Nodup) (start : Int) :
    (l.filter fun e => e.startPc = start) = m.filter fun e => e.startPc = start := by
  have hperm := h.filter fun e => decide (e.startPc = start)
  -- At most one entry is left, so that there is nothing to put in another order.
  have hlength : (m.filter fun e => e.startPc = start).length ≤ 1 := by
    rw [← List.countP_eq_length_filter]
    have hcount := List.nodup_iff_count_le_one.mp hdistinct start
    rw [List.count, List.countP_map] at hcount
    simpa [Function.comp_def, beq_eq_decide] using hcount
  obtain hnone | ⟨e, hone⟩ : (m.filter fun e => e.startPc = start) = [] ∨
      ∃ e, (m.filter fun e => e.startPc = start) = [e] := by
    rwa [Nat.le_one_iff_eq_zero_or_eq_one, List.length_eq_zero_iff,
      List.length_eq_one_iff] at hlength
  · rw [hnone] at hperm ⊢
    exact hperm.eq_nil
  · rw [hone] at hperm ⊢
    exact List.perm_singleton.mp hperm

/-- There is no line exactly where no entry starts up to the instruction. Else it is the line of the
first entry, in the order of the table, among those with the latest start up to there. So entries
with different starts may change places, and where all starts differ the entries may come in any
order. -/
theorem lineAt?_latest (t : LineTable) (pc : Int) :
    (t.lineAt? pc = none ↔ ∀ e ∈ t.entries, ¬ e.startPc ≤ pc) ∧
    (∀ line, t.lineAt? pc = some line ↔ ∃ start, IsGreatest (startsUpTo t.entries pc) start ∧
      ∃ e, firstAt t.entries start = some e ∧ e.line = line) ∧
    (∀ u : LineTable, (∀ start, (u.entries.filter fun e => e.startPc = start) =
      t.entries.filter fun e => e.startPc = start) → u.lineAt? pc = t.lineAt? pc) ∧
    ∀ u : LineTable, u.entries.Perm t.entries → (t.entries.map LineEntry.startPc).Nodup →
      u.lineAt? pc = t.lineAt? pc :=
  ⟨lineAt?_eq_none_iff, fun _ => lineAt?_eq_some_iff, fun _ h => lineAt?_congr h,
    fun _ h hdistinct => lineAt?_congr (filter_start_of_perm h hdistinct)⟩

/-- Two entries start at the same instruction, and neither of them comes last. -/
def repeating : LineTable :=
  ⟨[⟨4, 20⟩, ⟨0, 10⟩, ⟨4, 21⟩, ⟨9, 30⟩]⟩

theorem lineAt?_latest_repeating :
    (repeating.lineAt? 8 = some 20 ∧ lineAt? ⟨[⟨9, 30⟩, ⟨4, 20⟩, ⟨4, 21⟩, ⟨0, 10⟩]⟩ 8 = some 20) ∧
    ([⟨0, 10⟩, ⟨4, 20⟩] : List LineEntry).Perm [⟨4, 20⟩, ⟨0, 10⟩] ∧
    lineAt? ⟨[⟨0, 10⟩, ⟨4, 20⟩]⟩ 8 = lineAt? ⟨[⟨4, 20⟩, ⟨0, 10⟩]⟩ 8 := by
  obtain ⟨-, hsome, hmoved, -⟩ := lineAt?_latest repeating 8
  have hgreatest : IsGreatest (startsUpTo repeating.entries 8) 4 := by
    refine ⟨⟨by decide, ⟨4, 20⟩, by decide, rfl⟩, ?_⟩
    rintro start ⟨hpc, e, he, rfl⟩
    have hall : ∀ e ∈ repeating.entries, e.startPc ≤ 8 → e.startPc ≤ 4 := by decide
    exact hall e he hpc
  have hline : repeating.lineAt? 8 = some 20 :=
    (hsome 20).mpr ⟨4, hgreatest, ⟨4, 20⟩, by decide, rfl⟩
  have hfilter (start : Int) :
      (([⟨9, 30⟩, ⟨4, 20⟩, ⟨4, 21⟩, ⟨0, 10⟩] : List LineEntry).filter fun e => e.startPc = start) =
        repeating.entries.filter fun e => e.startPc = start := by
    by_cases h0 : start = 0
    · subst h0
      decide
    · by_cases h9 : start = 9
      · subst h9
        decide
      · simp [repeating, List.filter_cons, Ne.symm h0, Ne.symm h9]
  have hswap : ([⟨0, 10⟩, ⟨4, 20⟩] : List LineEntry).Perm [⟨4, 20⟩, ⟨0, 10⟩] := .swap _ _ _
  obtain ⟨-, -, -, hany⟩ := lineAt?_latest ⟨[⟨4, 20⟩, ⟨0, 10⟩]⟩ 8
  exact ⟨⟨hline, (hmoved _ hfilter).trans hline⟩, hswap,
    hany ⟨[⟨0, 10⟩, ⟨4, 20⟩]⟩ hswap (by decide)⟩

end ClassAtlas.LineTable
