import Mathlib.Data.List.Basic
import Mathlib.Order.Bounds.Basic

/-! # A slot that a sequence of writers may overwrite

`runWriters` passes a slot along a list; each member of the list leaves it alone or puts
its own value into it. The slot ends with the value of the last member that writes, and
keeps its first value if none does. Along an ascending list whose members write themselves
the last that writes is the greatest that does. -/
namespace Capture.LastWrite

set_option autoImplicit false

variable {α β : Type}

/-- Member `x` writes `value x` when `writes x` holds. -/
def runWriters (writes : α → Prop) [DecidablePred writes] (value : α → β) (slot : Option β) (xs : List α) : Option β :=
  xs.foldl (fun slot x => if writes x then some (value x) else slot) slot

variable (writes : α → Prop)

/-- `x` is the last member of the list that writes. -/
def LastWriter (xs : List α) (x : α) : Prop := ∃ pre post, xs = pre ++ x :: post ∧ writes x ∧ ∀ y ∈ post, ¬ writes y

theorem lastWriter_map {γ : Type} (f : γ → α) (zs : List γ) (x : α) :
    LastWriter writes (zs.map f) x ↔ ∃ z, LastWriter (fun z => writes (f z)) zs z ∧ f z = x := by
  constructor
  · rintro ⟨pre, post, hsplit, hx, hpost⟩
    obtain ⟨zpre, zrest, rfl, -, hrest⟩ := List.map_eq_append_iff.mp hsplit
    obtain ⟨z, zpost, rfl, rfl, rfl⟩ := List.map_eq_cons_iff.mp hrest
    exact ⟨z, ⟨zpre, zpost, rfl, hx, fun y hy => hpost _ (List.mem_map_of_mem hy)⟩, rfl⟩
  · rintro ⟨z, ⟨zpre, zpost, rfl, hz, hpost⟩, rfl⟩
    refine ⟨zpre.map f, zpost.map f, by simp, hz, fun y hy => ?_⟩
    obtain ⟨w, hw, rfl⟩ := List.mem_map.mp hy
    exact hpost w hw

theorem lastWriter_congr {writes' : α → Prop} (h : ∀ x, writes x ↔ writes' x) (xs : List α) (x : α) :
    LastWriter writes xs x ↔ LastWriter writes' xs x := by
  have heq : writes = writes' := funext fun y => propext (h y)
  rw [heq]

variable [DecidablePred writes] (value : α → β)

theorem runWriters_of_none (slot : Option β) (xs : List α) (h : ∀ x ∈ xs, ¬ writes x) :
    runWriters writes value slot xs = slot := by
  induction xs generalizing slot with
  | nil => rfl
  | cons x xs ih =>
    rw [runWriters, List.foldl_cons, if_neg (h x List.mem_cons_self)]
    exact ih slot fun y hy => h y (List.mem_cons_of_mem x hy)

theorem runWriters_of_last (slot : Option β) (pre post : List α) (x : α) (hx : writes x)
    (hpost : ∀ y ∈ post, ¬ writes y) :
    runWriters writes value slot (pre ++ x :: post) = some (value x) := by
  rw [runWriters, List.foldl_append, List.foldl_cons, if_pos hx]
  exact runWriters_of_none writes value _ post hpost

theorem exists_last_writer (xs : List α) :
    (∀ x ∈ xs, ¬ writes x) ∨ ∃ pre x post, xs = pre ++ x :: post ∧ writes x ∧ ∀ y ∈ post, ¬ writes y := by
  induction xs with
  | nil => exact Or.inl fun x hx => by cases hx
  | cons x xs ih =>
    rcases ih with hnone | ⟨pre, y, post, rfl, hy, hpost⟩
    · by_cases hx : writes x
      · exact Or.inr ⟨[], x, xs, rfl, hx, hnone⟩
      · refine Or.inl fun y hy => ?_
        rcases List.mem_cons.mp hy with rfl | hy
        · exact hx
        · exact hnone y hy
    · exact Or.inr ⟨x :: pre, y, post, rfl, hy, hpost⟩

/-- What ends up in an empty slot was put there by a member. -/
theorem exists_writer_of_runWriters (xs : List α) (v : β) (h : runWriters writes value none xs = some v) :
    ∃ x ∈ xs, writes x ∧ value x = v := by
  rcases exists_last_writer writes xs with hnone | ⟨pre, x, post, rfl, hx, hpost⟩
  · rw [runWriters_of_none writes value none xs hnone] at h
    cases h
  · rw [runWriters_of_last writes value none pre post x hx hpost] at h
    exact ⟨x, by simp, hx, Option.some.inj h⟩

theorem runWriters_eq_none_iff (xs : List α) : runWriters writes value none xs = none ↔ ∀ x ∈ xs, ¬ writes x := by
  constructor
  · intro h
    rcases exists_last_writer writes xs with hnone | ⟨pre, x, post, rfl, hx, hpost⟩
    · exact hnone
    · rw [runWriters_of_last writes value none pre post x hx hpost] at h
      cases h
  · exact runWriters_of_none writes value none xs

theorem exists_runWriters_of_mem (xs : List α) (x : α) (hx : x ∈ xs) (hw : writes x) :
    ∃ v, runWriters writes value none xs = some v := by
  apply Option.ne_none_iff_exists'.mp
  intro hnone
  exact (runWriters_eq_none_iff writes value xs).mp hnone x hx hw

/-- Of two lists passed one after the other the second decides, if it has a writer. -/
theorem runWriters_append (xs ys : List α) (v : β) (h : runWriters writes value none (xs ++ ys) = some v) :
    (∃ y ∈ ys, writes y ∧ value y = v) ∨ (∀ y ∈ ys, ¬ writes y) ∧ ∃ x ∈ xs, writes x ∧ value x = v := by
  rcases exists_last_writer writes ys with hnone | ⟨pre, y, post, rfl, hy, hpost⟩
  · have hxs : runWriters writes value none xs = some v := by
      rw [runWriters, List.foldl_append] at h
      exact (runWriters_of_none writes value _ ys hnone).symm.trans h
    exact Or.inr ⟨hnone, exists_writer_of_runWriters writes value xs v hxs⟩
  · rw [← List.append_assoc, runWriters_of_last writes value none (xs ++ pre) post y hy hpost] at h
    exact Or.inl ⟨y, by simp, hy, Option.some.inj h⟩

/-- What ends up in an empty slot is the value of the last writer. -/
theorem runWriters_eq_some_iff (xs : List α) (v : β) :
    runWriters writes value none xs = some v ↔ ∃ x, LastWriter writes xs x ∧ value x = v := by
  constructor
  · intro h
    rcases exists_last_writer writes xs with hnone | ⟨pre, x, post, rfl, hx, hpost⟩
    · rw [runWriters_of_none writes value none xs hnone] at h
      cases h
    · rw [runWriters_of_last writes value none pre post x hx hpost] at h
      exact ⟨x, ⟨pre, post, rfl, hx, hpost⟩, Option.some.inj h⟩
  · rintro ⟨x, ⟨pre, post, rfl, hx, hpost⟩, rfl⟩
    exact runWriters_of_last writes value none pre post x hx hpost

/-- A property of the final value is a property of the last writer's. -/
theorem forall_runWriters_iff (xs : List α) (p : β → Prop) :
    (∀ v, runWriters writes value none xs = some v → p v) ↔
      ∀ pre x post, xs = pre ++ x :: post → writes x → (∀ y ∈ post, ¬ writes y) → p (value x) := by
  constructor
  · rintro h pre x post rfl hx hpost
    exact h _ (runWriters_of_last writes value none pre post x hx hpost)
  · intro h v hv
    rcases exists_last_writer writes xs with hnone | ⟨pre, x, post, rfl, hx, hpost⟩
    · rw [runWriters_of_none writes value none xs hnone] at hv
      cases hv
    · rw [runWriters_of_last writes value none pre post x hx hpost] at hv
      cases hv
      exact h pre x post rfl hx hpost

theorem runWriters_eq_some_iff_isGreatest [LinearOrder α] (xs : List α) (hxs : xs.Pairwise (· < ·)) (x : α) :
    runWriters writes id none xs = some x ↔ IsGreatest {y | y ∈ xs ∧ writes y} x := by
  rcases exists_last_writer writes xs with hnone | ⟨pre, z, post, rfl, hz, hpost⟩
  · rw [runWriters_of_none writes id none xs hnone]
    constructor
    · intro h
      cases h
    · intro h
      exact absurd h.1.2 (hnone x h.1.1)
  · have hgreatest : IsGreatest {y | y ∈ pre ++ z :: post ∧ writes y} z := by
      refine ⟨⟨by simp, hz⟩, fun y hy => ?_⟩
      obtain ⟨-, -, hbefore⟩ := List.pairwise_append.mp hxs
      rcases List.mem_append.mp hy.1 with hpre | hrest
      · exact (hbefore y hpre z List.mem_cons_self).le
      · rcases List.mem_cons.mp hrest with heq | hlater
        · exact heq.le
        · exact absurd hy.2 (hpost y hlater)
    rw [runWriters_of_last writes id none pre post z hz hpost, Option.some.injEq]
    constructor
    · intro h
      have hzx : z = x := h
      exact hzx ▸ hgreatest
    · intro h
      exact hgreatest.unique h

end Capture.LastWrite
