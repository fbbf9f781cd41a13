import Mathlib.Data.Nat.Basic
import Mathlib.Logic.Function.Basic

/-! # Blocks and the slots that own them

A heap hands out blocks and takes them back. To free what is not allocated is an error, so
a program that makes none frees no block twice. Slots hold pointers that may be null; an
allocated block is owned when exactly one slot points to it (`Owned`). To give a slot a new
block in place of its old one keeps this, and what a reader finds through the pointers
changes in that slot only (`Owned.replace`). -/
namespace Capture.OwnedHeap

set_option autoImplicit false

variable {β : Type}

structure Heap (β : Type) where
  blocks : ℕ → Option β
  next : ℕ
  fresh : ∀ p, next ≤ p → blocks p = none

namespace Heap

def empty : Heap β := ⟨fun _ => none, 0, fun _ _ => rfl⟩

def malloc (h : Heap β) (b : β) : ℕ × Heap β :=
  (h.next, ⟨Function.update h.blocks h.next (some b), h.next + 1, fun p hp => by
    rw [Function.update_of_ne (by omega)]
    exact h.fresh p (by omega)⟩)

def release (h : Heap β) (p : ℕ) : Heap β :=
  ⟨Function.update h.blocks p none, h.next, fun q hq => by
    by_cases hqp : q = p
    · rw [hqp, Function.update_self]
    · rw [Function.update_of_ne hqp]
      exact h.fresh q hq⟩

/-- `none` if the block is not allocated. -/
def free (h : Heap β) (p : ℕ) : Option (Heap β) := if (h.blocks p).isSome then some (h.release p) else none

/-- What is behind a pointer. -/
def read (h : Heap β) (ptr : Option ℕ) : Option β := ptr.bind h.blocks

/-- Free the block behind `old`, if there is one. -/
def freeOld (h : Heap β) (old : Option ℕ) : Option (Heap β) :=
  match old with
  | none => some h
  | some p => h.free p

/-- Allocate a block for `new`, if there is any. -/
def allocNew (h : Heap β) (new : Option β) : Option ℕ × Heap β :=
  match new with
  | none => (none, h)
  | some b => (some (h.malloc b).1, (h.malloc b).2)

theorem malloc_blocks (h : Heap β) (b : β) (p : ℕ) :
    (h.malloc b).2.blocks p = if p = h.next then some b else h.blocks p :=
  Function.update_apply _ _ _ _

theorem release_blocks (h : Heap β) (p q : ℕ) : (h.release p).blocks q = if q = p then none else h.blocks q :=
  Function.update_apply _ _ _ _

end Heap

variable {ι : Type}

/-- Each allocated block is pointed to by exactly one slot, and nothing else is pointed to. -/
structure Owned (h : Heap β) (ptr : ι → Option ℕ) : Prop where
  live : ∀ p, (h.blocks p).isSome = true ↔ ∃ i, ptr i = some p
  once : ∀ i j p, ptr i = some p → ptr j = some p → i = j

theorem owned_empty : Owned (Heap.empty : Heap β) fun _ : ι => none :=
  ⟨fun p => by simp [Heap.empty], fun _ _ _ hi => by cases hi⟩

namespace Owned

variable {h : Heap β} {ptr : ι → Option ℕ}

theorem ne_next (ho : Owned h ptr) (i : ι) : ptr i ≠ some h.next := by
  intro hi
  have hlive := (ho.live h.next).mpr ⟨i, hi⟩
  rw [h.fresh h.next le_rfl] at hlive
  cases hlive

variable [DecidableEq ι]

theorem freeOld (ho : Owned h ptr) (i : ι) :
    ∃ h', h.freeOld (ptr i) = some h' ∧ Owned h' (Function.update ptr i none) ∧
      ∀ j, j ≠ i → h'.read (ptr j) = h.read (ptr j) := by
  cases hi : ptr i with
  | none =>
    refine ⟨h, rfl, ?_, fun _ _ => rfl⟩
    rw [← hi, Function.update_eq_self]
    exact ho
  | some p =>
    have hother : ∀ j q, j ≠ i → ptr j = some q → q ≠ p := by
      rintro j q hji hj rfl
      exact hji (ho.once j i q hj hi)
    refine ⟨h.release p, if_pos ((ho.live p).mpr ⟨i, hi⟩), ⟨fun q => ?_, fun j k q hj hk => ?_⟩, fun j hji => ?_⟩
    · rw [Heap.release_blocks]
      by_cases hqp : q = p
      · refine iff_of_false (by simp [hqp]) ?_
        rintro ⟨j, hj⟩
        by_cases hji : j = i
        · simp [hji] at hj
        · rw [Function.update_of_ne hji] at hj
          exact hother j q hji hj hqp
      · rw [if_neg hqp, ho.live q]
        refine exists_congr fun j => ?_
        by_cases hji : j = i
        · simp [hji, hi, Ne.symm hqp]
        · rw [Function.update_of_ne hji]
    · have hold : ∀ l, Function.update ptr i none l = some q → ptr l = some q := by
        intro l hl
        by_cases hli : l = i
        · simp [hli] at hl
        · rwa [Function.update_of_ne hli] at hl
      exact ho.once j k q (hold j hj) (hold k hk)
    · cases hj : ptr j with
      | none => rfl
      | some q => exact (Heap.release_blocks h p q).trans (if_neg (hother j q hji hj))

theorem allocNew (ho : Owned h ptr) (i : ι) (hi : ptr i = none) (new : Option β) :
    Owned (h.allocNew new).2 (Function.update ptr i (h.allocNew new).1) ∧
      (h.allocNew new).2.read (h.allocNew new).1 = new ∧
        ∀ j, (h.allocNew new).2.read (ptr j) = h.read (ptr j) := by
  cases new with
  | none =>
    refine ⟨?_, rfl, fun _ => rfl⟩
    show Owned h (Function.update ptr i none)
    rw [← hi, Function.update_eq_self]
    exact ho
  | some b =>
    refine ⟨⟨fun p => ?_, fun j k p hj hk => ?_⟩, ?_, fun j => ?_⟩
    · show ((h.malloc b).2.blocks p).isSome = true ↔ ∃ j, Function.update ptr i (some h.next) j = some p
      rw [Heap.malloc_blocks]
      by_cases hp : p = h.next
      · exact iff_of_true (by simp [hp]) ⟨i, by rw [Function.update_self, hp]⟩
      · rw [if_neg hp, ho.live p]
        refine exists_congr fun j => ?_
        by_cases hji : j = i
        · simp [hji, hi, Ne.symm hp]
        · rw [Function.update_of_ne hji]
    · have hwhere : ∀ l, Function.update ptr i (some h.next) l = some p → l = i ∧ p = h.next ∨ ptr l = some p := by
        intro l hl
        by_cases hli : l = i
        · rw [hli, Function.update_self] at hl
          exact Or.inl ⟨hli, (Option.some.inj hl).symm⟩
        · exact Or.inr ((Function.update_of_ne hli _ _).symm.trans hl)
      rcases hwhere j hj with ⟨hji, hp⟩ | hj
      · rcases hwhere k hk with ⟨hki, -⟩ | hk
        · rw [hji, hki]
        · exact absurd (hp ▸ hk) (ho.ne_next k)
      · rcases hwhere k hk with ⟨-, hp⟩ | hk
        · exact absurd (hp ▸ hj) (ho.ne_next j)
        · exact ho.once j k p hj hk
    · exact (Heap.malloc_blocks h b h.next).trans (if_pos rfl)
    · cases hj : ptr j with
      | none => rfl
      | some q =>
        have hne : q ≠ h.next := by
          rintro rfl
          exact ho.ne_next j hj
        exact (Heap.malloc_blocks h b q).trans (if_neg hne)

/-- A slot may be given a new block at any time: its old one can be freed, and a reader
finds the new one there and elsewhere what was there before. -/
theorem replace (ho : Owned h ptr) (i : ι) (new : Option β) :
    ∃ h', h.freeOld (ptr i) = some h' ∧ Owned (h'.allocNew new).2 (Function.update ptr i (h'.allocNew new).1) ∧
      ∀ j, (h'.allocNew new).2.read (Function.update ptr i (h'.allocNew new).1 j) =
        if j = i then new else h.read (ptr j) := by
  obtain ⟨h', hfree, howned, hread⟩ := ho.freeOld i
  obtain ⟨hnew, hself, hother⟩ := howned.allocNew i (Function.update_self i none ptr) new
  rw [Function.update_idem] at hnew
  refine ⟨h', hfree, hnew, fun j => ?_⟩
  by_cases hji : j = i
  · rw [hji, Function.update_self, if_pos rfl]
    exact hself
  · have hj := hother j
    rw [Function.update_of_ne hji] at hj
    rw [Function.update_of_ne hji, if_neg hji, hj]
    exact hread j hji

end Owned

end Capture.OwnedHeap
