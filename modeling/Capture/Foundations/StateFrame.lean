import Mathlib.Data.List.Basic

/-! # Functions that leave a region of the state alone

A region of a state is given by `strip`, which takes it out, and `restore s t`, which puts that
of `s` back in front of what `t` holds of it. A function that spares a region does the same
without it. Such functions compose (`Spared.comp`), and a view of the state that hides no
more than a spared region stays a view under them (`Shown.congr`): whoever looks at the view
only, cannot tell two states apart, and cannot tell them apart afterwards. -/
namespace Capture.StateFrame

set_option autoImplicit false

variable {σ τ : Type}

structure Region (σ : Type) where
  strip : σ → σ
  restore : σ → σ → σ
  strip_restore : ∀ s t, strip (restore s t) = strip t
  restore_strip : ∀ s, restore s (strip s) = s
  restore_restore : ∀ s t w, restore (restore s t) w = restore s (restore t w)

/-- `f` does not read the region, and does nothing to it but add at its end. -/
def Region.Spared (P : Region σ) (f : σ → σ) : Prop := ∀ s, f s = P.restore s (f (P.strip s))

variable {P : Region σ}

theorem Region.spared_id (P : Region σ) : P.Spared fun s => s := fun s => (P.restore_strip s).symm

theorem Region.Spared.strip_eq {f : σ → σ} (hf : P.Spared f) (s : σ) : P.strip (f s) = P.strip (f (P.strip s)) := by
  rw [hf s, P.strip_restore]

theorem Region.Spared.comp {f g : σ → σ} (hf : P.Spared f) (hg : P.Spared g) : P.Spared fun s => g (f s) := by
  intro s
  calc g (f s) = P.restore (f s) (g (P.strip (f s))) := hg (f s)
    _ = P.restore (P.restore s (f (P.strip s))) (g (P.strip (f (P.strip s)))) := by rw [← hf s, ← hf.strip_eq s]
    _ = P.restore s (g (f (P.strip s))) := by rw [P.restore_restore, ← hg (f (P.strip s))]

theorem Region.Spared.foldl {ι : Type} {f : σ → ι → σ} (hf : ∀ x, P.Spared (f · x)) (xs : List ι) :
    P.Spared fun s => xs.foldl f s := by
  induction xs with
  | nil => exact P.spared_id
  | cons x xs ih => exact (hf x).comp ih

/-- `Q` is some of what `P` is. -/
structure Region.Within (Q P : Region σ) : Prop where
  strip_strip : ∀ s, P.strip (Q.strip s) = P.strip s
  restore_eq : ∀ s t, P.restore s t = Q.restore s (P.restore (Q.strip s) t)

/-- Whoever spares a region spares what is within it. -/
theorem Region.Spared.mono {Q : Region σ} {f : σ → σ} (hf : P.Spared f) (h : Q.Within P) : Q.Spared f := by
  intro s
  calc f s = P.restore s (f (P.strip s)) := hf s
    _ = Q.restore s (P.restore (Q.strip s) (f (P.strip (Q.strip s)))) := by rw [h.restore_eq, h.strip_strip]
    _ = Q.restore s (f (Q.strip s)) := by rw [← hf (Q.strip s)]

/-- The view shows all of the state but the region, and of that what can be told of its
pieces one by one. -/
structure Region.Shown (P : Region σ) (view : σ → τ) : Prop where
  strip_eq : ∀ s s', view s = view s' → P.strip s = P.strip s'
  restore_eq : ∀ s s' t, view s = view s' → view (P.restore s t) = view (P.restore s' t)

theorem Region.Shown.congr {view : σ → τ} (hview : P.Shown view) {f : σ → σ} (hf : P.Spared f) {s s' : σ}
    (h : view s = view s') : view (f s) = view (f s') := by
  rw [hf s, hf s', hview.strip_eq s s' h]
  exact hview.restore_eq s s' _ h

theorem Region.Shown.mono {Q : Region σ} {view : σ → τ} (hview : Q.Shown view) (h : Q.Within P) : P.Shown view where
  strip_eq s s' hs := by rw [← h.strip_strip s, ← h.strip_strip s', hview.strip_eq s s' hs]
  restore_eq s s' t hs := by
    rw [h.restore_eq s, h.restore_eq s', hview.strip_eq s s' hs]
    exact hview.restore_eq s s' _ hs

end Capture.StateFrame
