import Mathlib.Data.List.OfFn

/-! # Byte strings in memory

A memory is a function from offsets to bytes. `Holds m start bs` says that the bytes `bs`
stand in `m` from `start` on; the rules below take a concatenation apart into its fields
and read a field back. Numbers of two bytes have the most significant one first. -/
namespace Capture.ByteLayout

set_option autoImplicit false

def Holds (m : ℕ → UInt8) : ℕ → List UInt8 → Prop
  | _, [] => True
  | start, b :: bs => m start = b ∧ Holds m (start + 1) bs

instance decidableHolds (m : ℕ → UInt8) : (start : ℕ) → (bs : List UInt8) → Decidable (Holds m start bs)
  | _, [] => inferInstanceAs (Decidable True)
  | start, b :: bs =>
      have := decidableHolds m (start + 1) bs
      inferInstanceAs (Decidable (m start = b ∧ Holds m (start + 1) bs))

/-- The number in the two bytes from `start` on. -/
def word (m : ℕ → UInt8) (start : ℕ) : UInt16 := (m start).toUInt16 <<< 8 ||| (m (start + 1)).toUInt16

def wordBytes (w : UInt16) : List UInt8 := [(w >>> 8).toUInt8, w.toUInt8]

variable {m : ℕ → UInt8}

theorem holds_append (start : ℕ) (as bs : List UInt8) :
    Holds m start (as ++ bs) ↔ Holds m start as ∧ Holds m (start + as.length) bs := by
  induction as generalizing start with
  | nil => simp [Holds]
  | cons a as ih =>
    have hlen : start + (a :: as).length = start + 1 + as.length := by
      rw [List.length_cons]
      omega
    rw [List.cons_append, Holds, Holds, ih, hlen, and_assoc]

theorem Holds.ofFn {n start : ℕ} {a : Fin n → UInt8} (h : Holds m start (List.ofFn a)) (i : Fin n) :
    m (start + i) = a i := by
  induction n generalizing start with
  | zero => exact i.elim0
  | succ n ih =>
    rw [List.ofFn_succ] at h
    refine Fin.cases h.1 (fun j => ?_) i
    have hj : start + (j.succ : ℕ) = start + 1 + j := by
      rw [Fin.val_succ]
      omega
    rw [hj]
    exact ih h.2 j

theorem join_wordBytes (w : UInt16) : (w >>> 8).toUInt8.toUInt16 <<< 8 ||| w.toUInt8.toUInt16 = w := by
  apply UInt16.toNat_inj.mp
  have hw : w.toNat < 2 ^ 16 := w.toNat_lt
  have h8 : UInt16.toNat 8 % 16 = 8 := rfl
  simp only [UInt16.toNat_or, UInt16.toNat_shiftLeft, UInt8.toNat_toUInt16, UInt16.toNat_toUInt8,
    UInt16.toNat_shiftRight, h8, Nat.shiftRight_eq_div_pow]
  have hhigh : w.toNat / 2 ^ 8 % 2 ^ 8 = w.toNat / 2 ^ 8 := Nat.mod_eq_of_lt (by omega)
  have hfits : (w.toNat / 2 ^ 8) <<< 8 % 2 ^ 16 = (w.toNat / 2 ^ 8) <<< 8 := by
    apply Nat.mod_eq_of_lt
    rw [Nat.shiftLeft_eq]
    omega
  rw [hhigh, hfits, ← Nat.shiftLeft_add_eq_or_of_lt (Nat.mod_lt _ (by decide)), Nat.shiftLeft_eq]
  omega

theorem Holds.word {start : ℕ} {w : UInt16} (h : Holds m start (wordBytes w)) : word m start = w := by
  obtain ⟨hhigh, hlow, -⟩ := h
  rw [ByteLayout.word, hhigh, hlow, join_wordBytes]

end Capture.ByteLayout
