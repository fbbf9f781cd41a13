import Mathlib.Data.List.Basic
import Mathlib.Data.List.Count
import Mathlib.Tactic.IntervalCases

/-! # Texts, numerals and unique decoding at a separator

A text is a list of characters; a byte above 127 is the character of that code.
The cutting lemmas say that a word with one marked occurrence of a separator
determines the parts on both sides, when the separator is absent from the parts
before it (`cut_first`) or after it (`cut_last`). Numerals are the digit strings
`std::to_string` and `%x` print. -/
namespace Capture.SeparatedText

set_option autoImplicit false

abbrev Text := List Char

/-! ## Cutting at a separator -/

section Cut
variable {α : Type}

theorem cut_first (a : α) (xs xs' ys ys' : List α) (hx : a ∉ xs) (hx' : a ∉ xs')
    (h : xs ++ a :: ys = xs' ++ a :: ys') : xs = xs' ∧ ys = ys' := by
  induction xs generalizing xs' with
  | nil =>
    cases xs' with
    | nil => exact ⟨rfl, (List.cons.inj h).2⟩
    | cons x' xs' => exact absurd ((List.cons.inj h).1 ▸ List.mem_cons_self) hx'
  | cons x xs ih =>
    cases xs' with
    | nil => exact absurd ((List.cons.inj h).1 ▸ List.mem_cons_self) hx
    | cons x' xs' =>
      obtain ⟨hhead, htail⟩ := List.cons.inj h
      obtain ⟨hxs, hys⟩ := ih xs' (fun hm => hx (List.mem_cons_of_mem _ hm))
        (fun hm => hx' (List.mem_cons_of_mem _ hm)) htail
      exact ⟨by rw [hhead, hxs], hys⟩

theorem cut_last (a : α) (xs xs' ys ys' : List α) (hy : a ∉ ys) (hy' : a ∉ ys')
    (h : xs ++ a :: ys = xs' ++ a :: ys') : xs = xs' ∧ ys = ys' := by
  have hrev := congrArg List.reverse h
  simp only [List.reverse_append, List.reverse_cons, List.append_assoc, List.singleton_append] at hrev
  obtain ⟨hys, hxs⟩ := cut_first a ys.reverse ys'.reverse xs.reverse xs'.reverse
    (by simpa using hy) (by simpa using hy') hrev
  exact ⟨List.reverse_injective hxs, List.reverse_injective hys⟩

theorem intercalate_injective [DecidableEq α] (a : α) (xs ys : List (List α))
    (hx : ∀ x ∈ xs, a ∉ x) (hy : ∀ y ∈ ys, a ∉ y) (hxs : xs ≠ []) (hys : ys ≠ [])
    (h : [a].intercalate xs = [a].intercalate ys) : xs = ys := by
  rw [← List.splitOn_intercalate a hx hxs, h, List.splitOn_intercalate a hy hys]

theorem mem_intercalate {a c : α} {xs : List (List α)} (h : c ∈ [a].intercalate xs) :
    c = a ∨ ∃ x ∈ xs, c ∈ x := by
  induction xs with
  | nil => simp at h
  | cons x xs ih =>
    cases xs with
    | nil => exact Or.inr ⟨x, by simp, by simpa using h⟩
    | cons y ys =>
      rw [List.intercalate_cons_cons, List.mem_append, List.mem_append] at h
      rcases h with (h | h) | h
      · exact Or.inr ⟨x, by simp, h⟩
      · exact Or.inl (by simpa using h)
      · rcases ih h with h | ⟨z, hz, hc⟩
        · exact Or.inl h
        · exact Or.inr ⟨z, List.mem_cons_of_mem _ hz, hc⟩

/-- Joining `n + 1` words that lack the separator leaves `n` occurrences of it. -/
theorem count_intercalate [DecidableEq α] (a : α) (xs : List (List α)) (hx : ∀ x ∈ xs, a ∉ x) :
    ([a].intercalate xs).count a = xs.length - 1 := by
  induction xs with
  | nil => simp
  | cons x xs ih =>
    have h0 : x.count a = 0 := List.count_eq_zero.mpr (hx x (by simp))
    cases xs with
    | nil => simpa using h0
    | cons y ys =>
      rw [List.intercalate_cons_cons, List.count_append, List.count_append, h0,
        ih fun z hz => hx z (List.mem_cons_of_mem _ hz)]
      simp
      omega

theorem length_intercalate_le (a : α) (xs : List (List α)) :
    ([a].intercalate xs).length ≤ (xs.map fun x => x.length + 1).sum := by
  induction xs with
  | nil => simp
  | cons x xs ih =>
    cases xs with
    | nil => simp
    | cons y ys =>
      rw [List.intercalate_cons_cons, List.map_cons, List.sum_cons, List.length_append, List.length_append,
        List.length_singleton]
      omega

end Cut

/-! ## Numerals -/

/-- Decimal digits, as `std::to_string` of an unsigned number. -/
def decimal (n : ℕ) : Text := Nat.toDigits 10 n

def decimalInt : ℤ → Text
  | .ofNat n => decimal n
  | .negSucc n => '-' :: decimal (n + 1)

def hexadecimal (n : ℕ) : Text := Nat.toDigits 16 n

theorem decimal_ne_nil (n : ℕ) : decimal n ≠ [] := Nat.toDigits_ne_nil

theorem hexadecimal_ne_nil (n : ℕ) : hexadecimal n ≠ [] := Nat.toDigits_ne_nil

theorem isDigit_of_mem_decimal {n : ℕ} {c : Char} (h : c ∈ decimal n) : c.isDigit = true :=
  Nat.isDigit_of_mem_toDigits (by decide) (by decide) h

theorem not_mem_decimal {c : Char} (hc : c.isDigit = false) (n : ℕ) : c ∉ decimal n := by
  intro h
  rw [isDigit_of_mem_decimal h] at hc
  cases hc

theorem decimal_injective : Function.Injective decimal := by
  intro a b h
  have hparse := congrArg (fun digits => Nat.ofDigitChars 10 digits 0) h
  simpa [decimal] using hparse

theorem decimalInt_natCast (n : ℕ) : decimalInt n = decimal n := rfl

theorem not_mem_decimalInt {c : Char} (hc : c.isDigit = false) (hdash : c ≠ '-') (z : ℤ) : c ∉ decimalInt z := by
  cases z with
  | ofNat n => exact not_mem_decimal hc n
  | negSucc n =>
    intro h
    rcases List.mem_cons.mp h with h | h
    · exact hdash h
    · exact not_mem_decimal hc (n + 1) h

theorem eq_natCast_of_decimalInt {z : ℤ} {n : ℕ} (h : decimalInt z = decimal n) : z = n := by
  cases z with
  | ofNat m => exact congrArg Int.ofNat (decimal_injective h)
  | negSucc m =>
    have hdash : '-' ∈ decimal n := by
      rw [← h]
      exact List.mem_cons_self
    exact absurd hdash (not_mem_decimal (by decide) n)

theorem decimalInt_injective : Function.Injective decimalInt := by
  intro y z h
  cases z with
  | ofNat n => exact eq_natCast_of_decimalInt h
  | negSucc n =>
    cases y with
    | ofNat m => exact (eq_natCast_of_decimalInt h.symm).symm
    | negSucc m =>
      have hnm : m = n := Nat.succ.inj (decimal_injective (List.cons.inj h).2)
      exact congrArg Int.negSucc hnm

theorem digitChar_injective {a b : ℕ} (ha : a < 16) (hb : b < 16)
    (h : Nat.digitChar a = Nat.digitChar b) : a = b := by
  interval_cases a <;> interval_cases b <;> first | rfl | exact absurd h (by decide)

theorem hexadecimal_injective : Function.Injective hexadecimal := by
  intro a
  induction a using Nat.strong_induction_on with
  | _ a ih =>
    intro b h
    unfold hexadecimal at h ih
    rw [Nat.toDigits_eq_if (n := a) (by decide), Nat.toDigits_eq_if (n := b) (by decide)] at h
    split at h <;> split at h
    · next ha hb => exact digitChar_injective ha hb (by simpa using h)
    · have hl := congrArg List.length h
      have := Nat.length_toDigits_pos (b := 16) (n := b / 16)
      simp at hl
    · have hl := congrArg List.length h
      have := Nat.length_toDigits_pos (b := 16) (n := a / 16)
      simp at hl
    · next ha hb =>
      obtain ⟨hinit, hlast⟩ := List.append_inj' h rfl
      have hdiv := ih (a / 16) (by omega) hinit
      have hmod := digitChar_injective (Nat.mod_lt a (by decide)) (Nat.mod_lt b (by decide))
        (by simpa using hlast)
      omega

theorem length_decimal_le (n k : ℕ) (hk : 0 < k) (h : n < 10 ^ k) : (decimal n).length ≤ k :=
  (Nat.length_toDigits_le_iff (by decide) hk).mpr h

theorem length_decimal_lt_three_iff (n : ℕ) : (decimal n).length < 3 ↔ n < 100 := by
  have h := Nat.length_toDigits_le_iff (b := 10) (n := n) (k := 2) (by decide) (by decide)
  unfold decimal
  omega

theorem length_hexadecimal_le (n k : ℕ) (hk : 0 < k) (h : n < 16 ^ k) : (hexadecimal n).length ≤ k :=
  (Nat.length_toDigits_le_iff (by decide) hk).mpr h

theorem mem_hexadecimal {n : ℕ} {c : Char} (h : c ∈ hexadecimal n) :
    ∃ d < 16, c = Nat.digitChar d := by
  induction n using Nat.strong_induction_on with
  | _ n ih =>
    unfold hexadecimal at h ih
    rw [Nat.toDigits_eq_if (by decide)] at h
    split at h
    · next hn => exact ⟨n, hn, by simpa using h⟩
    · rcases List.mem_append.mp h with h | h
      · exact ih (n / 16) (by omega) h
      · exact ⟨n % 16, Nat.mod_lt n (by decide), by simpa using h⟩

theorem not_mem_hexadecimal {c : Char} (hc : ∀ d < 16, Nat.digitChar d ≠ c) (n : ℕ) :
    c ∉ hexadecimal n := by
  intro h
  obtain ⟨d, hd, rfl⟩ := mem_hexadecimal h
  exact hc d hd rfl

end Capture.SeparatedText
