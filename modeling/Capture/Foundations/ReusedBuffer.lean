import Capture.Foundations.FormattedScan
import Mathlib.Data.List.TakeWhile

/-! # Buffers that are overwritten in place

Two things a C program reuses without clearing: a fixed character array, into which strings
are copied with `strncpy`, and a buffer of records, whose slots are overwritten before new
ones are appended. Whatever is in either, what is written is all that is read: a zeroed array
holds the string that was copied into it (`text_strncpy_zeroed`), and slots that are filled
like fresh records hold just these records (`refill_eq`), the last ones of any number of
passes (`getElem?_foldl_writePass`). -/
namespace Capture.ReusedBuffer
open SeparatedText FormattedScan

set_option autoImplicit false

/-! ## Character arrays -/

/-- A `char` array of `n`. -/
structure CharArray (n : ℕ) where
  chars : Text
  length_eq : chars.length = n
  deriving DecidableEq

namespace CharArray

variable {n : ℕ}

@[ext] theorem ext {a b : CharArray n} (h : a.chars = b.chars) : a = b := by
  cases a
  cases b
  cases h
  rfl

def zeroed (n : ℕ) : CharArray n := ⟨List.replicate n '\x00', List.length_replicate⟩

/-- `memset` of the whole array to 0. -/
def memset (a : CharArray n) : CharArray n := ⟨a.chars.map fun _ => '\x00', by rw [List.length_map, a.length_eq]⟩

/-- `strncpy` of at most `m` characters: the string in `t`, then NULs up to `m`; what is
behind `m` stays. -/
def strncpy (m : ℕ) (t : Text) (a : CharArray n) : CharArray n :=
  ⟨(((cString t).take m).rightpad m '\x00' ++ a.chars.drop m).take n, by
    have h := a.length_eq
    simp only [List.length_take, List.length_append, List.length_rightpad, List.length_drop]
    omega⟩

/-- The string in the array. -/
def text (a : CharArray n) : Text := cString a.chars

theorem memset_eq (a : CharArray n) : a.memset = zeroed n := by
  apply ext
  show a.chars.map (fun _ => '\x00') = List.replicate n '\x00'
  rw [List.map_const', a.length_eq]

theorem strncpy_zeroed_chars {m : ℕ} (hm : m < n) (t : Text) :
    ((zeroed n).strncpy m t).chars = ((cString t).take m).rightpad n '\x00' := by
  have hlen : ((cString t).take m).length ≤ m := List.length_take_le _ _
  have hsplit : n - ((cString t).take m).length = (m - ((cString t).take m).length) + (n - m) := by omega
  simp only [strncpy, zeroed, List.rightpad, List.drop_replicate]
  rw [hsplit, ← List.replicate_append_replicate, ← List.append_assoc]
  exact List.take_of_length_le (by simp only [List.length_append, List.length_replicate]; omega)

theorem text_strncpy_zeroed {m : ℕ} (hm : m < n) (t : Text) :
    ((zeroed n).strncpy m t).text = (cString t).take m := by
  have hclean : ∀ c ∈ (cString t).take m, c ≠ '\x00' := fun c hc => by
    simpa using List.mem_takeWhile_imp (List.mem_of_mem_take hc)
  rw [text, strncpy_zeroed_chars hm, List.rightpad, cString, List.takeWhile_append_of_pos (by simpa using hclean)]
  simp

/-- Everything from the end of the string on is NUL, the last character among it. -/
theorem strncpy_zeroed_tail {m : ℕ} (hm : m < n) (t : Text) (i : ℕ) (hi : m ≤ i) (hn : i < n) :
    ((zeroed n).strncpy m t).chars[i]? = some '\x00' := by
  have hlen : ((cString t).take m).length ≤ m := List.length_take_le _ _
  rw [strncpy_zeroed_chars hm, List.rightpad, List.getElem?_append_right (hlen.trans hi), List.getElem?_replicate,
    if_pos (by omega)]

end CharArray

/-! ## Slots -/

section Slots

variable {α β : Type}

/-- Overwrite the slots from `idx` on, one for each item, until either runs out: the items
not written, and the slots. -/
def overwrite (fill : α → β → β) : ℕ → List α → List β → List α × List β
  | _, [], data => ([], data)
  | idx, a :: as, data =>
      match data[idx]? with
      | some slot => overwrite fill (idx + 1) as (data.set idx (fill a slot))
      | none => (a :: as, data)

/-- Overwrite slots from the first one on, and append a record for each item left. -/
def refill (fill : α → β → β) (fresh : α → β) (as : List α) (data : List β) : List β :=
  let r := overwrite fill 0 as data
  if r.2.length < as.length then r.2 ++ r.1.map fresh else r.2

theorem overwrite_eq (fill : α → β → β) (fresh : α → β) (h : ∀ a slot, fill a slot = fresh a) (as : List α)
    (pre data : List β) :
    overwrite fill pre.length as (pre ++ data) =
      (as.drop data.length, pre ++ (as.take data.length).map fresh ++ data.drop as.length) := by
  induction as generalizing pre data with
  | nil => simp [overwrite]
  | cons a as ih =>
    cases data with
    | nil => simp [overwrite]
    | cons slot data =>
      have hnext := ih (pre ++ [fresh a]) data
      rw [List.length_append, List.length_singleton, List.append_assoc, List.singleton_append] at hnext
      simp only [overwrite, List.getElem?_append_right le_rfl, Nat.sub_self, List.getElem?_cons_zero, h,
        List.set_append_right _ _ le_rfl, List.set_cons_zero, hnext]
      simp

/-- When an overwritten slot is as a fresh one, nothing of the old records is left in the
first slots, and nothing of the others is touched. -/
theorem refill_eq (fill : α → β → β) (fresh : α → β) (h : ∀ a slot, fill a slot = fresh a) (as : List α)
    (data : List β) : refill fill fresh as data = as.map fresh ++ data.drop as.length := by
  have hover := overwrite_eq fill fresh h as [] data
  rw [List.length_nil, List.nil_append, List.nil_append] at hover
  simp only [refill, hover]
  by_cases hlt : data.length < as.length
  · have hdrop : data.drop as.length = [] := List.drop_eq_nil_of_le hlt.le
    rw [hdrop, List.append_nil, List.append_nil, if_pos (by simp [hlt]), ← List.map_append, List.take_append_drop]
  · rw [List.take_of_length_le (not_lt.mp hlt), if_neg (by simp)]

end Slots

/-! ## Passes over a buffer -/

section Passes

variable {β : Type}

/-- One pass writes `ws` from the first slot on and leaves the rest. -/
def writePass (data ws : List β) : List β := ws ++ data.drop ws.length

theorem writePass_nil (data : List β) : writePass data [] = data := by simp [writePass]

theorem getElem?_writePass (data ws : List β) (i : ℕ) : (writePass data ws)[i]? = ws[i]?.or data[i]? := by
  unfold writePass
  by_cases hi : i < ws.length
  · rw [List.getElem?_append_left hi, List.getElem?_eq_getElem hi, Option.some_or]
  · rw [List.getElem?_append_right (not_lt.mp hi), List.getElem?_drop, List.getElem?_eq_none (not_lt.mp hi),
      Option.none_or, Nat.add_sub_cancel' (not_lt.mp hi)]

/-- A slot holds what the last pass that got so far put there. -/
theorem getElem?_foldl_writePass (wss : List (List β)) (data : List β) (i : ℕ) :
    (wss.foldl writePass data)[i]? = (wss.reverse.findSome? (·[i]?)).or data[i]? := by
  induction wss generalizing data with
  | nil => simp
  | cons ws wss ih =>
    rw [List.foldl_cons, ih, getElem?_writePass, List.reverse_cons, List.findSome?_append, List.findSome?_singleton,
      Option.or_assoc]

/-- The buffer is as long as the longest pass. -/
theorem length_foldl_writePass (wss : List (List β)) (data : List β) :
    (wss.foldl writePass data).length = (wss.map List.length).foldl max data.length := by
  induction wss generalizing data with
  | nil => rfl
  | cons ws wss ih =>
    have hpass : (writePass data ws).length = max data.length ws.length := by
      rw [writePass, List.length_append, List.length_drop]
      omega
    rw [List.foldl_cons, ih, hpass, List.map_cons, List.foldl_cons]

end Passes

end Capture.ReusedBuffer
