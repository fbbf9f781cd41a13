import Mathlib.Algebra.BigOperators.Group.Finset.Basic

/-! # Accounts

A book is a list of postings, each to the account of a key. `start` opens an account with
nothing on it, a credit adds to it and opens it if there is none, `close` ends it. An account
then holds the sum of what was credited since it was last opened, and what is written off
when an account is closed or opened again is all that is missing from the total of the
credits. Keys and amounts are arbitrary. -/
namespace Capture.Ledger

set_option autoImplicit false

inductive Posting (κ α : Type) where
  | start (k : κ)
  | credit (k : κ) (a : α)
  | close (k : κ)

variable {κ α β : Type}

namespace Posting

def key : Posting κ α → κ
  | .start k | .credit k _ | .close k => k

def map (f : α → β) : Posting κ α → Posting κ β
  | .start k => .start k
  | .credit k a => .credit k (f a)
  | .close k => .close k

def isCredit : Posting κ α → Bool
  | .credit _ _ => true
  | _ => false

def amount [Zero α] : Posting κ α → α
  | .credit _ a => a
  | _ => 0

@[simp] theorem key_map (f : α → β) (e : Posting κ α) : (e.map f).key = e.key := by
  cases e <;> rfl

end Posting

variable [AddCommMonoid α] [AddCommMonoid β]

/-! ## One account -/

/-- What is on the account after a posting to it, `none` for no account. -/
def post (m : Option α) : Posting κ α → Option α
  | .start _ => some 0
  | .credit _ a => some (m.getD 0 + a)
  | .close _ => none

theorem post_map (f : α →+ β) (m : Option α) (e : Posting κ α) : (post m e).map f = post (m.map f) (e.map f) := by
  cases e with
  | start k => simp [post, Posting.map]
  | credit k a => cases m <;> simp [post, Posting.map]
  | close k => rfl

theorem post_getD (m : Option α) (e : Posting κ α) :
    (post m e).getD 0 + (if e.isCredit then 0 else m.getD 0) = m.getD 0 + e.amount := by
  cases e <;> simp [post, Posting.isCredit, Posting.amount]

/-- Credits add up. -/
theorem foldl_post_credits (es : List (Posting κ α)) (h : ∀ e ∈ es, e.isCredit = true) (m : Option α) :
    es.foldl post m = if es = [] then m else some (m.getD 0 + (es.map Posting.amount).sum) := by
  induction es generalizing m with
  | nil => rfl
  | cons e es ih =>
    obtain ⟨he, hes⟩ := List.forall_mem_cons.mp h
    rw [List.foldl_cons, ih hes, if_neg (List.cons_ne_nil e es), List.map_cons, List.sum_cons]
    cases e with
    | start k => cases he
    | close k => cases he
    | credit k a =>
      split
      · next hnil => simp [hnil, post, Posting.amount]
      · simp [post, Posting.amount, add_assoc]

theorem sum_amount_of_no_credit (es : List (Posting κ α)) (h : ∀ e ∈ es, e.isCredit = false) :
    (es.map Posting.amount).sum = 0 := by
  refine List.sum_eq_zero fun a ha => ?_
  obtain ⟨e, he, rfl⟩ := List.mem_map.mp ha
  cases e with
  | credit k a => cases h _ he
  | _ => rfl

variable [DecidableEq κ]

def postings (k : κ) (es : List (Posting κ α)) : List (Posting κ α) := es.filter fun e => e.key = k

/-- The account of `k` after the postings of a book, from what was on it before. -/
def advance (k : κ) (m : Option α) (es : List (Posting κ α)) : Option α := (postings k es).foldl post m

def account (k : κ) (es : List (Posting κ α)) : Option α := advance k none es

/-- What is credited to `k` in the book. -/
def credited (k : κ) (es : List (Posting κ α)) : α := ((postings k es).map Posting.amount).sum

theorem advance_append (k : κ) (m : Option α) (es fs : List (Posting κ α)) :
    advance k m (es ++ fs) = advance k (advance k m es) fs := by
  rw [advance, postings, List.filter_append, List.foldl_append]
  rfl

theorem advance_cons (k : κ) (m : Option α) (e : Posting κ α) (es : List (Posting κ α)) :
    advance k m (e :: es) = advance k (if e.key = k then post m e else m) es := by
  unfold advance postings
  by_cases h : e.key = k
  · rw [List.filter_cons_of_pos (by simpa using h), List.foldl_cons, if_pos h]
  · rw [List.filter_cons_of_neg (by simpa using h), if_neg h]

theorem account_append (k : κ) (es fs : List (Posting κ α)) : account k (es ++ fs) = advance k (account k es) fs :=
  advance_append k none es fs

/-- No posting of the book opens or closes the account of `k`. -/
def Undisturbed (k : κ) (es : List (Posting κ α)) : Prop := ∀ e ∈ postings k es, e.isCredit = true

theorem advance_of_undisturbed {k : κ} {es : List (Posting κ α)} (h : Undisturbed k es) (m : Option α) :
    advance k m es = if postings k es = [] then m else some (m.getD 0 + credited k es) :=
  foldl_post_credits (postings k es) h m

/-- An open account holds its credits since it was opened, on top of what it opened with. -/
theorem advance_some_of_undisturbed {k : κ} {es : List (Posting κ α)} (h : Undisturbed k es) (a : α) :
    advance k (some a) es = some (a + credited k es) := by
  rw [advance_of_undisturbed h]
  split
  · next hnil => simp [credited, hnil]
  · rfl

/-- Accounts opened in one go. -/
theorem advance_map_start (k : κ) (ks : List κ) (m : Option α) :
    advance k m (ks.map .start) = if k ∈ ks then some 0 else m := by
  induction ks generalizing m with
  | nil => rfl
  | cons k' ks ih =>
    have hkey : (Posting.start k' : Posting κ α).key = k' := rfl
    rw [List.map_cons, advance_cons, hkey, ih]
    by_cases h : k' = k
    · simp [h, post]
    · simp [h, Ne.symm h]

theorem advance_map_close (k : κ) (ks : List κ) (m : Option α) :
    advance k m (ks.map .close) = if k ∈ ks then none else m := by
  induction ks generalizing m with
  | nil => rfl
  | cons k' ks ih =>
    have hkey : (Posting.close k' : Posting κ α).key = k' := rfl
    rw [List.map_cons, advance_cons, hkey, ih]
    by_cases h : k' = k
    · simp [h, post]
    · simp [h, Ne.symm h]

theorem advance_map (f : α →+ β) (k : κ) (m : Option α) (es : List (Posting κ α)) :
    (advance k m es).map f = advance k (m.map f) (es.map (Posting.map f)) := by
  induction es generalizing m with
  | nil => rfl
  | cons e es ih =>
    rw [advance_cons, List.map_cons, advance_cons, ih, Posting.key_map]
    split
    · rw [post_map]
    · rfl

/-- Amounts may be converted before or after they are added up. -/
theorem account_map (f : α →+ β) (k : κ) (es : List (Posting κ α)) :
    (account k es).map f = account k (es.map (Posting.map f)) := advance_map f k none es

/-! ## The total -/

/-- What was on accounts when they were closed or opened again. -/
def writtenOff : (κ → Option α) → List (Posting κ α) → α
  | _, [] => 0
  | m, e :: es =>
      (if e.isCredit then 0 else (m e.key).getD 0) + writtenOff (Function.update m e.key (post (m e.key) e)) es

/-- Nothing credited is lost: it is on an account, or it was written off. -/
theorem sum_advance_add_writtenOff (ks : Finset κ) (m : κ → Option α) (es : List (Posting κ α))
    (h : ∀ e ∈ es, e.key ∈ ks) :
    ∑ k ∈ ks, (advance k (m k) es).getD 0 + writtenOff m es = ∑ k ∈ ks, (m k).getD 0 + (es.map Posting.amount).sum := by
  induction es generalizing m with
  | nil => rfl
  | cons e es ih =>
    obtain ⟨he, hes⟩ := List.forall_mem_cons.mp h
    have hstep : ∀ k, advance k (m k) (e :: es) = advance k (Function.update m e.key (post (m e.key) e) k) es := by
      intro k
      rw [advance_cons, Function.update_apply]
      by_cases hk : k = e.key
      · rw [if_pos hk.symm, if_pos hk, hk]
      · rw [if_neg (Ne.symm hk), if_neg hk]
    -- the account posted to and the others
    have hothers : ∑ k ∈ ks.erase e.key, (Function.update m e.key (post (m e.key) e) k).getD 0 =
        ∑ k ∈ ks.erase e.key, (m k).getD 0 := by
      refine Finset.sum_congr rfl fun k hk => ?_
      rw [Function.update_of_ne (Finset.ne_of_mem_erase hk)]
    have hsum : ∑ k ∈ ks, (Function.update m e.key (post (m e.key) e) k).getD 0 +
        (if e.isCredit then 0 else (m e.key).getD 0) = ∑ k ∈ ks, (m k).getD 0 + e.amount := by
      rw [← Finset.add_sum_erase ks _ he, ← Finset.add_sum_erase ks (fun k => (m k).getD 0) he, hothers,
        Function.update_self, add_right_comm, post_getD, add_right_comm]
    rw [Finset.sum_congr rfl fun k _ => congrArg (Option.getD · 0) (hstep k), writtenOff, List.map_cons, List.sum_cons,
      add_left_comm, ih _ hes, add_left_comm, ← add_assoc, ← add_assoc, ← hsum]

end Capture.Ledger
