import Mathlib.Data.Finset.Card
import Mathlib.Data.List.Forall2
import Mathlib.Data.List.Sort
import Mathlib.Order.Basic

/-! # Finite maps kept in ascending key order

A `Table` is the association list an ordered map iterates over, with the strict
ascent of its keys carried as a field. A set is a table of units. Nothing here
depends on what the keys or the values are. -/
namespace Capture.OrderedTable

set_option autoImplicit false

variable {κ υ : Type} [LinearOrder κ]

/-! ## Insertion into the underlying list -/

/-- Insert `k ↦ v` in key order, replacing the value of a key already present. -/
def insertEntry (k : κ) (v : υ) : List (κ × υ) → List (κ × υ)
  | [] => [(k, v)]
  | e :: es =>
      if k < e.1 then (k, v) :: e :: es
      else if k = e.1 then (k, v) :: es
      else e :: insertEntry k v es

def lookup (k : κ) : List (κ × υ) → Option υ
  | [] => none
  | e :: es => if k = e.1 then some e.2 else lookup k es

theorem insertEntry_nil (k : κ) (v : υ) : insertEntry k v [] = [(k, v)] := rfl

theorem insertEntry_cons (k : κ) (v : υ) (e : κ × υ) (es : List (κ × υ)) :
    insertEntry k v (e :: es) =
      if k < e.1 then (k, v) :: e :: es else if k = e.1 then (k, v) :: es else e :: insertEntry k v es := rfl

theorem lookup_nil (k : κ) : lookup k ([] : List (κ × υ)) = none := rfl

theorem lookup_cons (k : κ) (e : κ × υ) (es : List (κ × υ)) :
    lookup k (e :: es) = if k = e.1 then some e.2 else lookup k es := rfl

theorem mem_keys_insertEntry (k x : κ) (v : υ) (es : List (κ × υ)) :
    x ∈ (insertEntry k v es).map Prod.fst ↔ x = k ∨ x ∈ es.map Prod.fst := by
  induction es with
  | nil => simp [insertEntry_nil]
  | cons e es ih =>
    simp only [insertEntry_cons]
    split
    · simp
    · split
      · next h => simp [h]
      · simp only [List.map_cons, List.mem_cons, ih]
        exact or_left_comm

theorem insertEntry_sorted (k : κ) (v : υ) (es : List (κ × υ))
    (h : (es.map Prod.fst).Pairwise (· < ·)) :
    ((insertEntry k v es).map Prod.fst).Pairwise (· < ·) := by
  induction es with
  | nil => simp [insertEntry_nil]
  | cons e es ih =>
    obtain ⟨hhead, htail⟩ := List.pairwise_cons.mp h
    simp only [insertEntry_cons]
    split
    · next hlt =>
      refine List.pairwise_cons.mpr ⟨?_, h⟩
      intro x hx
      rcases List.mem_cons.mp hx with rfl | hx
      · exact hlt
      · exact hlt.trans (hhead x hx)
    · next hnlt =>
      split
      · next heq =>
        subst heq
        exact List.pairwise_cons.mpr ⟨hhead, htail⟩
      · next hne =>
        refine List.pairwise_cons.mpr ⟨?_, ih htail⟩
        intro x hx
        rcases (mem_keys_insertEntry k x v es).mp hx with rfl | hx
        · exact lt_of_le_of_ne (not_lt.mp hnlt) (Ne.symm hne)
        · exact hhead x hx

theorem lookup_insertEntry (k x : κ) (v : υ) (es : List (κ × υ))
    (h : (es.map Prod.fst).Pairwise (· < ·)) :
    lookup x (insertEntry k v es) = if x = k then some v else lookup x es := by
  induction es with
  | nil => simp [insertEntry_nil, lookup_cons, lookup_nil]
  | cons e es ih =>
    obtain ⟨hhead, htail⟩ := List.pairwise_cons.mp h
    simp only [insertEntry_cons]
    split
    · simp [lookup_cons]
    · split
      · next heq =>
        subst heq
        by_cases hx : x = e.1 <;> simp [lookup_cons, hx]
      · next hne =>
        by_cases hx : x = e.1
        · subst hx
          simp [lookup_cons, Ne.symm hne]
        · simp [lookup_cons, hx, ih htail]

theorem lookup_eq_none_iff (k : κ) (es : List (κ × υ)) :
    lookup k es = none ↔ k ∉ es.map Prod.fst := by
  induction es with
  | nil => simp [lookup_nil]
  | cons e es ih =>
    by_cases h : k = e.1
    · simp [lookup_cons, h]
    · simp [lookup_cons, h, ih]

theorem lookup_of_mem (es : List (κ × υ)) (h : (es.map Prod.fst).Pairwise (· < ·))
    (k : κ) (v : υ) (hm : (k, v) ∈ es) : lookup k es = some v := by
  induction es with
  | nil => cases hm
  | cons e es ih =>
    obtain ⟨hhead, htail⟩ := List.pairwise_cons.mp h
    rcases List.mem_cons.mp hm with rfl | hm
    · simp [lookup_cons]
    · have hlt : e.1 < k := hhead k (List.mem_map.mpr ⟨(k, v), hm, rfl⟩)
      rw [lookup_cons, if_neg hlt.ne']
      exact ih htail hm

theorem mem_of_lookup (es : List (κ × υ)) (k : κ) (v : υ) (h : lookup k es = some v) :
    (k, v) ∈ es := by
  induction es with
  | nil => cases h
  | cons e es ih =>
    by_cases hk : k = e.1
    · rw [lookup_cons, if_pos hk, Option.some.injEq] at h
      subst hk h
      exact List.mem_cons_self
    · rw [lookup_cons, if_neg hk] at h
      exact List.mem_cons_of_mem _ (ih h)

/-! ## Tables -/

/-- An ordered map: its entries in strictly ascending key order. -/
structure Table (κ υ : Type) [LinearOrder κ] where
  entries : List (κ × υ)
  sorted : (entries.map Prod.fst).Pairwise (· < ·)

namespace Table

def empty : Table κ υ := ⟨[], List.Pairwise.nil⟩

instance : Inhabited (Table κ υ) := ⟨empty⟩

@[ext] theorem ext {s t : Table κ υ} (h : s.entries = t.entries) : s = t := by
  cases s
  cases t
  cases h
  rfl

def keys (t : Table κ υ) : List κ := t.entries.map Prod.fst

def keySet (t : Table κ υ) : Finset κ := t.keys.toFinset

def size (t : Table κ υ) : ℕ := t.entries.length

def find (t : Table κ υ) (k : κ) : Option υ := lookup k t.entries

def insert (t : Table κ υ) (k : κ) (v : υ) : Table κ υ :=
  ⟨insertEntry k v t.entries, insertEntry_sorted k v t.entries t.sorted⟩

def erase (t : Table κ υ) (k : κ) : Table κ υ :=
  ⟨t.entries.filter (·.1 ≠ k), t.sorted.sublist (List.filter_sublist.map Prod.fst)⟩

theorem keys_sorted (t : Table κ υ) : t.keys.Pairwise (· < ·) := t.sorted

theorem keys_nodup (t : Table κ υ) : t.keys.Nodup :=
  t.sorted.imp fun h => h.ne

@[simp] theorem mem_keySet (t : Table κ υ) (k : κ) : k ∈ t.keySet ↔ k ∈ t.keys :=
  List.mem_toFinset

theorem card_keySet (t : Table κ υ) : t.keySet.card = t.size := by
  rw [keySet, List.toFinset_card_of_nodup t.keys_nodup, keys, List.length_map, size]

@[simp] theorem mem_keys_insert (t : Table κ υ) (k x : κ) (v : υ) :
    x ∈ (t.insert k v).keys ↔ x = k ∨ x ∈ t.keys :=
  mem_keys_insertEntry k x v t.entries

@[simp] theorem keySet_insert (t : Table κ υ) (k : κ) (v : υ) :
    (t.insert k v).keySet = Insert.insert k t.keySet := by
  ext x
  simp

theorem find_insert (t : Table κ υ) (k x : κ) (v : υ) :
    (t.insert k v).find x = if x = k then some v else t.find x :=
  lookup_insertEntry k x v t.entries t.sorted

theorem find_eq_none_iff (t : Table κ υ) (k : κ) : t.find k = none ↔ k ∉ t.keys :=
  lookup_eq_none_iff k t.entries

theorem find_isSome_iff (t : Table κ υ) (k : κ) : (∃ v, t.find k = some v) ↔ k ∈ t.keys := by
  rw [← Option.ne_none_iff_exists', Ne, find_eq_none_iff, not_not]

theorem mem_entries_iff (t : Table κ υ) (k : κ) (v : υ) :
    (k, v) ∈ t.entries ↔ t.find k = some v :=
  ⟨lookup_of_mem t.entries t.sorted k v, mem_of_lookup t.entries k v⟩

theorem lookup_filter_ne (k x : κ) (es : List (κ × υ)) :
    lookup x (es.filter (·.1 ≠ k)) = if x = k then none else lookup x es := by
  induction es with
  | nil => simp [lookup_nil]
  | cons e es ih =>
    by_cases he : e.1 = k
    · rw [List.filter_cons_of_neg (by simp [he]), ih]
      by_cases hx : x = k
      · simp [hx]
      · simp [hx, lookup_cons, he]
    · rw [List.filter_cons_of_pos (by simp [he]), lookup_cons, lookup_cons, ih]
      by_cases hx : x = e.1
      · simp [hx, he]
      · simp [hx]

theorem find_erase (t : Table κ υ) (k x : κ) : (t.erase k).find x = if x = k then none else t.find x :=
  lookup_filter_ne k x t.entries

theorem mem_keys_erase (t : Table κ υ) (k x : κ) : x ∈ (t.erase k).keys ↔ x ≠ k ∧ x ∈ t.keys := by
  rw [← find_isSome_iff, ← find_isSome_iff, find_erase]
  by_cases hx : x = k <;> simp [hx]

theorem keys_erase (t : Table κ υ) (k : κ) : (t.erase k).keys = t.keys.filter (· ≠ k) := by
  unfold keys erase
  rw [List.filter_map]
  rfl

theorem keys_eq_of_mem_iff (t : Table κ υ) {l : List κ} (hl : l.Pairwise (· < ·)) (h : ∀ k, k ∈ t.keys ↔ k ∈ l) :
    t.keys = l :=
  List.Pairwise.eq_of_mem_iff t.sorted hl fun {k} => h k

theorem keys_insert_of_mem (t : Table κ υ) (k : κ) (v : υ) (h : k ∈ t.keys) : (t.insert k v).keys = t.keys := by
  refine keys_eq_of_mem_iff _ t.sorted fun x => ?_
  rw [mem_keys_insert]
  exact or_iff_right_of_imp fun hx => hx ▸ h

theorem mem_keys_foldl_insert (xs : List (κ × υ)) (t : Table κ υ) (x : κ) :
    x ∈ (xs.foldl (fun t e => t.insert e.1 e.2) t).keys ↔ x ∈ t.keys ∨ x ∈ xs.map Prod.fst := by
  induction xs generalizing t with
  | nil => simp
  | cons e xs ih =>
    rw [List.foldl_cons, ih, mem_keys_insert, List.map_cons, List.mem_cons]
    tauto

theorem map_entries {β : Type} (t : Table κ υ) (f : κ → υ → β) :
    t.entries.map (fun e => some (f e.1 e.2)) = t.keys.map fun k => (t.find k).map (f k) := by
  rw [keys, List.map_map]
  refine List.map_congr_left fun e he => ?_
  have hfind : t.find e.1 = some e.2 := (mem_entries_iff t e.1 e.2).mp he
  rw [Function.comp_apply, hfind]
  rfl

/-- Tables with the same keys, compared entry by entry. -/
theorem map_entries_congr {ω β : Type} (t : Table κ υ) (t' : Table κ ω) (hkeys : t.keys = t'.keys) (f : κ → υ → β)
    (g : κ → ω → β) (h : ∀ k v w, t.find k = some v → t'.find k = some w → f k v = g k w) :
    (t.entries.map fun e => f e.1 e.2) = t'.entries.map fun e => g e.1 e.2 := by
  have hentries : t.entries.map (fun e => some (f e.1 e.2)) = t'.entries.map fun e => some (g e.1 e.2) := by
    rw [map_entries, map_entries, hkeys]
    refine List.map_congr_left fun k hk => ?_
    obtain ⟨v, hv⟩ := (find_isSome_iff t k).mpr (hkeys ▸ hk)
    obtain ⟨w, hw⟩ := (find_isSome_iff t' k).mpr hk
    rw [hv, hw, Option.map_some, Option.map_some, h k v w hv hw]
  refine List.map_injective_iff.mpr (Option.some_injective β) ?_
  rw [List.map_map, List.map_map]
  exact hentries

/-- Tables are told apart by what `find` finds. -/
theorem ext_find {s t : Table κ υ} (h : ∀ k, s.find k = t.find k) : s = t := by
  have hkeys : s.keys = t.keys :=
    keys_eq_of_mem_iff s t.keys_sorted fun k => by rw [← find_isSome_iff, ← find_isSome_iff, h]
  have hentries := map_entries_congr s t hkeys Prod.mk Prod.mk fun k v w hv hw => by
    rw [h k, hw] at hv
    cases hv
    rfl
  exact ext (by simpa using hentries)

/-- Change the value of a key that may be new; a new one starts from `d`. -/
def upsert (t : Table κ υ) (k : κ) (d : υ) (g : υ → υ) : Table κ υ := t.insert k (g ((t.find k).getD d))

theorem find_upsert (t : Table κ υ) (k x : κ) (d : υ) (g : υ → υ) :
    (t.upsert k d g).find x = if x = k then some (g ((t.find k).getD d)) else t.find x :=
  find_insert t k x _

/-- Changes of different keys commute, and so do changes of one key that start from the
same value and commute on values. -/
theorem upsert_comm (t : Table κ υ) {k k' : κ} {d d' : υ} {g g' : υ → υ}
    (h : k = k' → d = d' ∧ ∀ v, g' (g v) = g (g' v)) :
    (t.upsert k d g).upsert k' d' g' = (t.upsert k' d' g').upsert k d g := by
  refine ext_find fun x => ?_
  rw [find_upsert, find_upsert, find_upsert, find_upsert]
  by_cases hk : k = k'
  · obtain ⟨rfl, hg⟩ := h hk
    subst hk
    by_cases hx : x = k
    · simp [hx, find_upsert, hg]
    · simp [hx, find_upsert]
  · have hk' : k' ≠ k := Ne.symm hk
    by_cases hx : x = k
    · simp [hx, hk, find_upsert]
    · simp [hx, hk', find_upsert]

/-! ### Iterators

An iterator is the key it points at, `none` past the end. -/

def start (t : Table κ υ) : Option κ := t.keys.head?

/-- The iterator behind the one that points at `k`. -/
def after (t : Table κ υ) (k : κ) : Option κ := t.keys.find? (k < ·)

theorem after_eq (t : Table κ υ) {pre ks : List κ} {k : κ} (h : t.keys = pre ++ k :: ks) : t.after k = ks.head? := by
  have hsorted := h ▸ t.keys_sorted
  obtain ⟨-, hks, hpre⟩ := List.pairwise_append.mp hsorted
  have hskip : pre.find? (k < ·) = none := by
    rw [List.find?_eq_none]
    intro x hx
    simpa using (hpre x hx k List.mem_cons_self).le
  rw [after, h, List.find?_append, hskip, Option.none_or, List.find?_cons_of_neg (by simp)]
  cases ks with
  | nil => rfl
  | cons k' ks => exact List.find?_cons_of_pos (by simpa using (List.pairwise_cons.mp hks).1 k' List.mem_cons_self)

theorem forall_insert {p : κ → υ → Prop} {t : Table κ υ} {k : κ} {v : υ}
    (ht : ∀ x w, t.find x = some w → p x w) (hv : p k v) :
    ∀ x w, (t.insert k v).find x = some w → p x w := by
  intro x w h
  rw [find_insert] at h
  split at h
  · next hx =>
    subst hx
    cases h
    exact hv
  · exact ht x w h

/-! ### Tables entry by entry -/

/-- The same keys, with related values. -/
def Related {ω : Type} (R : κ → υ → ω → Prop) (t : Table κ υ) (t' : Table κ ω) : Prop :=
  ∀ k, Option.Rel (R k) (t.find k) (t'.find k)

namespace Related

variable {ω : Type} {R : κ → υ → ω → Prop} {t : Table κ υ} {t' : Table κ ω}

theorem keys_eq (h : Related R t t') : t.keys = t'.keys := by
  refine keys_eq_of_mem_iff t t'.keys_sorted fun k => ?_
  rw [← find_isSome_iff, ← find_isSome_iff]
  have hk := h k
  generalize t.find k = v, t'.find k = w at hk
  cases hk <;> simp

theorem insert (h : Related R t t') {k : κ} {v : υ} {w : ω} (hv : R k v w) :
    Related R (t.insert k v) (t'.insert k w) := by
  intro x
  rw [find_insert, find_insert]
  by_cases hx : x = k
  · rw [if_pos hx, if_pos hx, hx]
    exact Option.Rel.some hv
  · rw [if_neg hx, if_neg hx]
    exact h x

theorem erase (h : Related R t t') (k : κ) : Related R (t.erase k) (t'.erase k) := by
  intro x
  rw [find_erase, find_erase]
  by_cases hx : x = k
  · rw [if_pos hx, if_pos hx]
    exact Option.Rel.none
  · rw [if_neg hx, if_neg hx]
    exact h x

theorem entries (h : Related R t t') :
    List.Forall₂ (fun e e' => e.1 = e'.1 ∧ R e.1 e.2 e'.2) t.entries t'.entries := by
  have hsome : List.Forall₂ (Option.Rel fun e e' => e.1 = e'.1 ∧ R e.1 e.2 e'.2)
      (t.entries.map fun e => some (e.1, e.2)) (t'.entries.map fun e => some (e.1, e.2)) := by
    rw [map_entries t Prod.mk, map_entries t' Prod.mk, ← h.keys_eq, List.forall₂_map_left_iff,
      List.forall₂_map_right_iff, List.forall₂_same]
    intro k _
    have hk := h k
    generalize t.find k = v, t'.find k = w at hk
    cases hk with
    | some hvw => exact Option.Rel.some ⟨rfl, hvw⟩
    | none => exact Option.Rel.none
  rw [List.forall₂_map_left_iff, List.forall₂_map_right_iff] at hsome
  refine hsome.imp fun e e' he => ?_
  cases he with
  | some hpair => exact hpair

end Related

end Table
end Capture.OrderedTable
