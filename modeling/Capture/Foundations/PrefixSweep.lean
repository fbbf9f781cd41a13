import Mathlib.Data.Finset.Card
import Mathlib.Data.List.Sort
import Mathlib.Data.List.TakeWhile
import Mathlib.Order.Basic

/-! # A two-cursor sweep of two ascending sequences

One cursor walks `ps`, the other walks `ks`. Where they agree both advance; where
they differ only the second one advances and its key is dropped, whichever of the
two is smaller; the sweep stops as soon as either sequence ends. `met`, `dropped`
and `left` are the three parts into which the sweep cuts `ks`.

The sweep is one-sided, so `met` is not the intersection: it is the longest
initial segment of `ps` whose members all lie in `ks` (`met_eq_takeWhile`), and
`left` is empty unless that segment is all of `ps` (`mem_left_iff`). -/
namespace Capture.PrefixSweep

set_option autoImplicit false

variable {κ : Type} [LinearOrder κ]

/-- The keys at which the two cursors meet. -/
def met : List κ → List κ → List κ
  | p :: ps, k :: ks => if p = k then p :: met ps ks else met (p :: ps) ks
  | _, _ => []

/-- The keys the second cursor passes without a partner. -/
def dropped : List κ → List κ → List κ
  | p :: ps, k :: ks => if p = k then dropped ps ks else k :: dropped (p :: ps) ks
  | _, _ => []

/-- The keys the second cursor has not reached when the sweep stops. -/
def left : List κ → List κ → List κ
  | p :: ps, k :: ks => if p = k then left ps ks else left (p :: ps) ks
  | _, ks => ks

@[simp] theorem met_nil (ks : List κ) : met [] ks = [] := by cases ks <;> rfl

@[simp] theorem dropped_nil (ks : List κ) : dropped [] ks = [] := by cases ks <;> rfl

@[simp] theorem left_nil (ks : List κ) : left [] ks = ks := by cases ks <;> rfl

theorem mem_of_mem_met (ps ks : List κ) (q : κ) (h : q ∈ met ps ks) : q ∈ ks := by
  induction ks generalizing ps with
  | nil => cases ps <;> cases h
  | cons k ks ih =>
    cases ps with
    | nil => simp at h
    | cons p ps =>
      rw [met] at h
      split at h
      · next hpk =>
        rcases List.mem_cons.mp h with rfl | h
        · exact hpk ▸ List.mem_cons_self
        · exact List.mem_cons_of_mem k (ih ps h)
      · exact List.mem_cons_of_mem k (ih (p :: ps) h)

theorem dropped_sublist (ps ks : List κ) : (dropped ps ks).Sublist ks := by
  induction ks generalizing ps with
  | nil => cases ps <;> exact List.Sublist.refl _
  | cons k ks ih =>
    cases ps with
    | nil => exact List.nil_sublist _
    | cons p ps =>
      rw [dropped]
      split
      · exact (ih ps).cons k
      · exact (ih (p :: ps)).cons_cons k

theorem mem_of_mem_dropped (ps ks : List κ) (q : κ) (h : q ∈ dropped ps ks) : q ∈ ks :=
  (dropped_sublist ps ks).subset h

theorem left_sublist (ps ks : List κ) : (left ps ks).Sublist ks := by
  induction ks generalizing ps with
  | nil => cases ps <;> exact List.Sublist.refl _
  | cons k ks ih =>
    cases ps with
    | nil => exact List.Sublist.refl _
    | cons p ps =>
      rw [left]
      split
      · exact (ih ps).cons k
      · exact (ih (p :: ps)).cons k

/-! ## Initial segments -/

omit [LinearOrder κ] in
theorem takeWhile_congr {l : List κ} {f g : κ → Bool} (h : ∀ x ∈ l, f x = g x) : l.takeWhile f = l.takeWhile g := by
  induction l with
  | nil => rfl
  | cons x l ih =>
    rw [List.takeWhile_cons, List.takeWhile_cons, h x List.mem_cons_self,
      ih fun y hy => h y (List.mem_cons_of_mem x hy)]

/-- The initial segment of an ascending list that passes a test, by membership. -/
theorem mem_takeWhile_iff (test : κ → Bool) (ps : List κ) (hp : ps.Pairwise (· < ·)) (q : κ) :
    q ∈ ps.takeWhile test ↔ q ∈ ps ∧ ∀ r ∈ ps, r ≤ q → test r = true := by
  induction ps with
  | nil => simp
  | cons p ps ih =>
    obtain ⟨hhead, htail⟩ := List.pairwise_cons.mp hp
    by_cases htest : test p = true
    · rw [List.takeWhile_cons_of_pos htest, List.mem_cons, List.mem_cons, ih htail, List.forall_mem_cons]
      constructor
      · intro h
        rcases h with rfl | ⟨hq, hall⟩
        · exact ⟨Or.inl rfl, fun _ => htest, fun r hr hrq => absurd hrq (hhead r hr).not_ge⟩
        · exact ⟨Or.inr hq, fun _ => htest, hall⟩
      · intro h
        obtain ⟨rfl | hq, -, hall⟩ := h
        · exact Or.inl rfl
        · exact Or.inr ⟨hq, hall⟩
    · rw [List.takeWhile_cons_of_neg htest, List.forall_mem_cons]
      constructor
      · intro h
        cases h
      · intro h
        obtain ⟨hq, hall, -⟩ := h
        have hle : p ≤ q := by
          rcases List.mem_cons.mp hq with rfl | hq
          · exact le_rfl
          · exact (hhead q hq).le
        exact absurd (hall hle) htest

theorem met_eq_takeWhile (ps ks : List κ) (hp : ps.Pairwise (· < ·)) (hk : ks.Pairwise (· < ·)) :
    met ps ks = ps.takeWhile (· ∈ ks) := by
  induction ks generalizing ps with
  | nil => cases ps <;> rfl
  | cons k ks ih =>
    obtain ⟨hkhead, hktail⟩ := List.pairwise_cons.mp hk
    cases ps with
    | nil => rfl
    | cons p ps =>
      obtain ⟨hphead, hptail⟩ := List.pairwise_cons.mp hp
      by_cases hpk : p = k
      · subst hpk
        rw [met, if_pos rfl, ih ps hptail hktail, List.takeWhile_cons_of_pos (by simp)]
        refine congrArg (p :: ·) (takeWhile_congr fun q hq => ?_)
        simp [(hphead q hq).ne']
      · rw [met, if_neg hpk, ih (p :: ps) hp hktail]
        by_cases hmem : p ∈ ks
        · refine takeWhile_congr fun q hq => ?_
          have hkq : k < q := by
            rcases List.mem_cons.mp hq with rfl | hq
            · exact hkhead q hmem
            · exact (hkhead p hmem).trans (hphead q hq)
          simp [hkq.ne']
        · rw [List.takeWhile_cons_of_neg (by simpa using hmem), List.takeWhile_cons_of_neg (by simp [hpk, hmem])]

/-! ## What the three parts are -/

theorem mem_met_iff (ps ks : List κ) (hp : ps.Pairwise (· < ·)) (hk : ks.Pairwise (· < ·)) (q : κ) :
    q ∈ met ps ks ↔ q ∈ ps ∧ ∀ r ∈ ps, r ≤ q → r ∈ ks := by
  rw [met_eq_takeWhile ps ks hp hk, mem_takeWhile_iff _ ps hp]
  simp only [decide_eq_true_eq]

/-- Keys are left over only above all of `ps`, and only when `ps` is met in full. -/
theorem mem_left_iff (ps ks : List κ) (hp : ps.Pairwise (· < ·)) (hk : ks.Pairwise (· < ·)) (q : κ) :
    q ∈ left ps ks ↔ q ∈ ks ∧ (∀ r ∈ ps, r ∈ ks) ∧ ∀ r ∈ ps, r < q := by
  induction ks generalizing ps with
  | nil => cases ps <;> simp [left]
  | cons k ks ih =>
    obtain ⟨hkhead, hktail⟩ := List.pairwise_cons.mp hk
    cases ps with
    | nil => simp
    | cons p ps =>
      obtain ⟨hphead, hptail⟩ := List.pairwise_cons.mp hp
      by_cases hpk : p = k
      · subst hpk
        rw [left, if_pos rfl, ih ps hptail hktail]
        constructor
        · rintro ⟨hq, hall, hlt⟩
          refine ⟨List.mem_cons_of_mem _ hq, fun r hr => ?_, fun r hr => ?_⟩
          · rcases List.mem_cons.mp hr with rfl | hr
            · exact List.mem_cons_self
            · exact List.mem_cons_of_mem _ (hall r hr)
          · rcases List.mem_cons.mp hr with rfl | hr
            · exact hkhead q hq
            · exact hlt r hr
        · rintro ⟨hq, hall, hlt⟩
          have hpq : p < q := hlt p List.mem_cons_self
          refine ⟨(List.mem_cons.mp hq).resolve_left hpq.ne', fun r hr => ?_,
            fun r hr => hlt r (List.mem_cons_of_mem _ hr)⟩
          exact (List.mem_cons.mp (hall r (List.mem_cons_of_mem _ hr))).resolve_left (hphead r hr).ne'
      · rw [left, if_neg hpk, ih (p :: ps) hp hktail]
        constructor
        · rintro ⟨hq, hall, hlt⟩
          exact ⟨List.mem_cons_of_mem _ hq, fun r hr => List.mem_cons_of_mem _ (hall r hr), hlt⟩
        · rintro ⟨hq, hall, hlt⟩
          have hpks : p ∈ ks := (List.mem_cons.mp (hall p List.mem_cons_self)).resolve_left hpk
          have hkr : ∀ r ∈ p :: ps, k < r := by
            intro r hr
            rcases List.mem_cons.mp hr with rfl | hr
            · exact hkhead r hpks
            · exact (hkhead p hpks).trans (hphead r hr)
          have hkq : k < q := (hkhead p hpks).trans (hlt p List.mem_cons_self)
          exact ⟨(List.mem_cons.mp hq).resolve_left hkq.ne',
            fun r hr => (List.mem_cons.mp (hall r hr)).resolve_left (hkr r hr).ne', hlt⟩

theorem mem_dropped_iff (ps ks : List κ) (hk : ks.Pairwise (· < ·)) (q : κ) :
    q ∈ dropped ps ks ↔ q ∈ ks ∧ q ∉ met ps ks ∧ q ∉ left ps ks := by
  induction ks generalizing ps with
  | nil => cases ps <;> simp [dropped]
  | cons k ks ih =>
    obtain ⟨hkhead, hktail⟩ := List.pairwise_cons.mp hk
    have hnk : k ∉ ks := fun h => lt_irrefl k (hkhead k h)
    cases ps with
    | nil => simpa using fun h => Or.resolve_left h
    | cons p ps =>
      by_cases hpk : p = k
      · subst hpk
        simp only [dropped, met, left, if_pos, ih ps hktail, List.mem_cons, not_or]
        constructor
        · rintro ⟨hq, hm, hl⟩
          exact ⟨Or.inr hq, ⟨fun he => hnk (he ▸ hq), hm⟩, hl⟩
        · rintro ⟨hq, ⟨hne, hm⟩, hl⟩
          exact ⟨hq.resolve_left hne, hm, hl⟩
      · simp only [dropped, met, left, if_neg hpk, List.mem_cons, ih (p :: ps) hktail]
        constructor
        · rintro (rfl | ⟨hq, hm, hl⟩)
          · exact ⟨Or.inl rfl, fun h => hnk (mem_of_mem_met _ _ _ h),
              fun h => hnk ((left_sublist _ _).subset h)⟩
          · exact ⟨Or.inr hq, hm, hl⟩
        · rintro ⟨rfl | hq, hm, hl⟩
          · exact Or.inl rfl
          · exact Or.inr ⟨hq, hm, hl⟩

/-! ## In terms of the sequences -/

/-- What the sweep does not drop, in order: the initial segment met, and beyond it the keys
above a sequence that was met in full. -/
def survivors (ps ks : List κ) : List κ :=
  if ps.takeWhile (· ∈ ks) = ps then ps ++ ks.filter (fun k => ∀ p ∈ ps, p < k) else ps.takeWhile (· ∈ ks)

theorem takeWhile_eq_self_iff (ps ks : List κ) : ps.takeWhile (· ∈ ks) = ps ↔ ∀ r ∈ ps, r ∈ ks := by
  simp [List.takeWhile_eq_self_iff]

theorem survivors_sorted (ps ks : List κ) (hp : ps.Pairwise (· < ·)) (hk : ks.Pairwise (· < ·)) :
    (survivors ps ks).Pairwise (· < ·) := by
  unfold survivors
  split
  · refine List.pairwise_append.mpr ⟨hp, hk.filter _, fun p hpp k hkk => ?_⟩
    simpa using (of_decide_eq_true (List.mem_filter.mp hkk).2) p hpp
  · exact hp.sublist (List.takeWhile_sublist _)

theorem mem_survivors_iff (ps ks : List κ) (hp : ps.Pairwise (· < ·)) (hk : ks.Pairwise (· < ·)) (q : κ) :
    q ∈ survivors ps ks ↔ q ∈ ks ∧ q ∉ dropped ps ks := by
  have hmet : q ∈ met ps ks → q ∈ ks := mem_of_mem_met ps ks q
  have hleft : q ∈ left ps ks → q ∈ ks := fun h => (left_sublist ps ks).subset h
  have hkept : q ∈ ks ∧ q ∉ dropped ps ks ↔ q ∈ met ps ks ∨ q ∈ left ps ks := by
    rw [mem_dropped_iff ps ks hk]
    tauto
  rw [hkept, survivors, met_eq_takeWhile ps ks hp hk, mem_left_iff ps ks hp hk]
  split
  · next h =>
    have hall := (takeWhile_eq_self_iff ps ks).mp h
    rw [h, List.mem_append, List.mem_filter, decide_eq_true_iff]
    exact or_congr_right ⟨fun hq => ⟨hq.1, hall, hq.2⟩, fun hq => ⟨hq.1, hq.2.2⟩⟩
  · next h => exact (or_iff_left fun hq => h ((takeWhile_eq_self_iff ps ks).mpr hq.2.1)).symm

theorem dropped_eq_filter (ps ks : List κ) (hp : ps.Pairwise (· < ·)) (hk : ks.Pairwise (· < ·)) :
    dropped ps ks = ks.filter (· ∉ survivors ps ks) := by
  refine List.Pairwise.eq_of_mem_iff (hk.sublist (dropped_sublist ps ks)) (hk.filter _) fun {q} => ?_
  rw [List.mem_filter, decide_eq_true_iff, mem_survivors_iff ps ks hp hk]
  have hd : q ∈ dropped ps ks → q ∈ ks := mem_of_mem_dropped ps ks q
  tauto

/-! ## What a sweep keeps of two sets -/

/-- The members of `K` a sweep along `L` keeps: those met, and those beyond an `L` met in full. -/
def keptSet (L K : Finset κ) : Finset κ :=
  K.filter fun k => (k ∈ L ∧ ∀ r ∈ L, r ≤ k → r ∈ K) ∨ L ⊆ K ∧ ∀ r ∈ L, r < k

theorem mem_keptSet (L K : Finset κ) (k : κ) :
    k ∈ keptSet L K ↔ k ∈ K ∧ ((k ∈ L ∧ ∀ r ∈ L, r ≤ k → r ∈ K) ∨ L ⊆ K ∧ ∀ r ∈ L, r < k) := Finset.mem_filter

theorem keptSet_subset (L K : Finset κ) : keptSet L K ⊆ K := Finset.filter_subset _ _

/-- A second sweep along the same set keeps what the first has left. -/
theorem keptSet_idem (L K : Finset κ) : keptSet L (keptSet L K) = keptSet L K := by
  ext k
  rw [mem_keptSet]
  refine and_iff_left_of_imp fun hk => ?_
  rcases ((mem_keptSet L K k).mp hk).2 with ⟨hkL, hbelow⟩ | ⟨hsub, habove⟩
  · refine Or.inl ⟨hkL, fun r hr hrk => (mem_keptSet L K r).mpr ⟨hbelow r hr hrk, Or.inl ⟨hr, ?_⟩⟩⟩
    exact fun r' hr' hle => hbelow r' hr' (hle.trans hrk)
  · refine Or.inr ⟨fun r hr => (mem_keptSet L K r).mpr ⟨hsub hr, Or.inl ⟨hr, ?_⟩⟩, habove⟩
    exact fun r' hr' _ => hsub hr'

theorem keptSet_eq_iff (L K : Finset κ) : keptSet L K = L ↔ L ⊆ K ∧ ∀ k ∈ K, ∃ r ∈ L, k ≤ r := by
  constructor
  · intro h
    have hsub : L ⊆ K := h ▸ keptSet_subset L K
    refine ⟨hsub, fun k hk => ?_⟩
    by_contra hnone
    have habove : ∀ r ∈ L, r < k := fun r hr => not_le.mp fun hle => hnone ⟨r, hr, hle⟩
    have hkL : k ∈ L := h ▸ (mem_keptSet L K k).mpr ⟨hk, Or.inr ⟨hsub, habove⟩⟩
    exact lt_irrefl k (habove k hkL)
  · rintro ⟨hsub, hbound⟩
    ext k
    rw [mem_keptSet]
    constructor
    · rintro ⟨hk, ⟨hkL, -⟩ | ⟨-, habove⟩⟩
      · exact hkL
      · obtain ⟨r, hr, hle⟩ := hbound k hk
        exact absurd hle (habove r hr).not_ge
    · exact fun hkL => ⟨hsub hkL, Or.inl ⟨hkL, fun r hr _ => hsub hr⟩⟩

end Capture.PrefixSweep
