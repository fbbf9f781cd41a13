import Capture.Proof.AccountBook

/-! # Where the process table settles

As long as the snapshot stays what it is and no frame resolves to a process, the first
`Update` decides what is tracked from then on: later ones remove nothing and find nothing
(`quiet_updates_settle`). What is tracked is the snapshot only if every live process was
tracked before and none of the others lies beyond the last of them (`settled_eq_iff`). -/
namespace Capture
open SeparatedText OrderedTable PrefixSweep

set_option autoImplicit false

namespace CaptureCxx

/-! ## One reconciliation -/

/-- What a reconciliation with snapshot `L` leaves of the tracked pids `K`. -/
def settled (L K : Finset Pid) : Finset Pid := if L.card = K.card then K else keptSet L K

theorem settled_idem (L K : Finset Pid) : settled L (settled L K) = settled L K := by
  unfold settled
  by_cases hcard : L.card = K.card
  · rw [if_pos hcard, if_pos hcard]
  · rw [if_neg hcard, keptSet_idem]
    exact ite_self _

theorem settled_eq_iff (L K : Finset Pid) : settled L K = L ↔ L ⊆ K ∧ ∀ k ∈ K, ∃ r ∈ L, k ≤ r := by
  unfold settled
  split
  · next hcard =>
    constructor
    · rintro rfl
      exact ⟨subset_rfl, fun k hk => ⟨k, hk, le_rfl⟩⟩
    · rintro ⟨hsub, -⟩
      exact (Finset.eq_of_subset_of_card_le hsub hcard.ge).symm
  · exact keptSet_eq_iff L K

theorem keySet_update (u : UpdateInput) (s : CaptureCxx) (hstat : u.stat ≠ none) :
    (update u s).2.processes.keySet = settled (livePids u) (trackedPids u s) := by
  ext q
  rw [(afterUpdate u s hstat).processes, Table.mem_keySet, reconciled_keys, settled]
  by_cases hsize : SizesDiffer u s
  · rw [if_neg hsize, mem_keptSet]
    simp only [hsize, true_and, Dropped, not_and, not_not]
    refine and_congr_right fun hq => ?_
    constructor
    · intro h
      by_cases hmet : Met u s q
      · exact Or.inl hmet
      · exact Or.inr (h hq hmet).2
    · rintro (hmet | hleft) - hnot
      · exact absurd hmet hnot
      · exact ⟨hq, hleft⟩
  · rw [if_pos (not_not.mp hsize)]
    simp [hsize]

/-! ## Updates with nothing to do -/

/-- An `Update` that can read `/proc/stat`, finds the pids `L` and credits no frame. -/
def Quiet (L : Finset Pid) (t : RunTrace.Step CaptureCxx Call) : Prop :=
  ∃ u, t.call = .update u ∧ u.stat ≠ none ∧ livePids u = L ∧ credits u t.before = []

theorem keySet_of_quiet {L : Finset Pid} {t : RunTrace.Step CaptureCxx Call} (h : Quiet L t)
    (hafter : t.after = next t.before t.call) : t.after.processes.keySet = settled L t.before.processes.keySet := by
  obtain ⟨u, hcall, hstat, rfl, hcredits⟩ := h
  have htracked : trackedPids u t.before = t.before.processes.keySet := by
    rw [trackedPids, hcredits]
    exact Finset.union_empty _
  rw [hafter, hcall, ← htracked]
  exact keySet_update u t.before hstat

theorem not_removes_of_quiet {L : Finset Pid} {t : RunTrace.Step CaptureCxx Call} (h : Quiet L t)
    (hafter : t.after = next t.before t.call) (hfixed : settled L t.before.processes.keySet = t.before.processes.keySet)
    (p : Pid) : ¬ t.after.Removes p := by
  have hkeys := keySet_of_quiet h hafter
  obtain ⟨u, hcall, hstat, -, hcredits⟩ := h
  have hupdate : t.after = (update u t.before).2 := by rw [hafter, hcall]; rfl
  rw [hfixed, hupdate] at hkeys
  rw [hupdate]
  intro hremoves
  have herased := (removes_update_iff u t.before p).mp hremoves
  have htracked : p ∈ t.before.processes.keySet := by
    have hp := herased.2.2.1
    rw [trackedPids, hcredits] at hp
    simpa using hp
  rw [← hkeys, Table.mem_keySet, (afterUpdate u t.before hstat).processes, reconciled_keys] at htracked
  exact htracked.2 herased.2

/-! ## A run of them -/

/-- After any run: with the same snapshot and no frame credited, the tracked pids are those the
first `Update` leaves, however many follow, and none of those that follow removes a process.
They are the snapshot exactly when it was tracked before and bounds what was. -/
theorem quiet_updates_settle (cs : List Call) (u : UpdateInput) (us : List UpdateInput) (L : Finset Pid)
    (hquiet : ∀ t ∈ RunTrace.steps next (reached cs) ((u :: us).map .update), Quiet L t) :
    (∀ t ∈ RunTrace.steps next (reached cs) ((u :: us).map .update),
      t.after.processes.keySet = settled L (reached cs).processes.keySet) ∧
    (∀ t ∈ RunTrace.steps next (reached (cs ++ [.update u])) (us.map .update), ∀ p, ¬ t.after.Removes p) ∧
    (settled L (reached cs).processes.keySet = L ↔
      L ⊆ (reached cs).processes.keySet ∧ ∀ k ∈ (reached cs).processes.keySet, ∃ r ∈ L, k ≤ r) := by
  obtain ⟨hfirst, hrest⟩ := List.forall_mem_cons.mp hquiet
  have hone := keySet_of_quiet hfirst rfl
  have hstart : reached (cs ++ [.update u]) = next (reached cs) (.update u) := reached_append cs [.update u]
  have hbefore : ∀ t ∈ RunTrace.steps next (next (reached cs) (.update u)) (us.map .update),
      t.before.processes.keySet = settled L (reached cs).processes.keySet := by
    refine fun t ht => RunTrace.invariant_of_steps_ok next (Quiet L)
      (fun s => s.processes.keySet = settled L (reached cs).processes.keySet) (fun s c hq hs => ?_) _ hone _ hrest t ht
    rw [keySet_of_quiet hq rfl, hs, settled_idem]
  refine ⟨List.forall_mem_cons.mpr ⟨hone, fun t ht => ?_⟩, fun t ht => ?_, settled_eq_iff L _⟩
  · rw [keySet_of_quiet (hrest t ht) (RunTrace.after_of_mem_steps next _ _ t ht), hbefore t ht, settled_idem]
  · rw [hstart] at ht
    refine not_removes_of_quiet (hrest t ht) (RunTrace.after_of_mem_steps next _ _ t ht) ?_
    rw [hbefore t ht, settled_idem]

/-- The death of the greater of two pids is never noticed. -/
theorem quiet_updates_settle_dead :
    ((RunTrace.steps next (reached [.init (lanInit [1, 2])]) ([idleUpdate [1], idleUpdate [1]].map .update)).map
      fun t => t.after.processes.keySet) = [{1, 2}, {1, 2}] := by
  have hquiet : ∀ s : CaptureCxx, s.handles = (reached [.init (lanInit [1, 2])]).handles → ∀ s',
      Quiet {1} ⟨s, .update (idleUpdate [1]), s'⟩ := by
    intro s hs s'
    refine ⟨idleUpdate [1], rfl, by simp [idleUpdate], by decide +kernel, ?_⟩
    show attributions s.devices _ (delivered (idleUpdate [1]).dispatch 0 s.handles) = []
    have hdelivered : (delivered (idleUpdate [1]).dispatch 0 (reached [.init (lanInit [1, 2])]).handles).length = 0 := by
      decide +kernel
    rw [hs, List.eq_nil_of_length_eq_zero hdelivered]
    rfl
  have hsettled : settled {1} (reached [.init (lanInit [1, 2])]).processes.keySet = {1, 2} := by decide +kernel
  refine (List.eq_replicate_iff : _ = List.replicate 2 _ ↔ _).mpr ⟨rfl, fun k hk => ?_⟩
  obtain ⟨t, ht, rfl⟩ := List.mem_map.mp hk
  rw [← hsettled]
  refine (quiet_updates_settle [.init (lanInit [1, 2])] (idleUpdate [1]) [idleUpdate [1]] {1} ?_).1 t ht
  refine List.forall_mem_cons.mpr ⟨hquiet _ rfl _, List.forall_mem_cons.mpr ⟨hquiet _ ?_ _, fun _ h => by cases h⟩⟩
  decide +kernel

end CaptureCxx
end Capture
