import Capture.Proof.Tracking

/-! # Whether a report is fresh

A process is fresh in a call when it was parsed with the system interval of that call
before the process report. The only parse that qualifies is the one the reconciliation
makes where its cursors meet: a parse made for a new process while frames are handled
gets the interval of the call before. -/
namespace Capture
open OrderedTable

set_option autoImplicit false

namespace CaptureCxx

/-- `Parse` was called on `p` with the system interval read in the current call, before
any process report. -/
def ParsedFresh (s : CaptureCxx) (p : Pid) : Prop :=
  ∃ pre post memory, s.log = pre ++ .parse p memory s.deltaCpu :: post ∧ s.deltaCpu.now.call = some s.calls ∧
    ∀ data n, .processCallback .update data n ∉ pre

theorem newDelta_now_iff {s : CaptureCxx} (hs : WellFormed s) (u : UpdateInput) :
    (newDelta u s).now.call = some (s.calls + 1) ↔ cpuReading u ≠ none := by
  unfold newDelta
  split
  · next h => simp [h, hs.deltaCpu.2.call_ne]
  · next h => simp [h]

theorem parsedFresh_update_iff {s : CaptureCxx} (hs : WellFormed s) (u : UpdateInput) (hstat : u.stat ≠ none) (p : Pid) :
    ParsedFresh (update u s).2 p ↔ SizesDiffer u s ∧ cpuReading u ≠ none ∧ Met u s p := by
  have ha := afterUpdate u s hstat
  have hframe := (afterDispatch u s).log
  unfold ParsedFresh
  rw [ha.deltaCpu, ha.calls, newDelta_now_iff hs]
  constructor
  · rintro ⟨pre, post, memory, hlog, hread, -⟩
    have hmem : Event.parse p memory (newDelta u s) ∈ (update u s).2.log := by
      rw [hlog]
      exact List.mem_append_right _ List.mem_cons_self
    rcases (mem_log_update_iff u s hstat _).mp hmem with h | h | h | h
    · -- a parse made for a frame has the interval of the call before
      have hold : newDelta u s = s.deltaCpu := (hframe _ h).2
      have hnow := (newDelta_now_iff hs u).mpr hread
      rw [hold] at hnow
      exact absurd hnow hs.deltaCpu.2.call_ne
    · obtain ⟨hsize, ⟨k, -, he⟩ | ⟨k, hk, he⟩⟩ := (mem_reconcileEvents u s _).mp h
      · obtain ⟨-, he⟩ | he := (mem_removeEvents_iff _ _ _).mp he <;> cases he
      · cases he
        exact ⟨hsize, hread, hk⟩
    · cases ((mem_processReport_iff _ _).mp h).2
    · cases ((mem_packetReport_iff _ _ _).mp h).2
  · rintro ⟨hsize, hread, hmet⟩
    have hmem : Event.parse p s.memory (newDelta u s) ∈ reconcileEvents u s :=
      (mem_reconcileEvents u s _).mpr ⟨hsize, Or.inr ⟨p, hmet, rfl⟩⟩
    obtain ⟨pre, post, hsplit⟩ := List.append_of_mem hmem
    refine ⟨(dispatched u s).log ++ pre, post ++ (processReport (reconciled u s) ++
      packetReport (lastReturn u.dispatch s.handles) (reconciled u s)), s.memory, ?_, hread, ?_⟩
    · rw [ha.log, hsplit, List.append_assoc, List.append_assoc, List.cons_append]
    · intro data n h
      rcases List.mem_append.mp h with h | h
      · exact not_fromFrame_callback _ _ _ _ _ (hframe _ h)
      · exact not_mem_reconcileEvents_update u s data n (hsplit ▸ List.mem_append_left _ h)

/-- When every tracked process of the snapshot is fresh: the sizes differ and a line of
ticks is read, or no tracked pid of the snapshot is left. -/
def ReportsFresh (u : UpdateInput) (s : CaptureCxx) : Prop :=
  ((livePids u).card ≠ (trackedPids u s).card ∧
      (cpuReading u ≠ none ∨ ∀ p ∈ livePids u, ∃ r ∈ livePids u, r ≤ p ∧ r ∉ trackedPids u s)) ∨
    ((livePids u).card = (trackedPids u s).card ∧ ∀ p ∈ livePids u, p ∉ trackedPids u s)

theorem mem_reconciled_keys_of_live {u : UpdateInput} {s : CaptureCxx} {p : Pid} (hp : p ∈ livePids u) :
    p ∈ (reconciled u s).processes.keys ↔ p ∈ trackedPids u s ∧ (SizesDiffer u s → Met u s p) := by
  have hleft : ¬ Left u s p := fun h => lt_irrefl p (h.2.2 p hp)
  rw [reconciled_keys]
  constructor
  · rintro ⟨hk, hnd⟩
    exact ⟨hk, fun hsize => by_contra fun hm => hnd ⟨hsize, hk, hm, hleft⟩⟩
  · rintro ⟨hk, hm⟩
    exact ⟨hk, fun hd => hd.2.2.1 (hm hd.1)⟩

theorem reportsFresh_iff {s : CaptureCxx} (hs : WellFormed s) (u : UpdateInput) (hstat : u.stat ≠ none) :
    (∀ p ∈ (reconciled u s).processes.keys, p ∈ livePids u → ParsedFresh (update u s).2 p) ↔ ReportsFresh u s := by
  simp only [parsedFresh_update_iff hs u hstat]
  constructor
  · intro h
    by_cases hsize : SizesDiffer u s
    · refine Or.inl ⟨hsize, ?_⟩
      by_cases hread : cpuReading u = none
      · refine Or.inr fun p hp => ?_
        by_contra hall
        have hmet : Met u s p := ⟨hp, fun r hr hrp => by_contra fun hrk => hall ⟨r, hr, hrp, hrk⟩⟩
        have hkey := (mem_reconciled_keys_of_live hp).mpr ⟨hmet.2 p hp le_rfl, fun _ => hmet⟩
        exact (h p hkey hp).2.1 hread
      · exact Or.inl hread
    · refine Or.inr ⟨not_not.mp hsize, fun p hp hk => ?_⟩
      exact hsize (h p ((mem_reconciled_keys_of_live hp).mpr ⟨hk, fun hd => absurd hd hsize⟩) hp).1
  · intro h p hkey hp
    obtain ⟨hk, hm⟩ := (mem_reconciled_keys_of_live hp).mp hkey
    rcases h with ⟨hsize, hread | hnone⟩ | ⟨-, hdis⟩
    · exact ⟨hsize, hread, hm hsize⟩
    · obtain ⟨r, hr, hrp, hrk⟩ := hnone p hp
      exact absurd ((hm hsize).2 r hr hrp) hrk
    · exact absurd hk (hdis p hp)

end CaptureCxx
end Capture
