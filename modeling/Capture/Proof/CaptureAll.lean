import Capture.Proof.PacketBuffer

/-! # The copies `Update` is asked for

The handlers copy a packet when the member `captureAll` is set. `Update` takes the request
as its argument `icaptureAll` and does not store it, so the member keeps its initial value
and no record ever has a copy: a call does what it was asked for exactly when it was asked
for none, or records nothing. -/
namespace Capture
open SeparatedText OrderedTable

set_option autoImplicit false

namespace CaptureCxx

/-! ## The member is never set -/

theorem captureAll_next (s : CaptureCxx) (c : Call) : (next s c).captureAll = s.captureAll := by
  cases c with
  | init i => exact (init_buffer i s).2
  | update u => exact (congrArg CaptureCxx.captureAll (update_kept u s) :)
  | shutdown => rfl

theorem captureAll_of_mem_run {cs : List Call} {t : RunTrace.Step CaptureCxx Call} (h : t ∈ run cs) :
    t.before.captureAll = false :=
  RunTrace.invariant_of_mem_steps next (fun s => s.captureAll = false)
    (fun s c hs => (captureAll_next s c).trans hs) initial rfl cs t h

/-! ## The records of a call -/

theorem update_records (u : UpdateInput) (s : CaptureCxx) : (update u s).2.records = (dispatched u s).records := by
  by_cases hstat : u.stat = none
  · rw [update_of_stat_none u s hstat]
  · exact (update_packets u s hstat).1

theorem dispatched_records (u : UpdateInput) (s : CaptureCxx) (hcb : s.packetCallback = true) :
    (dispatched u s).records.map Prod.snd =
      (credits u s).zipIdx.map fun p => writtenRecord s.packetData.length s.captureAll p.2 p.1 := by
  obtain ⟨hs, -, hstate⟩ := dispatched_eq u s
  have hstart : Recorded s.packetData (beginUpdate u s) := ⟨rfl, rfl, rfl⟩
  have hfold := foldl_feed_records (delivered u.dispatch 0 s.handles) (beginUpdate u s) hstart hcb
  rw [hstate]
  exact hfold

theorem dispatched_records_off (u : UpdateInput) (s : CaptureCxx) (hcb : s.packetCallback = false) :
    (dispatched u s).records = [] := by
  obtain ⟨hs, -, hstate⟩ := dispatched_eq u s
  have hfold := (foldl_feed_off (delivered u.dispatch 0 s.handles) (beginUpdate u s) hcb).2
  rw [hstate]
  exact hfold

/-- While the member is not set, no record has a copy. -/
theorem packet_of_mem_records (u : UpdateInput) (s : CaptureCxx) (hall : s.captureAll = false) (j : ℕ)
    (r : PacketRecord) (h : (j, r) ∈ (update u s).2.records) : r.packet = none := by
  rw [update_records] at h
  by_cases hcb : s.packetCallback = true
  · have hmem : r ∈ (dispatched u s).records.map Prod.snd := List.mem_map_of_mem h
    rw [dispatched_records u s hcb, hall] at hmem
    obtain ⟨p, -, rfl⟩ := List.mem_map.mp hmem
    rfl
  · rw [dispatched_records_off u s (Bool.eq_false_iff.mpr hcb)] at h
    cases h

theorem update_records_nil_iff (u : UpdateInput) (s : CaptureCxx) :
    (update u s).2.records = [] ↔ s.packetCallback = false ∨ credits u s = [] := by
  rw [update_records]
  by_cases hcb : s.packetCallback = true
  · have hlen := ((afterDispatch u s).recorded hcb).2
    rw [← List.length_eq_zero_iff, hlen, List.length_eq_zero_iff, hcb]
    simp
  · have hoff := Bool.eq_false_iff.mpr hcb
    exact iff_of_true (dispatched_records_off u s hoff) (Or.inl hoff)

/-! ## The request -/

/-- Each record the call wrote has a copy of its packet exactly when the call was asked for copies. -/
def HonoursCaptureAll (u : UpdateInput) (s : CaptureCxx) : Prop :=
  ∀ j r, .record j r ∈ s.log → (r.packet ≠ none ↔ u.icaptureAll = true)

/-- The call is not asked for copies, or has nothing to copy. -/
def AsksNothing (u : UpdateInput) (s : CaptureCxx) : Prop :=
  u.icaptureAll = false ∨ s.packetCallback = false ∨ credits u s = []

theorem honoursCaptureAll_iff (u : UpdateInput) (s : CaptureCxx) (hall : s.captureAll = false) :
    HonoursCaptureAll u (update u s).2 ↔ AsksNothing u s := by
  have hnone : ∀ j r, .record j r ∈ (update u s).2.log → r.packet = none := fun j r h =>
    packet_of_mem_records u s hall j r ((mem_records_iff _ j r).mpr h)
  unfold AsksNothing
  rw [← update_records_nil_iff]
  constructor
  · intro h
    by_contra hasked
    obtain ⟨hcopy, hne⟩ := not_or.mp hasked
    obtain ⟨⟨j, r⟩, hmem⟩ := List.exists_mem_of_ne_nil _ hne
    have hrecord := (mem_records_iff _ j r).mp hmem
    exact (h j r hrecord).mpr (Bool.eq_true_of_not_eq_false hcopy) (hnone j r hrecord)
  · rintro (hcopy | hempty) j r hrecord
    · rw [hnone j r hrecord, hcopy]
      simp
    · have hmem := (mem_records_iff _ j r).mpr hrecord
      rw [hempty] at hmem
      cases hmem

/-- Over every run, each `Update` copies the packets it records as asked exactly when each of
them asks for no copies or has nothing to copy. -/
theorem capture_all_honoured_iff (cs : List Call) :
    (∀ t ∈ run cs, ∀ u, t.call = .update u → HonoursCaptureAll u t.after) ↔
      ∀ t ∈ run cs, ∀ u, t.call = .update u → AsksNothing u t.before := by
  refine forall₂_congr fun t ht => forall₂_congr fun u hu => ?_
  rw [after_update ht hu]
  exact honoursCaptureAll_iff u t.before (captureAll_of_mem_run ht)

def copyingUpdate : UpdateInput := { webUpdate mixedDispatch with icaptureAll := true }

/-- The one record of a call that asks for copies has a null packet. -/
theorem asked_copy_missing :
    ∃ t ∈ run [.init (lanInit [1]), .update copyingUpdate], t.call = .update copyingUpdate ∧
      t.after.records.map (fun r => r.2.packet) = [none] ∧ ¬ HonoursCaptureAll copyingUpdate t.after := by
  have hrecords : (next (next initial (.init (lanInit [1]))) (.update copyingUpdate)).records.map
      (fun r => r.2.packet) = [none] := by decide +kernel
  refine ⟨_, List.mem_cons_of_mem _ List.mem_cons_self, rfl, hrecords, fun h => ?_⟩
  obtain ⟨⟨j, r⟩, hmem, hpacket⟩ := List.mem_map.mp (hrecords ▸ List.mem_singleton_self none)
  exact ((h j r ((mem_records_iff _ j r).mp hmem)).mpr rfl) hpacket

end CaptureCxx
end Capture
