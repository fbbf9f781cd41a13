import Capture.Proof.Tracking

/-! # What the packet callback is given

The buffer is filled by `packetIdx`, which counts attributed frames over all handles; the
size handed to the callback is the value the last handle's `pcap_dispatch` returned. The
two results below say exactly when the size is small enough for the records to be of this
call, and when it is large enough for all of them to be delivered. -/
namespace Capture
open SeparatedText OrderedTable

set_option autoImplicit false

namespace Event

def Upkeep : Event → Prop
  | .parse _ _ _ | .erase _ | .processCallback _ _ _ => True
  | _ => False

def packetsReported : Event → Option (List PacketRecord × ℕ)
  | .packetCallback packets size => some (packets, size)
  | _ => none

theorem Upkeep.silent {e : Event} (h : e.Upkeep) :
    e.written = none ∧ e.packetsReported = none ∧ e.parsedFrame = none := by
  cases e <;> first | exact ⟨rfl, rfl, rfl⟩ | cases h

theorem FromFrame.not_reported {e : Event} {memory : UInt64} {deltaCpu : Interval} (h : e.FromFrame memory deltaCpu) :
    e.packetsReported = none := by
  cases e <;> first | rfl | cases h

end Event

namespace CaptureCxx

def packetCallbacks (s : CaptureCxx) : List (List PacketRecord × ℕ) := s.log.filterMap Event.packetsReported

theorem upkeep_events (u : UpdateInput) (s : CaptureCxx) (e : Event)
    (he : e ∈ reconcileEvents u s ++ processReport (reconciled u s)) : e.Upkeep := by
  rcases List.mem_append.mp he with he | he
  · obtain ⟨-, ⟨k, -, hk⟩ | ⟨k, -, rfl⟩⟩ := (mem_reconcileEvents u s e).mp he
    · obtain ⟨-, rfl⟩ | rfl := (mem_removeEvents_iff _ _ _).mp hk
      · trivial
      · trivial
    · trivial
  · cases ((mem_processReport_iff _ _).mp he).2
    trivial

theorem update_packets (u : UpdateInput) (s : CaptureCxx) (hstat : u.stat ≠ none) :
    (update u s).2.records = (dispatched u s).records ∧
      (update u s).2.packetCallbacks =
        (if s.packetCallback ∧ 0 < lastReturn u.dispatch s.handles ∧ (dispatched u s).packetData ≠ [] then
          [((dispatched u s).packetData, (lastReturn u.dispatch s.handles).toNat)] else []) := by
  obtain ⟨-, -, -, hcb, hdata, -, -⟩ := reconciled_frame u s
  have hupkeep : (reconcileEvents u s ++ processReport (reconciled u s)).filterMap Event.written = [] ∧
      (reconcileEvents u s ++ processReport (reconciled u s)).filterMap Event.packetsReported = [] :=
    ⟨List.filterMap_eq_nil_iff.mpr fun e he => (upkeep_events u s e he).silent.1,
      List.filterMap_eq_nil_iff.mpr fun e he => (upkeep_events u s e he).silent.2.1⟩
  have hframe : (dispatched u s).log.filterMap Event.packetsReported = [] :=
    List.filterMap_eq_nil_iff.mpr fun e he => ((afterDispatch u s).log e he).not_reported
  have hlog : (update u s).2.log = (dispatched u s).log ++ ((reconcileEvents u s ++ processReport (reconciled u s)) ++
      packetReport (lastReturn u.dispatch s.handles) (reconciled u s)) := by
    rw [(afterUpdate u s hstat).log, List.append_assoc]
  unfold records packetCallbacks
  rw [hlog]
  unfold packetReport
  rw [hcb, hdata]
  constructor
  · rw [List.filterMap_append, List.filterMap_append, hupkeep.1]
    split <;> simp [Event.written]
  · rw [List.filterMap_append, List.filterMap_append, hupkeep.2, hframe]
    split <;> simp [Event.packetsReported]

theorem mem_records_iff (s : CaptureCxx) (j : ℕ) (r : PacketRecord) :
    (j, r) ∈ s.records ↔ Event.record j r ∈ s.log := by
  unfold records
  rw [List.mem_filterMap]
  constructor
  · rintro ⟨e, he, hw⟩
    cases e <;> cases hw
    exact he
  · exact fun h => ⟨_, h, rfl⟩

theorem mem_packetCallbacks_iff (s : CaptureCxx) (data : List PacketRecord) (n : ℕ) :
    (data, n) ∈ s.packetCallbacks ↔ Event.packetCallback data n ∈ s.log := by
  unfold packetCallbacks
  rw [List.mem_filterMap]
  constructor
  · rintro ⟨e, he, hw⟩
    cases e <;> cases hw
    exact he
  · exact fun h => ⟨_, h, rfl⟩

/-! ## Slots and records -/

theorem Recorded.getElem? {old : List PacketRecord} {s : CaptureCxx} (h : Recorded old s) {j : ℕ}
    (hj : j < s.records.length) : ∃ r, s.packetData[j]? = some r ∧ (j, r) ∈ s.records := by
  have hfst : (s.records.get ⟨j, hj⟩).1 = j := by
    have hslot : (s.records.map Prod.fst)[j]? = (List.range s.records.length)[j]? := by rw [h.slots]
    simpa [hj] using hslot
  refine ⟨(s.records.get ⟨j, hj⟩).2, ?_, ?_⟩
  · rw [h.data, List.getElem?_append_left (by simpa using hj)]
    simp [hj]
  · have hpair : (j, (s.records.get ⟨j, hj⟩).2) = s.records.get ⟨j, hj⟩ := Prod.ext hfst.symm rfl
    rw [hpair]
    exact List.get_mem s.records ⟨j, hj⟩

theorem Recorded.lt_of_mem {old : List PacketRecord} {s : CaptureCxx} (h : Recorded old s) {j : ℕ} {r : PacketRecord}
    (hj : (j, r) ∈ s.records) : j < s.records.length := by
  have hmem : j ∈ s.records.map Prod.fst := List.mem_map.mpr ⟨(j, r), hj, rfl⟩
  rw [h.slots] at hmem
  exact List.mem_range.mp hmem

theorem Recorded.data_ne_nil_iff {old : List PacketRecord} {s : CaptureCxx} (h : Recorded old s) :
    s.packetData ≠ [] ↔ old ≠ [] ∨ s.records ≠ [] := by
  rw [h.data]
  by_cases hr : s.records = []
  · simp [hr]
  · simp [hr]

/-! ## Not too many -/

/-- When no foreign record is exposed: the call stops before the report, or there is no
callback, or nothing was ever recorded, or the last handle returned at most the number of
attributed frames. -/
def ExposesOwn (u : UpdateInput) (s : CaptureCxx) : Prop :=
  u.stat = none ∨ s.packetCallback = false ∨ (s.packetData = [] ∧ credits u s = []) ∨
    lastReturn u.dispatch s.handles ≤ (credits u s).length

def OwnRecordsOnly (s : CaptureCxx) : Prop :=
  ∀ data size, .packetCallback data size ∈ s.log →
    size ≤ data.length ∧ ∀ j < size, ∃ r, data[j]? = some r ∧ .record j r ∈ s.log

theorem not_packetCallback_of_stat_none (u : UpdateInput) (s : CaptureCxx) (hstat : u.stat = none)
    (data : List PacketRecord) (size : ℕ) : .packetCallback data size ∉ (update u s).2.log := by
  rw [update_of_stat_none u s hstat]
  intro h
  have := ((afterDispatch u s).log _ h).not_reported
  cases this

theorem exposesOwn_iff (u : UpdateInput) (s : CaptureCxx) : OwnRecordsOnly (update u s).2 ↔ ExposesOwn u s := by
  by_cases hstat : u.stat = none
  · exact iff_of_true (fun data size h => absurd h (not_packetCallback_of_stat_none u s hstat data size)) (Or.inl hstat)
  obtain ⟨hrec, hcall⟩ := update_packets u s hstat
  unfold OwnRecordsOnly
  simp only [← mem_packetCallbacks_iff, ← mem_records_iff, hrec, hcall]
  by_cases hcb : s.packetCallback = true
  · obtain ⟨hr, hlen⟩ := (afterDispatch u s).recorded hcb
    have hempty : credits u s = [] ↔ (dispatched u s).records = [] := by
      rw [← List.length_eq_zero_iff, ← hlen, List.length_eq_zero_iff]
    constructor
    · intro h
      by_cases hdata : (dispatched u s).packetData = []
      · have hnil := (not_iff_not.mpr hr.data_ne_nil_iff).mp (not_not.mpr hdata)
        obtain ⟨hold, hnone⟩ := not_or.mp hnil
        exact Or.inr (Or.inr (Or.inl ⟨not_not.mp hold, hempty.mpr (not_not.mp hnone)⟩))
      · refine Or.inr (Or.inr (Or.inr ?_))
        by_contra hlt
        have hpos : 0 < lastReturn u.dispatch s.handles := by omega
        -- the record behind the last one of this call is handed out too
        obtain ⟨-, hall⟩ := h _ _ (by rw [if_pos ⟨hcb, hpos, hdata⟩]; exact List.mem_singleton_self _)
        obtain ⟨r, -, hj⟩ := hall (credits u s).length (by omega)
        have := hr.lt_of_mem hj
        omega
    · intro h data size hevent
      split at hevent
      · next hc =>
        obtain ⟨-, hpos, hdata⟩ := hc
        cases List.mem_singleton.mp hevent
        have hle : lastReturn u.dispatch s.handles ≤ (credits u s).length := by
          rcases h with h | h | ⟨hold, hnone⟩ | h
          · exact absurd h hstat
          · rw [hcb] at h
            cases h
          · rcases hr.data_ne_nil_iff.mp hdata with hd | hd
            · exact absurd hold hd
            · exact absurd (hempty.mp hnone) hd
          · exact h
        have hsize : (lastReturn u.dispatch s.handles).toNat ≤ (dispatched u s).records.length := by omega
        refine ⟨?_, fun j hj => hr.getElem? (hj.trans_le hsize)⟩
        rw [hr.data, List.length_append, List.length_map]
        omega
      · cases hevent
  · rw [Bool.not_eq_true] at hcb
    refine iff_of_true (fun data size h => ?_) (Or.inr (Or.inl hcb))
    rw [if_neg (by simp [hcb])] at h
    cases h

/-- Over every run, each packet callback hands out at most the buffer, and only records
written in the same `Update`, exactly when each `Update` meets `ExposesOwn`. -/
theorem packet_callback_own_records_iff (cs : List Call) :
    (∀ t ∈ run cs, ∀ u, t.call = .update u → OwnRecordsOnly t.after) ↔
      ∀ t ∈ run cs, ∀ u, t.call = .update u → ExposesOwn u t.before := by
  refine forall₂_congr fun t ht => forall₂_congr fun u hu => ?_
  rw [after_update ht hu]
  exact exposesOwn_iff u t.before

/-! ### Frames on the small host -/

def ethernetFrame (serial : ℕ) (bytes : List UInt8) : Frame :=
  { serial := serial
    len := UInt32.ofNat bytes.length
    caplen := UInt32.ofNat bytes.length
    bytes := fun i => bytes.getD i 0 }

/-- A TCP segment from `10.0.0.1:80` to `10.0.0.2:1234`. -/
def webFrame : Frame := ethernetFrame 0
  [0, 0, 0, 0, 0, 0, 0, 0, 0, 0, 0, 0, 8, 0,
   0x45, 0, 0, 24, 0, 0, 0, 0, 64, 6, 0, 0, 10, 0, 0, 1, 10, 0, 0, 2,
   0, 80, 4, 210]

def arpFrame : Frame := ethernetFrame 1 [0, 0, 0, 0, 0, 0, 0, 0, 0, 0, 0, 0, 8, 6, 0, 1]

def webRefresh : RefreshInput :=
  { tcp := some [("   0: 0100000A:0050 0200000A:04D2 01 00000000:00000000 00:00000000 00000000     " ++
      "0        0 42 1 0").toList]
    tcp6 := some []
    udp := some []
    udp6 := some []
    fd := fun _ => some [⟨true, some "socket:[42]".toList⟩] }

def webUpdate (dispatch : ℕ → Dispatch) : UpdateInput :=
  { idleUpdate [1] with refresh := webRefresh, dispatch := dispatch }

/-- One attributed frame and one that is not. -/
def mixedDispatch (_ : ℕ) : Dispatch := ⟨[webFrame, arpFrame], 2, Or.inl rfl, by decide⟩

/-- The callback is told of two records where the buffer holds one. -/
theorem packet_callback_foreign_record :
    ∃ t ∈ run [.init (lanInit [1]), .update (webUpdate mixedDispatch)],
      t.call = .update (webUpdate mixedDispatch) ∧ ¬ OwnRecordsOnly t.after := by
  refine ⟨_, List.mem_cons_of_mem _ List.mem_cons_self, rfl, fun h => ?_⟩
  have hcond := (exposesOwn_iff (webUpdate mixedDispatch) (next initial (.init (lanInit [1])))).mp h
  have hfail : ¬ ((next initial (.init (lanInit [1]))).packetCallback = false ∨
      ((next initial (.init (lanInit [1]))).packetData.length = 0 ∧
        (credits (webUpdate mixedDispatch) (next initial (.init (lanInit [1])))).length = 0) ∨
      lastReturn (webUpdate mixedDispatch).dispatch (next initial (.init (lanInit [1]))).handles ≤
        (credits (webUpdate mixedDispatch) (next initial (.init (lanInit [1])))).length) := by
    decide +kernel
  rcases hcond with hc | hc | ⟨hc, hc'⟩ | hc
  · simp [webUpdate, idleUpdate] at hc
  · exact hfail (Or.inl hc)
  · exact hfail (Or.inr (Or.inl ⟨by rw [hc]; rfl, by rw [hc']; rfl⟩))
  · exact hfail (Or.inr (Or.inr hc))

/-! ## Not too few -/

/-- When every record is delivered: no frame is attributed, or the last handle returned at
least the number of attributed frames. -/
def DeliversAll (u : UpdateInput) (s : CaptureCxx) : Prop :=
  credits u s = [] ∨ ((credits u s).length : ℤ) ≤ lastReturn u.dispatch s.handles

/-- The records of the call are the first ones of a single packet callback, in the order
they were written. -/
def AllRecordsDelivered (s : CaptureCxx) : Prop :=
  s.records = [] ∨ ∃ data size, s.packetCallbacks = [(data, size)] ∧ s.records.map Prod.snd <+: data.take size

theorem deliversAll_iff (u : UpdateInput) (s : CaptureCxx) (hstat : u.stat ≠ none) (hcb : s.packetCallback = true) :
    AllRecordsDelivered (update u s).2 ↔ DeliversAll u s := by
  obtain ⟨hrec, hcall⟩ := update_packets u s hstat
  obtain ⟨hr, hlen⟩ := (afterDispatch u s).recorded hcb
  have hempty : credits u s = [] ↔ (dispatched u s).records = [] := by
    rw [← List.length_eq_zero_iff, ← hlen, List.length_eq_zero_iff]
  unfold AllRecordsDelivered DeliversAll
  rw [hrec, hcall, hempty]
  refine or_congr_right' fun hne => ?_
  have hdata : (dispatched u s).packetData ≠ [] := hr.data_ne_nil_iff.mpr (Or.inr hne)
  have hpos : 0 < (dispatched u s).records.length := List.length_pos_iff.mpr hne
  constructor
  · rintro ⟨data, size, hone, hpre⟩
    split at hone
    · cases hone
      have hle := hpre.length_le
      rw [List.length_map, List.length_take] at hle
      omega
    · cases hone
  · intro hle
    refine ⟨_, _, if_pos ⟨hcb, by omega, hdata⟩, ?_⟩
    rw [hr.data, List.take_append]
    rw [List.take_of_length_le (by rw [List.length_map]; omega)]
    exact List.prefix_append _ _

/-- Over every run, each `Update` that returns 0 with a packet callback set delivers all
records it wrote, in order and once, exactly when each such `Update` meets `DeliversAll`. -/
theorem packet_records_delivered_iff (cs : List Call) :
    (∀ t ∈ run cs, ∀ u, t.call = .update u → t.before.packetCallback = true → (update u t.before).1 = 0 →
      AllRecordsDelivered t.after) ↔
      ∀ t ∈ run cs, ∀ u, t.call = .update u → t.before.packetCallback = true → u.stat ≠ none →
        DeliversAll u t.before := by
  refine forall₂_congr fun t ht => forall₂_congr fun u hu => forall_congr' fun hcb => ?_
  rw [update_fst, after_update ht hu]
  exact forall_congr' fun hstat => deliversAll_iff u t.before hstat hcb

def twoInit (pids : List (Fin 10)) : InitInput :=
  { lanInit pids with
    ifaddrs := some [⟨some ['e'], 0x41, some (.inet ![10, 0, 0, 1])⟩, ⟨some ['w'], 0x41, some (.inet ![10, 0, 1, 1])⟩] }

/-- Traffic on the first interface only. -/
def firstOnly (idx : ℕ) : Dispatch := if idx = 0 then ⟨[webFrame], 1, Or.inl rfl, by decide⟩ else idle

/-- A quiet last interface suppresses the records of the first. -/
theorem packet_record_lost :
    ∃ t ∈ run [.init (twoInit [1]), .update (webUpdate firstOnly)],
      t.call = .update (webUpdate firstOnly) ∧ t.before.packetCallback = true ∧
        (update (webUpdate firstOnly) t.before).1 = 0 ∧ ¬ AllRecordsDelivered t.after := by
  have hstat : (webUpdate firstOnly).stat ≠ none := by simp [webUpdate, idleUpdate]
  have hcb : (next initial (.init (twoInit [1]))).packetCallback = true := by decide +kernel
  refine ⟨_, List.mem_cons_of_mem _ List.mem_cons_self, rfl, hcb, (update_fst _ _).mpr hstat, fun h => ?_⟩
  have hcond := (deliversAll_iff (webUpdate firstOnly) (next initial (.init (twoInit [1]))) hstat hcb).mp h
  have hfail : ¬ ((credits (webUpdate firstOnly) (next initial (.init (twoInit [1])))).length = 0 ∨
      ((credits (webUpdate firstOnly) (next initial (.init (twoInit [1])))).length : ℤ) ≤
        lastReturn (webUpdate firstOnly).dispatch (next initial (.init (twoInit [1]))).handles) := by
    decide +kernel
  rcases hcond with hc | hc
  · exact hfail (Or.inl (by rw [hc]; rfl))
  · exact hfail (Or.inr hc)

end CaptureCxx
end Capture
