import Capture.Proof.EntryRelation
import Capture.Proof.PacketDelivery

/-! # What the files of a process decide

The files in `/proc/<pid>` are read into the entry of that pid and into nothing else: two
runs on a host on which the processes of `P` show something else in their files agree in
every other process, in who sent and received how much, and in everything that is not a
process (`files_confined`). -/
namespace Capture
open SeparatedText AddressText OrderedTable

set_option autoImplicit false

namespace CapProcess

theorem addPacket_traffic (devices : List CapDevice) (cap : CapPacket) {p p' : CapProcess}
    (h : p'.traffic = p.traffic) : (p'.addPacket devices cap).traffic = (p.addPacket devices cap).traffic := by
  obtain ⟨hpid, htraffic⟩ := Prod.mk.inj h
  obtain ⟨hrecv, hsend⟩ := Prod.mk.inj htraffic
  unfold addPacket
  split <;> simp [traffic, hpid, hrecv, hsend]

end CapProcess

namespace CaptureCxx

/-! ## The relation -/

/-- The entries are equal, or of a pid in `P` and alike in what packets decide. -/
def confined (P : Set Pid) : EntryRelation :=
  fun k p p' => p.pid = k ∧ p'.traffic = p.traffic ∧ (k ∉ P → p' = p)

theorem confined_kept (P : Set Pid) : (confined P).Kept where
  start _ := ⟨rfl, rfl, fun _ => rfl⟩
  addPacket k devices cap p p' := by
    rintro ⟨hpid, htraffic, hsame⟩
    refine ⟨(addPacket_keeps devices cap p).1.trans hpid, CapProcess.addPacket_traffic devices cap htraffic, fun hk => ?_⟩
    rw [hsame hk]

theorem confined_parses {P : Set Pid} {g g' : Pid → ProcFiles} (h : ∀ k, k ∉ P → g' k = g k) :
    (confined P).Parses g g' := by
  rintro k call imemory ideltacpu p p' ⟨hpid, htraffic, hsame⟩
  have hparse := CapProcess.parse_traffic call (g k) imemory ideltacpu p
  refine ⟨(congrArg Prod.fst hparse :).trans hpid, ?_, fun hk => by rw [h k hk, hsame hk]⟩
  rw [hparse, CapProcess.parse_traffic, htraffic]

/-! ## The runs -/

/-- The same, but for the files of the pids in `P`. -/
def SameFiles (P : Set Pid) (g g' : Pid → ProcFiles) : Prop := ∀ k, k ∉ P → g' k = g k

def SameFrame (P : Set Pid) (f f' : Frame) : Prop := f' = { f with files := f'.files } ∧ SameFiles P f.files f'.files

/-- The two calls find the same but in the files of the pids in `P`. -/
def SameOutside (P : Set Pid) : Call → Call → Prop
  | .init i, .init i' => i' = { i with files := i'.files } ∧ SameFiles P i.files i'.files
  | .update u, .update u' =>
      u' = { u with dispatch := u'.dispatch, files := u'.files } ∧ SameFiles P u.files u'.files ∧
        ∀ idx, (u'.dispatch idx).ret = (u.dispatch idx).ret ∧
          List.Forall₂ (SameFrame P) (u.dispatch idx).frames (u'.dispatch idx).frames
  | .shutdown, .shutdown => True
  | _, _ => False

theorem sameCall_of_sameOutside {P : Set Pid} {c c' : Call} (h : SameOutside P c c') : SameCall (confined P) c c' := by
  cases c with
  | init i =>
    cases c' with
    | init i' =>
      obtain ⟨hi, hfiles⟩ := h
      refine ⟨?_, by rw [hi], fun devices pids => by rw [hi], confined_parses hfiles⟩
      rw [hi]
    | update _ => cases h
    | shutdown => cases h
  | update u =>
    cases c' with
    | update u' =>
      obtain ⟨hu, hfiles, hframes⟩ := h
      refine ⟨by rw [hu], fun devices pids => by rw [hu], fun idx => (hframes idx).1, fun idx => ?_, by rw [hu],
        confined_parses hfiles⟩
      exact (hframes idx).2.imp fun f f' hf => ⟨hf.1, confined_parses hf.2⟩
    | init _ => cases h
    | shutdown => cases h
  | shutdown =>
    cases c' with
    | shutdown => trivial
    | init _ => cases h
    | update _ => cases h

/-- The same record, or records of one process of `P` that has sent and received as much. -/
def SameRecord (P : Set Pid) (r r' : ProcessRecord) : Prop :=
  r' = r ∨ r.pid ∈ P ∧ r'.pid = r.pid ∧ r'.recv = r.recv ∧ r'.send = r.send

/-- The same event, or reports with such records. -/
def SameEvent (P : Set Pid) (e e' : Event) : Prop :=
  e' = e ∨ ∃ data data' size, e = .processCallback .update data size ∧ e' = .processCallback .update data' size ∧
    List.Forall₂ (SameRecord P) data data'

theorem sameRecord_of_records {P : Set Pid} {r r' : ProcessRecord} (h : (confined P).Records r r') :
    SameRecord P r r' := by
  obtain ⟨k, p, p', ⟨hpid, htraffic, hsame⟩, rfl, rfl⟩ := h
  by_cases hk : k ∈ P
  · obtain ⟨hpids, hbytes⟩ := Prod.mk.inj htraffic
    obtain ⟨hrecv, hsend⟩ := Prod.mk.inj hbytes
    have hmem : p.pid ∈ P := by rwa [hpid]
    exact Or.inr ⟨hmem, hpids, hrecv, hsend⟩
  · exact Or.inl (congrArg processRecord (hsame hk))

theorem sameEvent_of_events {P : Set Pid} {e e' : Event} (h : (confined P).Events e e') : SameEvent P e e' := by
  cases h with
  | same => exact Or.inl rfl
  | report data data' size hdata =>
    exact Or.inr ⟨data, data', size, rfl, rfl, hdata.imp fun _ _ hr => sameRecord_of_records hr⟩

/-- Two runs on hosts that differ in the files of the processes of `P` only: they have the
same pids in the table, the same entries under all others, the same counters under all, and
agree in all that is not a process; and reports differ in records of `P` at most. -/
theorem files_confined (P : Set Pid) (cs cs' : List Call) (h : List.Forall₂ (SameOutside P) cs cs') :
    (∀ k, k ∉ P → (reached cs').processes.find k = (reached cs).processes.find k) ∧
      (∀ k, ((reached cs').processes.find k).map CapProcess.traffic =
        ((reached cs).processes.find k).map CapProcess.traffic) ∧
      List.Forall₂ (SameRecord P) (reached cs).processData (reached cs').processData ∧
      List.Forall₂ (SameEvent P) (reached cs).log (reached cs').log ∧
      tables.strip (reached cs') = tables.strip (reached cs) := by
  have halike := Alike.reached (confined_kept P) (h.imp fun _ _ hc => sameCall_of_sameOutside hc)
  refine ⟨fun k hk => ?_, fun k => ?_, halike.processData.imp fun _ _ hr => sameRecord_of_records hr,
    halike.log.imp fun _ _ he => sameEvent_of_events he, halike.rest.symm⟩
  · have hfind := halike.processes k
    generalize (reached cs).processes.find k = p, (reached cs').processes.find k = p' at hfind
    cases hfind with
    | none => rfl
    | some hpair => exact congrArg some (hpair.2.2 hk)
  · have hfind := halike.processes k
    generalize (reached cs).processes.find k = p, (reached cs').processes.find k = p' at hfind
    cases hfind with
    | none => rfl
    | some hpair => exact congrArg some hpair.2.1

def renamed (k : Pid) : ProcFiles :=
  if k = 1 then { ProcFiles.absent with status := some ["Name:\tsh".toList], cmdline := some [] } else ProcFiles.absent

def renamedInit (pids : List (Fin 10)) : InitInput := { lanInit pids with files := renamed }

/-- Under its new name the process has sent the 38 bytes of the frame. -/
theorem files_confined_renamed :
    ((reached [.init (renamedInit [1]), .update (webUpdate mixedDispatch)]).processes.find 1).map CapProcess.traffic =
      some (1, 0, 38) := by
  have hsame : List.Forall₂ (SameOutside {1}) [.init (lanInit [1]), .update (webUpdate mixedDispatch)]
      [.init (renamedInit [1]), .update (webUpdate mixedDispatch)] := by
    have hfiles : SameFiles {1} (lanInit [1]).files (renamedInit [1]).files := fun k hk => if_neg hk
    refine .cons ⟨rfl, hfiles⟩ (.cons ⟨rfl, fun _ _ => rfl, fun _ => ⟨rfl, ?_⟩⟩ .nil)
    exact List.forall₂_same.mpr fun _ _ => ⟨rfl, fun _ _ => rfl⟩
  rw [(files_confined {1} _ _ hsame).2.1 1]
  decide +kernel

end CaptureCxx
end Capture
