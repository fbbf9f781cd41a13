import Capture.Proof.CallStages
import Capture.Proof.RunInvariant

/-! # Processes in two runs, entry by entry

No call compares two processes or lets one of them decide what becomes of another: entries
are made, parsed, credited, reported and erased one by one, under keys that do not depend
on what they hold. So a relation between the processes of two runs that new entries, parses
and packets keep, is kept by whole calls (`Alike.next`): the two runs have the same keys,
related entries and related reports, and agree in everything else. -/
namespace Capture
open SeparatedText AddressText OrderedTable StateFrame

set_option autoImplicit false

/-- A relation between the processes two runs have under a pid. -/
abbrev EntryRelation := Pid → CapProcess → CapProcess → Prop

namespace EntryRelation

variable (Q : EntryRelation)

/-- New entries are related, and stay so when the same packet is added. -/
structure Kept : Prop where
  start : ∀ k, Q k { pid := k } { pid := k }
  addPacket : ∀ k devices cap p p', Q k p p' → Q k (p.addPacket devices cap) (p'.addPacket devices cap)

/-- Parsing files `g` in the one run and `g'` in the other keeps processes related. -/
def Parses (g g' : Pid → ProcFiles) : Prop :=
  ∀ k call imemory ideltacpu p p', Q k p p' →
    Q k (CapProcess.parse call (g k) imemory ideltacpu p) (CapProcess.parse call (g' k) imemory ideltacpu p')

/-- Records of related processes. -/
def Records (r r' : ProcessRecord) : Prop :=
  ∃ k p p', Q k p p' ∧ r = CaptureCxx.processRecord p ∧ r' = CaptureCxx.processRecord p'

/-- The same event, or reports of related processes. -/
inductive Events : Event → Event → Prop where
  | same (e : Event) : Events e e
  | report (data data' : List ProcessRecord) (size : ℕ) (h : List.Forall₂ Q.Records data data') :
      Events (.processCallback .update data size) (.processCallback .update data' size)

/-- The same frame, but for the files a process it brings in is read from. -/
def Frames (f f' : Frame) : Prop := f' = { f with files := f'.files } ∧ Q.Parses f.files f'.files

end EntryRelation

namespace CaptureCxx

/-! ## States -/

/-- The process table, the process records and the log. -/
def tables : Region CaptureCxx where
  strip s := { s with processes := Table.empty, processData := [], log := [] }
  restore s t := { t with processes := s.processes, processData := s.processData, log := s.log ++ t.log }
  strip_restore _ _ := rfl
  restore_strip s := by simp
  restore_restore s t w := by simp

theorem tables_within_buffer : tables.Within exceptBuffer := ⟨fun _ => rfl, fun s t => by simp [exceptBuffer, tables]⟩

theorem tables_within_pcaps : tables.Within exceptPcaps := ⟨fun _ => rfl, fun s t => by simp [exceptPcaps, tables]⟩

structure Alike (Q : EntryRelation) (s s' : CaptureCxx) : Prop where
  rest : tables.strip s = tables.strip s'
  processes : Table.Related Q s.processes s'.processes
  processData : List.Forall₂ Q.Records s.processData s'.processData
  log : List.Forall₂ Q.Events s.log s'.log

namespace Alike

variable {Q : EntryRelation} {s s' : CaptureCxx}

theorem devices (h : Alike Q s s') : s'.devices = s.devices := (congrArg CaptureCxx.devices h.rest :).symm

theorem handles (h : Alike Q s s') : s'.handles = s.handles := (congrArg CaptureCxx.handles h.rest :).symm

theorem pids (h : Alike Q s s') : s'.pids = s.pids := (congrArg CaptureCxx.pids h.rest :).symm

theorem inodes (h : Alike Q s s') : s'.inodes = s.inodes := (congrArg CaptureCxx.inodes h.rest :).symm

theorem calls (h : Alike Q s s') : s'.calls = s.calls := (congrArg CaptureCxx.calls h.rest :).symm

theorem memory (h : Alike Q s s') : s'.memory = s.memory := (congrArg CaptureCxx.memory h.rest :).symm

theorem deltaCpu (h : Alike Q s s') : s'.deltaCpu = s.deltaCpu := (congrArg CaptureCxx.deltaCpu h.rest :).symm

theorem processCallback (h : Alike Q s s') : s'.processCallback = s.processCallback :=
  (congrArg CaptureCxx.processCallback h.rest :).symm

theorem size (h : Alike Q s s') : s'.processes.size = s.processes.size := by
  have hlen := h.processes.entries.length_eq
  exact hlen.symm

theorem setProcesses (h : Alike Q s s') {t t' : Table Pid CapProcess} (ht : Table.Related Q t t') :
    Alike Q { s with processes := t } { s' with processes := t' } := ⟨h.rest, ht, h.processData, h.log⟩

/-- What neither asks for the processes nor for the reports happens alike. -/
theorem spared (h : Alike Q s s') {f : CaptureCxx → CaptureCxx} (hf : tables.Spared f) : Alike Q (f s) (f s') := by
  rw [hf s, hf s', h.rest]
  refine ⟨rfl, h.processes, h.processData, List.rel_append h.log ?_⟩
  exact List.forall₂_same.mpr fun e _ => .same e

end Alike

/-! ## The stages that do not ask for the processes -/

theorem tables_emit (e : Event) : tables.Spared (emit e) := fun s => by simp [tables, emit]

theorem tables_extend (es : List Event) : tables.Spared (extend es) := fun s => by simp [tables, extend]

theorem tables_updatePids (proc : Option (List ProcEntry)) : tables.Spared fun s => (updatePids proc s).2 :=
  fun s => by simp [tables, updatePids]

theorem tables_refresh (i : RefreshInput) : tables.Spared (refresh i) := fun s => by simp [tables, refresh]

theorem tables_sample : tables.Spared sample := fun s => by simp [tables, sample]

theorem tables_getCpuTotal (stat : Option (List Text)) : tables.Spared fun s => (getCpuTotal stat s).2 := by
  intro s
  unfold getCpuTotal
  cases stat with
  | none => exact tables.spared_id s
  | some lines =>
    dsimp only
    cases lines.findSome? cpuTicks with
    | none => exact tables.spared_id s
    | some now => simp [tables]

theorem tables_configure (i : InitInput) : tables.Spared (configure i) := by
  intro s
  unfold configure getMemTotal
  cases i.meminfo <;> simp [tables, initDevice]

theorem tables_reportPackets (ret : ℤ) : tables.Spared (reportPackets ret) := by
  intro s
  unfold reportPackets
  by_cases hreport : s.packetCallback ∧ 0 < ret ∧ s.packetData ≠ []
  · have hstrip : (tables.strip s).packetCallback ∧ 0 < ret ∧ (tables.strip s).packetData ≠ [] := hreport
    rw [if_pos hreport, if_pos hstrip]
    exact tables_emit _ s
  · have hstrip : ¬ ((tables.strip s).packetCallback ∧ 0 < ret ∧ (tables.strip s).packetData ≠ []) := hreport
    rw [if_neg hreport, if_neg hstrip]
    exact tables.spared_id s

/-! ## The stages that do -/

namespace Alike

variable {Q : EntryRelation} {s s' : CaptureCxx}

theorem enter (h : Alike Q s s') : Alike Q (enter s) (enter s') :=
  ⟨(congrArg (fun t : CaptureCxx => { t with calls := t.calls + 1 }) h.rest :), h.processes, h.processData, .nil⟩

/-- A parse of the entry, called with what both runs have sampled. -/
theorem parsed (h : Alike Q s s') {g g' : Pid → ProcFiles} (hg : Q.Parses g g') {pid : Pid} {p p' : CapProcess}
    (hp : Q pid p p') : Q pid (CapProcess.parse s.calls (g pid) s.memory s.deltaCpu p)
      (CapProcess.parse s'.calls (g' pid) s'.memory s'.deltaCpu p') := by
  rw [h.calls, h.memory, h.deltaCpu]
  exact hg pid s.calls s.memory s.deltaCpu p p' hp

theorem setParsed (h : Alike Q s s') {pid : Pid} {p p' : CapProcess} (hp : Q pid p p') :
    Alike Q (emit (.parse pid s.memory s.deltaCpu) { s with processes := s.processes.insert pid p })
      (emit (.parse pid s'.memory s'.deltaCpu) { s' with processes := s'.processes.insert pid p' }) := by
  have hevent : Event.parse pid s'.memory s'.deltaCpu = .parse pid s.memory s.deltaCpu := by rw [h.memory, h.deltaCpu]
  rw [hevent]
  exact (h.setProcesses (h.processes.insert hp)).spared (tables_emit _)

theorem addPacket (hQ : Q.Kept) (h : Alike Q s s') {g g' : Pid → ProcFiles} (hg : Q.Parses g g') (pid : Pid)
    (cap : CapPacket) : Alike Q (addPacket g pid cap s) (addPacket g' pid cap s') := by
  have hadd : ∀ p p', Q pid p p' → Q pid (p.addPacket s.devices cap) (p'.addPacket s'.devices cap) := by
    rw [h.devices]
    exact hQ.addPacket pid s.devices cap
  have hfind := h.processes pid
  unfold CaptureCxx.addPacket
  generalize s.processes.find pid = p, s'.processes.find pid = p' at hfind
  cases hfind with
  | none => exact (h.setParsed (hadd _ _ (h.parsed hg (hQ.start pid)))).spared (tables_emit (.insert pid))
  | some hpair => exact h.setProcesses (h.processes.insert (hadd _ _ hpair))

theorem absorb (hQ : Q.Kept) (h : Alike Q s s') {f f' : Frame} (hf : Q.Frames f f') (a : Attributed) :
    Alike Q (absorb f a s) (absorb f' a s') := by
  obtain ⟨hframe, hfiles⟩ := hf
  have hstore : ∀ t, storePacket .tcp a.segment.family a.cap f' a.segment.offset t =
      storePacket .tcp a.segment.family a.cap f a.segment.offset t := by
    intro t
    rw [hframe]
    rfl
  unfold CaptureCxx.absorb
  rw [hstore]
  exact (h.addPacket hQ hfiles a.pid a.cap).spared ((spared_storePacket _ _ _ _ _).mono tables_within_buffer)

theorem handlePacket (hQ : Q.Kept) (h : Alike Q s s') (g : CapHandle) {f f' : Frame} (hf : Q.Frames f f') :
    (g.handlePacket f' s').1 = (g.handlePacket f s).1 ∧ Alike Q (g.handlePacket f s).2 (g.handlePacket f' s').2 := by
  obtain ⟨hframe, hfiles⟩ := hf
  generalize f'.files = files at hframe hfiles
  subst hframe
  unfold CapHandle.handlePacket
  by_cases hcb : g.callback = true
  · rw [if_pos hcb, if_pos hcb]
    refine ⟨?_, ?_⟩
    · have hheader : CapProtocol.ipHeader g.linktype { f with files := files } = CapProtocol.ipHeader g.linktype f := rfl
      rw [parse_layers, parse_layers, hheader]
      cases CapProtocol.ipHeader g.linktype f with
      | none => rfl
      | some p => cases p <;> rfl
    · have hread := h.spared (tables_extend (.frame g.device f.serial :: protocolEvents g.linktype f))
      rw [parse_eq, parse_eq, h.devices, h.inodes]
      show Alike Q (settle f ((CapProtocol.decode g.linktype f).bind (Segment.attribute s.devices s.inodes f)) _)
        (settle _ ((CapProtocol.decode g.linktype f).bind (Segment.attribute s.devices s.inodes f)) _)
      cases (CapProtocol.decode g.linktype f).bind (Segment.attribute s.devices s.inodes f) with
      | none => exact hread
      | some a => exact hread.absorb hQ ⟨rfl, hfiles⟩ a
  · rw [if_neg hcb, if_neg hcb]
    exact ⟨rfl, h⟩

theorem handleFrames (hQ : Q.Kept) (h : Alike Q s s') (g : CapHandle) {fs fs' : List Frame}
    (hfs : List.Forall₂ Q.Frames fs fs') : (handleFrames g fs' s').1 = (handleFrames g fs s).1 ∧
      Alike Q (handleFrames g fs s).2 (handleFrames g fs' s').2 := by
  induction hfs generalizing g s s' with
  | nil => exact ⟨rfl, h⟩
  | cons hf _ ih =>
    obtain ⟨hctx, hhandled⟩ := h.handlePacket hQ g hf
    rw [CaptureCxx.handleFrames, CaptureCxx.handleFrames, hctx]
    exact ih hhandled _

theorem dispatchLoop (hQ : Q.Kept) (h : Alike Q s s') {dispatch dispatch' : ℕ → Dispatch}
    (hret : ∀ idx, (dispatch' idx).ret = (dispatch idx).ret)
    (hframes : ∀ idx, List.Forall₂ Q.Frames (dispatch idx).frames (dispatch' idx).frames) (hs : List CapHandle)
    (idx : ℕ) (ret : ℤ) :
    (dispatchLoop dispatch' idx hs ret s').1 = (dispatchLoop dispatch idx hs ret s).1 ∧
      (dispatchLoop dispatch' idx hs ret s').2.1 = (dispatchLoop dispatch idx hs ret s).2.1 ∧
      Alike Q (dispatchLoop dispatch idx hs ret s).2.2 (dispatchLoop dispatch' idx hs ret s').2.2 := by
  induction hs generalizing idx ret s s' with
  | nil => exact ⟨rfl, rfl, h⟩
  | cons g hs ih =>
    have hdispatched : (g.dispatch (dispatch' idx)).1 = (g.dispatch (dispatch idx)).1 ∧
        List.Forall₂ Q.Frames (g.dispatch (dispatch idx)).2 (g.dispatch (dispatch' idx)).2 := by
      unfold CapHandle.dispatch
      by_cases hnone : g.handle = none
      · rw [if_pos hnone, if_pos hnone]
        exact ⟨rfl, .nil⟩
      · rw [if_neg hnone, if_neg hnone]
        exact ⟨hret idx, hframes idx⟩
    obtain ⟨hone, hfs⟩ := hdispatched
    obtain ⟨hctx, hhandled⟩ := h.handleFrames hQ g hfs
    obtain ⟨hrest, hlast, hstate⟩ := ih hhandled (idx + 1) (g.dispatch (dispatch idx)).1
    rw [CaptureCxx.dispatchLoop, CaptureCxx.dispatchLoop, hone]
    exact ⟨List.cons_eq_cons.mpr ⟨hctx, hrest⟩, hlast, hstate⟩

theorem newProcess (hQ : Q.Kept) (h : Alike Q s s') {g g' : Pid → ProcFiles} (hg : Q.Parses g g') (pid : Pid) :
    Alike Q (newProcess g s pid) (newProcess g' s' pid) :=
  (h.setParsed (h.parsed hg (hQ.start pid))).spared (tables_emit (.insert pid))

theorem foldl_newProcess (hQ : Q.Kept) (h : Alike Q s s') {g g' : Pid → ProcFiles} (hg : Q.Parses g g')
    (pids : List Pid) : Alike Q (pids.foldl (CaptureCxx.newProcess g) s) (pids.foldl (CaptureCxx.newProcess g') s') := by
  induction pids generalizing s s' with
  | nil => exact h
  | cons pid pids ih => exact ih (h.newProcess hQ hg pid)

theorem removeProcess (h : Alike Q s s') (pid : Pid) : Alike Q (removeProcess pid s) (removeProcess pid s') := by
  unfold CaptureCxx.removeProcess
  rw [h.processCallback]
  by_cases hcb : s.processCallback = true
  · rw [if_pos hcb, if_pos hcb]
    have htold := h.spared (tables_emit (.processCallback .remove [{ pid := pid }] 1))
    exact (htold.setProcesses (h.processes.erase pid)).spared (tables_emit (.erase pid))
  · rw [if_neg hcb, if_neg hcb]
    exact (h.setProcesses (h.processes.erase pid)).spared (tables_emit (.erase pid))

theorem parseProcess (h : Alike Q s s') {g g' : Pid → ProcFiles} (hg : Q.Parses g g') (pid : Pid) :
    Alike Q (parseProcess g pid s) (parseProcess g' pid s') := by
  have hfind := h.processes pid
  unfold CaptureCxx.parseProcess
  generalize s.processes.find pid = p, s'.processes.find pid = p' at hfind
  cases hfind with
  | none => exact h
  | some hpair => exact h.setParsed (h.parsed hg hpair)

theorem reconcileLoop (h : Alike Q s s') {g g' : Pid → ProcFiles} (hg : Q.Parses g g') (ps ks : List Pid) :
    Alike Q (reconcileLoop g ps ks s) (reconcileLoop g' ps ks s') := by
  induction ks generalizing ps s s' with
  | nil => cases ps <;> exact h
  | cons k ks ih =>
    cases ps with
    | nil => exact h
    | cons p ps =>
      rw [CaptureCxx.reconcileLoop, CaptureCxx.reconcileLoop]
      by_cases hpk : p = k
      · rw [if_neg (not_not_intro hpk), if_neg (not_not_intro hpk)]
        exact ih (h.parseProcess hg k) ps
      · rw [if_pos hpk, if_pos hpk]
        exact ih (h.removeProcess k) (p :: ps)

theorem reconcile (h : Alike Q s s') {g g' : Pid → ProcFiles} (hg : Q.Parses g g') :
    Alike Q (reconcile g s) (reconcile g' s') := by
  unfold CaptureCxx.reconcile
  rw [h.pids, h.size, ← h.processes.keys_eq]
  by_cases hsize : s.pids.size = s.processes.size
  · rw [if_neg (not_not_intro hsize), if_neg (not_not_intro hsize)]
    exact h
  · rw [if_pos hsize, if_pos hsize]
    exact h.reconcileLoop hg s.pids.keys s.processes.keys

theorem reportData (h : Alike Q s s') : List.Forall₂ Q.Records (reportData s) (reportData s') := by
  unfold CaptureCxx.reportData
  rw [h.size]
  refine List.rel_append ?_ (List.forall₂_drop _ h.processData)
  rw [List.forall₂_map_left_iff, List.forall₂_map_right_iff]
  exact h.processes.entries.imp fun e e' he => ⟨e.1, e.2, e'.2, he.2, rfl, rfl⟩

theorem reportProcesses (h : Alike Q s s') : Alike Q (reportProcesses s) (reportProcesses s') := by
  rw [reportProcesses_eq, reportProcesses_eq]
  by_cases hcb : s.processCallback = true
  · rw [if_pos hcb, if_pos (h.processCallback.trans hcb)]
    refine ⟨h.rest, h.processes, h.reportData, List.rel_append h.log (.cons ?_ .nil)⟩
    rw [h.size]
    exact .report _ _ _ h.reportData
  · rw [if_neg hcb, if_neg (h.processCallback ▸ hcb)]
    exact h

end Alike

/-! ## The calls -/

/-- The calls are the same, but for the files of the processes, and for how the directories
and the socket tables are listed as long as the same is made of them. -/
structure SameInit (Q : EntryRelation) (i i' : InitInput) : Prop where
  rest : i' = { i with proc := i'.proc, refresh := i'.refresh, files := i'.files }
  snapshot : snapshot i'.proc = snapshot i.proc
  refresh : ∀ devices pids,
    (CapInodeHelper.refresh devices pids i'.refresh).2 = (CapInodeHelper.refresh devices pids i.refresh).2
  files : Q.Parses i.files i'.files

structure SameUpdate (Q : EntryRelation) (u u' : UpdateInput) : Prop where
  snapshot : snapshot u'.proc = snapshot u.proc
  refresh : ∀ devices pids,
    (CapInodeHelper.refresh devices pids u'.refresh).2 = (CapInodeHelper.refresh devices pids u.refresh).2
  ret : ∀ idx, (u'.dispatch idx).ret = (u.dispatch idx).ret
  frames : ∀ idx, List.Forall₂ Q.Frames (u.dispatch idx).frames (u'.dispatch idx).frames
  stat : u'.stat = u.stat
  files : Q.Parses u.files u'.files

def SameCall (Q : EntryRelation) : Call → Call → Prop
  | .init i, .init i' => SameInit Q i i'
  | .update u, .update u' => SameUpdate Q u u'
  | .shutdown, .shutdown => True
  | _, _ => False

namespace Alike

variable {Q : EntryRelation} {s s' : CaptureCxx}

theorem dispatchAll (hQ : Q.Kept) (h : Alike Q s s') {u u' : UpdateInput} (hu : SameUpdate Q u u') :
    (dispatchAll u'.dispatch s').1 = (dispatchAll u.dispatch s).1 ∧
      Alike Q (dispatchAll u.dispatch s).2 (dispatchAll u'.dispatch s').2 := by
  obtain ⟨hctx, hret, hstate⟩ := h.dispatchLoop hQ hu.ret hu.frames s.handles 0 0
  have hhandles : ∀ hs : List CapHandle, tables.Spared fun s : CaptureCxx => { s with handles := hs } :=
    fun hs s => by simp [tables]
  unfold CaptureCxx.dispatchAll
  rw [h.handles]
  refine ⟨hret, ?_⟩
  dsimp only
  rw [hctx]
  exact hstate.spared (hhandles _)

theorem beginUpdate (h : Alike Q s s') {u u' : UpdateInput} (hu : SameUpdate Q u u') :
    Alike Q (beginUpdate u s) (beginUpdate u' s') := by
  have hrewound : tables.Spared fun s : CaptureCxx => { s with packetIdx := 0 } := fun s => by simp [tables]
  have hread : CaptureCxx.beginUpdate u' s' =
      refresh u.refresh (updatePids u.proc { CaptureCxx.enter s' with packetIdx := 0 }).2 := by
    unfold CaptureCxx.beginUpdate updatePids refresh
    dsimp only
    rw [hu.snapshot, hu.refresh]
  rw [hread]
  exact ((h.enter.spared hrewound).spared (tables_updatePids u.proc)).spared (tables_refresh u.refresh)

theorem update (hQ : Q.Kept) (h : Alike Q s s') {u u' : UpdateInput} (hu : SameUpdate Q u u') :
    Alike Q (update u s).2 (update u' s').2 := by
  obtain ⟨hret, hdispatched⟩ := (h.beginUpdate hu).dispatchAll hQ hu
  unfold CaptureCxx.update
  dsimp only
  rw [hret, hu.stat]
  have htimed := hdispatched.spared (tables_getCpuTotal u.stat)
  have hcode : (getCpuTotal u.stat (CaptureCxx.dispatchAll u'.dispatch (CaptureCxx.beginUpdate u' s')).2).1 =
      (getCpuTotal u.stat (CaptureCxx.dispatchAll u.dispatch (CaptureCxx.beginUpdate u s)).2).1 := by
    unfold getCpuTotal
    cases u.stat with
    | none => rfl
    | some lines => dsimp only; cases lines.findSome? cpuTicks <;> rfl
  rw [hcode]
  split
  · exact htimed
  · exact (((htimed.reconcile hu.files).reportProcesses).spared (tables_reportPackets _)).spared tables_sample

theorem init (hQ : Q.Kept) (h : Alike Q s s') {i i' : InitInput} (hi : SameInit Q i i') :
    Alike Q (init i s).2 (init i' s').2 := by
  have hprepared : Alike Q (prepare i s) (prepare i s') := h.enter.spared (tables_configure i)
  have hsame : prepare i' s' = prepare i s' := by
    rw [hi.rest]
    rfl
  by_cases hnil : (prepare i s).devices = []
  · have hnil' : (prepare i' s').devices = [] := by rw [hsame, hprepared.devices, hnil]
    rw [init_of_no_device i s hnil, init_of_no_device i' s' hnil', hsame]
    exact hprepared
  · have hnil' : (prepare i' s').devices ≠ [] := by rw [hsame, hprepared.devices]; exact hnil
    have hopened : Alike Q (withHandles i s) (withHandles i' s') := by
      have hfliter : i'.fliter = i.fliter := by rw [hi.rest]
      have hpcap : i'.pcap = i.pcap := by rw [hi.rest]
      unfold withHandles
      rw [hsame, hfliter, hpcap, hprepared.devices]
      exact hprepared.spared ((spared_openHandles i.fliter i.pcap (prepare i s).devices 0).mono tables_within_pcaps)
    have hread : surveyed i' s' = refresh i.refresh (updatePids i.proc (withHandles i' s')).2 := by
      unfold surveyed updatePids refresh
      dsimp only
      rw [hi.snapshot, hi.refresh]
    rw [init_of_devices i s hnil, init_of_devices i' s' hnil', hread, hi.snapshot]
    have hsurveyed := (hopened.spared (tables_updatePids i.proc)).spared (tables_refresh i.refresh)
    exact (hsurveyed.foldl_newProcess hQ hi.files (CaptureCxx.snapshot i.proc).keys).spared tables_sample

theorem next (hQ : Q.Kept) (h : Alike Q s s') {c c' : Call} (hc : SameCall Q c c') :
    Alike Q (next s c) (next s' c') := by
  cases c with
  | init i =>
    cases c' with
    | init i' => exact h.init hQ hc
    | update _ => cases hc
    | shutdown => cases hc
  | update u =>
    cases c' with
    | update u' => exact h.update hQ hc
    | init _ => cases hc
    | shutdown => cases hc
  | shutdown =>
    cases c' with
    | shutdown => exact h
    | init _ => cases hc
    | update _ => cases hc

theorem initial (Q : EntryRelation) : Alike Q CaptureCxx.initial CaptureCxx.initial :=
  ⟨rfl, fun _ => .none, .nil, .nil⟩

theorem reached (hQ : Q.Kept) {cs cs' : List Call} (h : List.Forall₂ (SameCall Q) cs cs') :
    Alike Q (reached cs) (reached cs') := by
  have hstep : ∀ s s', Alike Q s s' → ∀ c c', SameCall Q c c' → Alike Q (CaptureCxx.next s c) (CaptureCxx.next s' c') :=
    fun _ _ hs _ _ hc => hs.next hQ hc
  exact List.rel_foldl (fun s s' hs c c' hc => hstep s s' hs c c' hc) (initial Q) h

end Alike

end CaptureCxx
end Capture
