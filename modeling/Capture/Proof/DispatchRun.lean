import Capture.Proof.FrameEffect

/-! # The dispatch loop

The loop of `Update` over the handles is one pass over the frames delivered, in order
(`dispatchAll_eq`), so what a frame preserves the loop preserves. The context a frame
leaves in its handle is overwritten before it is read again. -/
namespace Capture
open SeparatedText AddressText OrderedTable

set_option autoImplicit false

namespace CaptureCxx

/-! ## One pass over the delivered frames -/

def feed (s : CaptureCxx) (x : CapHandle × Frame) : CaptureCxx := (x.1.handlePacket x.2 s).2

/-- The frames the handles from number `idx` on pass to their callbacks. -/
def delivered (dispatch : ℕ → Dispatch) : ℕ → List CapHandle → List (CapHandle × Frame)
  | _, [] => []
  | idx, h :: hs => (h.dispatch (dispatch idx)).2.map (h, ·) ++ delivered dispatch (idx + 1) hs

theorem frame_of_mem_delivered (dispatch : ℕ → Dispatch) (hs : List CapHandle) (idx : ℕ) (x : CapHandle × Frame)
    (h : x ∈ delivered dispatch idx hs) : ∃ k, x.2 ∈ (dispatch k).frames := by
  induction hs generalizing idx with
  | nil => cases h
  | cons g hs ih =>
    rcases List.mem_append.mp h with h | h
    · obtain ⟨f, hf, rfl⟩ := List.mem_map.mp h
      unfold CapHandle.dispatch at hf
      split at hf
      · cases hf
      · exact ⟨idx, hf⟩
    · exact ih (idx + 1) h

/-- What the dispatch loop leaves in `ret`: the value of the last handle. -/
def lastReturn (dispatch : ℕ → Dispatch) (handles : List CapHandle) : ℤ :=
  match handles.getLast? with
  | none => 0
  | some h => (h.dispatch (dispatch (handles.length - 1))).1

theorem handlePacket_fst (h : CapHandle) (f : Frame) (s : CaptureCxx) :
    ∃ c, (h.handlePacket f s).1 = h.setContext c := by
  unfold CapHandle.handlePacket
  split
  · rw [parse_layers]
    cases CapProtocol.ipHeader h.linktype f with
    | none => exact ⟨h.context, rfl⟩
    | some p => cases p <;> exact ⟨_, rfl⟩
  · exact ⟨h.context, rfl⟩

/-- What a frame does to the rest of the state does not depend on that context. -/
theorem handlePacket_setContext (h : CapHandle) (c : PcapCtx) (f : Frame) (s : CaptureCxx) :
    ((h.setContext c).handlePacket f s).2 = (h.handlePacket f s).2 := by
  unfold CapHandle.handlePacket
  show (if h.callback then _ else _ : CapHandle × CaptureCxx).2 = _
  split
  · rw [parse_eq, parse_eq]
    rfl
  · rfl

theorem handleFrames_eq (h : CapHandle) (fs : List Frame) (s : CaptureCxx) :
    (∃ c, (handleFrames h fs s).1 = h.setContext c) ∧
      (handleFrames h fs s).2 = (fs.map (h, ·)).foldl feed s := by
  have key : ∀ c s, (∃ c', (handleFrames (h.setContext c) fs s).1 = h.setContext c') ∧
      (handleFrames (h.setContext c) fs s).2 = (fs.map (h, ·)).foldl feed s := by
    induction fs with
    | nil => exact fun c s => ⟨⟨c, rfl⟩, rfl⟩
    | cons f fs ih =>
      intro c s
      obtain ⟨c', hc'⟩ := handlePacket_fst (h.setContext c) f s
      have hnext := ih c' ((h.setContext c).handlePacket f s).2
      rw [handleFrames, hc']
      refine ⟨hnext.1, hnext.2.trans ?_⟩
      rw [handlePacket_setContext]
      rfl
  exact key h.context s

theorem dispatchLoop_eq (dispatch : ℕ → Dispatch) (hs : List CapHandle) (idx : ℕ) (ret : ℤ) (s : CaptureCxx) :
    (dispatchLoop dispatch idx hs ret s).1.map (·.setContext .unspec) = hs.map (·.setContext .unspec) ∧
      (dispatchLoop dispatch idx hs ret s).2.1 = (match hs.getLast? with
        | none => ret
        | some h => (h.dispatch (dispatch (idx + (hs.length - 1)))).1) ∧
      (dispatchLoop dispatch idx hs ret s).2.2 = (delivered dispatch idx hs).foldl feed s := by
  induction hs generalizing idx ret s with
  | nil => exact ⟨rfl, rfl, rfl⟩
  | cons h hs ih =>
    obtain ⟨⟨c, hc⟩, hfold⟩ := handleFrames_eq h (h.dispatch (dispatch idx)).2 s
    obtain ⟨hctx, hret, hstate⟩ := ih (idx + 1) (h.dispatch (dispatch idx)).1
      (handleFrames h (h.dispatch (dispatch idx)).2 s).2
    refine ⟨?_, ?_, ?_⟩
    · rw [dispatchLoop, List.map_cons, List.map_cons, hctx, hc]
      rfl
    · rw [dispatchLoop, hret]
      cases hs with
      | nil => rfl
      | cons h' hs =>
        have hidx : idx + 1 + ((h' :: hs).length - 1) = idx + ((h :: h' :: hs).length - 1) := by
          simp only [List.length_cons]
          omega
        rw [List.getLast?_cons_cons, hidx]
        cases hlast : (h' :: hs).getLast? with
        | none => simp at hlast
        | some l => rfl
    · rw [dispatchLoop, hstate, hfold, delivered, List.foldl_append]

theorem dispatchAll_eq (dispatch : ℕ → Dispatch) (s : CaptureCxx) :
    (dispatchAll dispatch s).1 = lastReturn dispatch s.handles ∧
      ∃ hs, hs.map (·.setContext .unspec) = s.handles.map (·.setContext .unspec) ∧
        (dispatchAll dispatch s).2 =
          { (delivered dispatch 0 s.handles).foldl feed s with handles := hs } := by
  obtain ⟨hctx, hret, hstate⟩ := dispatchLoop_eq dispatch s.handles 0 0 s
  refine ⟨?_, _, hctx, ?_⟩
  · rw [dispatchAll, hret, lastReturn]
    cases s.handles.getLast? with
    | none => rfl
    | some h => rw [Nat.zero_add]
  · rw [dispatchAll, hstate]

/-! ## What the frames of a pass do -/

def attributions (devices : List CapDevice) (inodes : CapInodeHelper) (xs : List (CapHandle × Frame)) :
    List (Frame × Attributed) :=
  xs.filterMap fun x => (x.1.attribute devices inodes x.2).map (x.2, ·)

theorem feed_settles (s : CaptureCxx) (x : CapHandle × Frame) :
    ∃ es, (∀ e ∈ es, e.Protocol) ∧
      feed s x = settle x.2 (x.1.attribute s.devices s.inodes x.2) (extend (announced x.1 x.2 ++ es) s) := by
  obtain ⟨es, hes, h⟩ := handlePacket_settles x.1 x.2 s
  refine ⟨es, hes, h.trans ?_⟩
  simp [extend]

theorem mem_announced {h : CapHandle} {f : Frame} {e : Event} (he : e ∈ announced h f) :
    e = .frame h.device f.serial := by
  unfold announced at he
  split at he
  · exact List.mem_singleton.mp he
  · cases he

theorem announced_silent (h : CapHandle) (f : Frame) {es : List Event} (hes : ∀ e ∈ es, e.Protocol) :
    ∀ e ∈ announced h f ++ es, e.written = none := by
  intro e he
  rcases List.mem_append.mp he with he | he
  · rw [mem_announced he]
    rfl
  · exact (hes e he).silent.1

theorem feed_settings (s : CaptureCxx) (x : CapHandle × Frame) : (feed s x).settings = s.settings := by
  obtain ⟨es, -, h⟩ := feed_settles s x
  rw [h, settings_settle]
  rfl

@[simp] theorem feed_devices (s : CaptureCxx) (x : CapHandle × Frame) : (feed s x).devices = s.devices :=
  (congrArg CaptureCxx.devices (feed_settings s x) :)

@[simp] theorem feed_inodes (s : CaptureCxx) (x : CapHandle × Frame) : (feed s x).inodes = s.inodes :=
  (congrArg CaptureCxx.inodes (feed_settings s x) :)

@[simp] theorem feed_pids (s : CaptureCxx) (x : CapHandle × Frame) : (feed s x).pids = s.pids :=
  (congrArg CaptureCxx.pids (feed_settings s x) :)

@[simp] theorem feed_calls (s : CaptureCxx) (x : CapHandle × Frame) : (feed s x).calls = s.calls :=
  (congrArg CaptureCxx.calls (feed_settings s x) :)

@[simp] theorem feed_memory (s : CaptureCxx) (x : CapHandle × Frame) : (feed s x).memory = s.memory :=
  (congrArg CaptureCxx.memory (feed_settings s x) :)

@[simp] theorem feed_deltaCpu (s : CaptureCxx) (x : CapHandle × Frame) : (feed s x).deltaCpu = s.deltaCpu :=
  (congrArg CaptureCxx.deltaCpu (feed_settings s x) :)

@[simp] theorem feed_packetCallback (s : CaptureCxx) (x : CapHandle × Frame) : (feed s x).packetCallback = s.packetCallback :=
  (congrArg CaptureCxx.packetCallback (feed_settings s x) :)

@[simp] theorem feed_captureAll (s : CaptureCxx) (x : CapHandle × Frame) : (feed s x).captureAll = s.captureAll :=
  (congrArg CaptureCxx.captureAll (feed_settings s x) :)

theorem foldl_feed_settings (xs : List (CapHandle × Frame)) (s : CaptureCxx) :
    (xs.foldl feed s).settings = s.settings := by
  induction xs generalizing s with
  | nil => rfl
  | cons x xs ih => exact (ih (feed s x)).trans (feed_settings s x)

theorem attributions_append (devices : List CapDevice) (inodes : CapInodeHelper) (xs ys : List (CapHandle × Frame)) :
    attributions devices inodes (xs ++ ys) = attributions devices inodes xs ++ attributions devices inodes ys :=
  List.filterMap_append

theorem attributions_cons (s : CaptureCxx) (x : CapHandle × Frame) (xs : List (CapHandle × Frame)) :
    attributions s.devices s.inodes (x :: xs) =
      (x.1.attribute s.devices s.inodes x.2).toList.map (x.2, ·) ++
        attributions (feed s x).devices (feed s x).inodes xs := by
  rw [feed_devices, feed_inodes]
  unfold attributions
  rw [List.filterMap_cons]
  cases x.1.attribute s.devices s.inodes x.2 <;> rfl

theorem feed_log (s : CaptureCxx) (x : CapHandle × Frame) :
    ∃ es, (feed s x).log = s.log ++ es ∧ ∀ e ∈ es, e.FromFrame s.memory s.deltaCpu := by
  obtain ⟨es, hes, h⟩ := feed_settles s x
  obtain ⟨es', hlog, hes'⟩ := settle_log x.2 (x.1.attribute s.devices s.inodes x.2)
    (extend (announced x.1 x.2 ++ es) s)
  refine ⟨announced x.1 x.2 ++ es ++ es', ?_, ?_⟩
  · rw [h, hlog, extend, List.append_assoc, List.append_assoc]
  · intro e he
    rcases List.mem_append.mp he with he | he
    · rcases List.mem_append.mp he with he | he
      · rw [mem_announced he]
        trivial
      · exact (hes e he).fromFrame _ _
    · exact (hes' e he).1

theorem foldl_feed_log (xs : List (CapHandle × Frame)) (s : CaptureCxx) :
    ∃ es, (xs.foldl feed s).log = s.log ++ es ∧ ∀ e ∈ es, e.FromFrame s.memory s.deltaCpu := by
  induction xs generalizing s with
  | nil => exact ⟨[], by simp, by simp⟩
  | cons x xs ih =>
    obtain ⟨es, hlog, hes⟩ := feed_log s x
    obtain ⟨es', hlog', hes'⟩ := ih (feed s x)
    rw [feed_memory, feed_deltaCpu] at hes'
    refine ⟨es ++ es', ?_, ?_⟩
    · rw [List.foldl_cons, hlog', hlog, List.append_assoc]
    · intro e he
      rcases List.mem_append.mp he with he | he
      · exact hes e he
      · exact hes' e he

theorem foldl_feed_recorded {old : List PacketRecord} (xs : List (CapHandle × Frame)) (s : CaptureCxx)
    (h : Recorded old s) (hcb : s.packetCallback = true) :
    Recorded old (xs.foldl feed s) ∧
      (xs.foldl feed s).records.length = s.records.length + (attributions s.devices s.inodes xs).length := by
  induction xs generalizing s with
  | nil => exact ⟨h, rfl⟩
  | cons x xs ih =>
    obtain ⟨es, hes, hx⟩ := feed_settles s x
    have hsilent := announced_silent x.1 x.2 hes
    obtain ⟨hrec, hlen⟩ := (h.extend _ hsilent).settle hcb x.2 (x.1.attribute s.devices s.inodes x.2)
    rw [← hx] at hrec hlen
    have hcb' : (feed s x).packetCallback = true := (feed_packetCallback s x).trans hcb
    obtain ⟨hrec', hlen'⟩ := ih (feed s x) hrec hcb'
    refine ⟨hrec', ?_⟩
    rw [List.foldl_cons, hlen', hlen, records_extend _ hsilent, attributions_cons, List.length_append,
      List.length_map]
    omega

/-! ## Where the entries of the process table come from -/

theorem feed_processes (s : CaptureCxx) (x : CapHandle × Frame) :
    (feed s x).processes = (match x.1.attribute s.devices s.inodes x.2 with
      | none => s.processes
      | some a => s.processes.insert a.pid (credited x.2 a s)) := by
  obtain ⟨es, -, h⟩ := feed_settles s x
  rw [h]
  cases x.1.attribute s.devices s.inodes x.2 with
  | none => rfl
  | some a => exact absorb_processes x.2 a _

theorem foldl_feed_keySet (xs : List (CapHandle × Frame)) (s : CaptureCxx) :
    (xs.foldl feed s).processes.keySet =
      s.processes.keySet ∪ ((attributions s.devices s.inodes xs).map (·.2.pid)).toFinset := by
  induction xs generalizing s with
  | nil => simp [attributions]
  | cons x xs ih =>
    rw [List.foldl_cons, ih, attributions_cons, feed_processes]
    cases x.1.attribute s.devices s.inodes x.2 with
    | none => simp
    | some a =>
      ext k
      simp only [Table.keySet_insert, Finset.mem_union, Finset.mem_insert, Option.toList_some, List.map_cons,
        List.map_nil, List.map_append, List.toFinset_append, List.toFinset_cons, List.toFinset_nil,
        Finset.notMem_empty, or_false]
      tauto

/-- An entry under `k` is, up to packets, one of `s` or one parsed for the first time with
the memory size and the system interval of `s`. -/
def Origin (s : CaptureCxx) (k : Pid) (q : CapProcess) : Prop :=
  (∃ e, s.processes.find k = some e ∧ q.pid = e.pid ∧ q.cpuFields = e.cpuFields) ∨
    s.processes.find k = none ∧ q.pid = k ∧
      ∃ files, q.cpuFields = (CapProcess.parse s.calls files s.memory s.deltaCpu { pid := k }).cpuFields

theorem addPacket_keeps (devices : List CapDevice) (cap : CapPacket) (p : CapProcess) :
    (p.addPacket devices cap).pid = p.pid ∧ (p.addPacket devices cap).cpuFields = p.cpuFields := by
  unfold CapProcess.addPacket
  split <;> exact ⟨rfl, rfl⟩

theorem credited_origin (f : Frame) (a : Attributed) (s : CaptureCxx) : Origin s a.pid (credited f a s) := by
  unfold credited
  cases h : s.processes.find a.pid with
  | none =>
    obtain ⟨hpid, hcpu⟩ := addPacket_keeps s.devices a.cap
      (CapProcess.parse s.calls (f.files a.pid) s.memory s.deltaCpu { pid := a.pid })
    have hparse := congrArg Prod.fst
      (CapProcess.parse_traffic s.calls (f.files a.pid) s.memory s.deltaCpu { pid := a.pid })
    exact Or.inr ⟨h, hpid.trans hparse, _, hcpu⟩
  | some e =>
    obtain ⟨hpid, hcpu⟩ := addPacket_keeps s.devices a.cap e
    exact Or.inl ⟨e, h, hpid, hcpu⟩

theorem feed_origin (s : CaptureCxx) (x : CapHandle × Frame) :
    ∀ k q, (feed s x).processes.find k = some q → Origin s k q := by
  have hold : ∀ k q, s.processes.find k = some q → Origin s k q :=
    fun k q h => Or.inl ⟨q, h, rfl, rfl⟩
  rw [feed_processes]
  cases x.1.attribute s.devices s.inodes x.2 with
  | none => exact hold
  | some a => exact Table.forall_insert hold (credited_origin x.2 a s)

theorem feed_find_none (s : CaptureCxx) (x : CapHandle × Frame) (k : Pid)
    (h : (feed s x).processes.find k = none) : s.processes.find k = none := by
  rw [feed_processes] at h
  cases hx : x.1.attribute s.devices s.inodes x.2 with
  | none => rwa [hx] at h
  | some a =>
    rw [hx, Table.find_insert] at h
    split at h
    · cases h
    · exact h

theorem foldl_feed_origin (xs : List (CapHandle × Frame)) (s : CaptureCxx) :
    ∀ k q, (xs.foldl feed s).processes.find k = some q → Origin s k q := by
  induction xs generalizing s with
  | nil => exact fun k q h => Or.inl ⟨q, h, rfl, rfl⟩
  | cons x xs ih =>
    intro k q h
    rcases ih (feed s x) k q h with ⟨e, he, hpid, hfields⟩ | ⟨hnone, hpid, files, hfields⟩
    · rcases feed_origin s x k e he with ⟨e', he', hpid', hfields'⟩ | ⟨hnone, hpid', files, hfields'⟩
      · exact Or.inl ⟨e', he', hpid.trans hpid', hfields.trans hfields'⟩
      · exact Or.inr ⟨hnone, hpid.trans hpid', files, hfields.trans hfields'⟩
    · rw [feed_calls, feed_memory, feed_deltaCpu] at hfields
      exact Or.inr ⟨feed_find_none s x k hnone, hpid, files, hfields⟩

/-! ## The frames passed to `CapProtocol::Parse` -/

def parsedFrames (s : CaptureCxx) : List (Text × ℕ) := s.log.filterMap Event.parsedFrame

theorem feed_parsedFrames (s : CaptureCxx) (x : CapHandle × Frame) :
    (feed s x).parsedFrames =
      s.parsedFrames ++ if x.1.callback then [(x.1.device, x.2.serial)] else [] := by
  obtain ⟨es, hes, h⟩ := feed_settles s x
  obtain ⟨es', hlog, hes'⟩ := settle_log x.2 (x.1.attribute s.devices s.inodes x.2)
    (extend (announced x.1 x.2 ++ es) s)
  have hnil : es.filterMap Event.parsedFrame = [] :=
    List.filterMap_eq_nil_iff.mpr fun e he => (hes e he).silent.2
  have hnil' : es'.filterMap Event.parsedFrame = [] :=
    List.filterMap_eq_nil_iff.mpr fun e he => (hes' e he).2
  unfold parsedFrames
  rw [h, hlog, extend, List.filterMap_append, List.filterMap_append, List.filterMap_append, hnil, hnil',
    List.append_nil, List.append_nil, announced]
  split <;> rfl

theorem foldl_feed_parsedFrames (xs : List (CapHandle × Frame)) (s : CaptureCxx) :
    (xs.foldl feed s).parsedFrames =
      s.parsedFrames ++ (xs.filter (·.1.callback)).map fun x => (x.1.device, x.2.serial) := by
  induction xs generalizing s with
  | nil => simp
  | cons x xs ih =>
    rw [List.foldl_cons, ih, feed_parsedFrames]
    by_cases hcb : x.1.callback = true
    · simp [hcb]
    · simp [hcb]

end CaptureCxx
end Capture
