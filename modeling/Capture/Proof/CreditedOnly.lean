import Capture.Proof.Attribution
import Capture.Proof.CallStages
import Capture.Proof.InterfaceHandles

/-! # What depends on the frames of an `Update`

A frame that resolves to no process leaves its marks in the log and in the context of its
handle, and nowhere else. So an `Update` is a function of the frames it credits
(`lasting_update`), and two runs that differ in other frames only agree in every
process, every record and every process callback (`uncredited_frames_invisible`). -/
namespace Capture
open SeparatedText AddressText OrderedTable StateFrame

set_option autoImplicit false

/-! ## What lasts -/

/-- Events other than those of the protocol layers and the packet callback, which is told
how many frames `pcap_dispatch` counted. -/
def Event.lasts : Event → Bool
  | .frame _ _ | .read _ _ | .handler _ _ _ | .packetCallback _ _ => false
  | _ => true

namespace CaptureCxx

/-- The state without the contexts left in the handles, with the events that last. -/
def lasting (s : CaptureCxx) : CaptureCxx :=
  { s with handles := s.handles.map (·.setContext .unspec), log := s.log.filter Event.lasts }

theorem lasting_eq_iff (s s' : CaptureCxx) :
    s.lasting = s'.lasting ↔ journal.strip s = journal.strip s' ∧
      s.handles.map (·.setContext .unspec) = s'.handles.map (·.setContext .unspec) ∧
      s.log.filter Event.lasts = s'.log.filter Event.lasts := by
  constructor
  · intro h
    exact ⟨(congrArg journal.strip h :), (congrArg CaptureCxx.handles h :), (congrArg CaptureCxx.log h :)⟩
  · rintro ⟨hstrip, hhandles, hlog⟩
    have hs : ∀ t : CaptureCxx, t.lasting = { journal.strip t with
        handles := t.handles.map (·.setContext .unspec), log := t.log.filter Event.lasts } := fun _ => rfl
    rw [hs, hs, hstrip, hhandles, hlog]

theorem journal_shown_lasting : journal.Shown lasting where
  strip_eq s s' h := ((lasting_eq_iff s s').mp h).1
  restore_eq s s' t h := by
    obtain ⟨-, hhandles, hlog⟩ := (lasting_eq_iff s s').mp h
    refine (lasting_eq_iff _ _).mpr ⟨rfl, ?_, ?_⟩
    · rw [journal, List.map_append, List.map_append, hhandles]
    · rw [journal, List.filter_append, List.filter_append, hlog]

theorem packetJournal_shown_lasting : packetJournal.Shown lasting := journal_shown_lasting.mono journal_within

theorem lasting_extend (es : List Event) (hes : ∀ e ∈ es, e.lasts = false) (s : CaptureCxx) :
    (extend es s).lasting = s.lasting := by
  have hnil : es.filter Event.lasts = [] := List.filter_eq_nil_iff.mpr fun e he => by simp [hes e he]
  refine (lasting_eq_iff _ _).mpr ⟨rfl, rfl, ?_⟩
  rw [extend, List.filter_append, hnil, List.append_nil]

theorem follows_lasting : Follows lasting where
  shown := packetJournal_shown_lasting.mono packetJournal_within
  enter s s' h := by
    obtain ⟨hstrip, hhandles, -⟩ := (lasting_eq_iff s s').mp h
    exact (lasting_eq_iff _ _).mpr ⟨congrArg enter hstrip, hhandles, rfl⟩
  rewind s s' h := congrArg (fun t : CaptureCxx => { t with packetIdx := 0 }) h
  refresh i s s' h := packetJournal_shown_lasting.congr (spared_refresh i) h
  reportPackets ret s := by
    rw [reportPackets_frame]
    refine lasting_extend (packetReport ret s) (fun e he => ?_) s
    rw [((mem_packetReport_iff ret s e).mp he).2]
    rfl

/-! ## The frames of a call -/

theorem journal_within_buffer : journal.Within exceptBuffer :=
  ⟨fun _ => rfl, fun s t => by simp [exceptBuffer, journal]⟩

theorem spared_absorb (f : Frame) (a : Attributed) : journal.Spared (absorb f a) :=
  ((spared_addPacket f.files a.pid a.cap).mono journal_within).comp
    ((spared_storePacket .tcp a.segment.family a.cap f a.segment.offset).mono journal_within_buffer)

def creditAll (ys : List (Frame × Attributed)) (s : CaptureCxx) : CaptureCxx :=
  ys.foldl (fun s y => absorb y.1 y.2 s) s

theorem lasting_creditAll (ys : List (Frame × Attributed)) {s s' : CaptureCxx} (h : s.lasting = s'.lasting) :
    (creditAll ys s).lasting = (creditAll ys s').lasting := by
  have habsorb : ∀ y : Frame × Attributed, journal.Spared fun s => absorb y.1 y.2 s := fun y => spared_absorb y.1 y.2
  exact journal_shown_lasting.congr (Region.Spared.foldl habsorb ys) h

theorem lasting_feed (s : CaptureCxx) (x : CapHandle × Frame) :
    (feed s x).lasting = (creditAll (attributions s.devices s.inodes [x]) s).lasting := by
  obtain ⟨es, hes, h⟩ := feed_settles s x
  have hmarks : ∀ e ∈ announced x.1 x.2 ++ es, e.lasts = false := by
    intro e he
    rcases List.mem_append.mp he with he | he
    · rw [mem_announced he]
      rfl
    · have := hes e he
      cases e <;> first | rfl | cases this
  have hextend := lasting_extend _ hmarks s
  rw [h]
  unfold attributions
  cases ha : x.1.attribute s.devices s.inodes x.2 with
  | none => simpa [ha, settle, creditAll] using hextend
  | some a => simpa [ha, settle, creditAll] using journal_shown_lasting.congr (spared_absorb x.2 a) hextend

/-- Up to what does not last, the frames of a pass do what the credited ones do. -/
theorem lasting_foldl_feed (xs : List (CapHandle × Frame)) (s : CaptureCxx) :
    (xs.foldl feed s).lasting = (creditAll (attributions s.devices s.inodes xs) s).lasting := by
  induction xs generalizing s with
  | nil => rfl
  | cons x xs ih =>
    have hsplit : attributions s.devices s.inodes (x :: xs) =
        attributions s.devices s.inodes [x] ++ attributions s.devices s.inodes xs :=
      attributions_append s.devices s.inodes [x] xs
    have hfirst := lasting_creditAll (attributions s.devices s.inodes xs) (lasting_feed s x)
    rw [List.foldl_cons, ih, feed_devices, feed_inodes, hfirst, hsplit, creditAll, creditAll, creditAll,
      List.foldl_append]

/-! ## One `Update` -/

theorem attributions_setContext (devices : List CapDevice) (inodes : CapInodeHelper) (dispatch : ℕ → Dispatch)
    (hs : List CapHandle) (idx : ℕ) :
    attributions devices inodes (delivered dispatch idx (hs.map (·.setContext .unspec))) =
      attributions devices inodes (delivered dispatch idx hs) := by
  induction hs generalizing idx with
  | nil => rfl
  | cons h hs ih =>
    have hhead : attributions devices inodes ((h.dispatch (dispatch idx)).2.map (h.setContext .unspec, ·)) =
        attributions devices inodes ((h.dispatch (dispatch idx)).2.map (h, ·)) := by
      unfold attributions
      rw [List.filterMap_map, List.filterMap_map]
      rfl
    rw [List.map_cons, delivered, delivered, attributions_append, attributions_append, ← hhead, ← ih (idx + 1)]
    rfl

/-- Which frames are credited does not depend on what does not last. -/
theorem credits_lasting (u : UpdateInput) (s : CaptureCxx) : credits u s.lasting = credits u s :=
  attributions_setContext s.devices (refreshedInodes u s) u.dispatch s.handles 0

theorem lasting_dispatched (u : UpdateInput) (s : CaptureCxx) :
    (dispatched u s).lasting = (creditAll (credits u s) (beginUpdate u s)).lasting := by
  obtain ⟨hs, hcontext, hstate⟩ := dispatched_eq u s
  have hset := foldl_feed_settings (delivered u.dispatch 0 s.handles) (beginUpdate u s)
  have hhandles : ((delivered u.dispatch 0 s.handles).foldl feed (beginUpdate u s)).handles = s.handles :=
    (congrArg CaptureCxx.handles hset :)
  have hfold := lasting_foldl_feed (delivered u.dispatch 0 s.handles) (beginUpdate u s)
  refine Eq.trans ?_ hfold
  rw [hstate]
  refine (lasting_eq_iff _ _).mpr ⟨rfl, ?_, rfl⟩
  rw [hhandles]
  exact hcontext

/-- What lasts of an `Update` is decided by what lasts of the state before and by the
frames it credits. -/
theorem lasting_update {u u' : UpdateInput} {s s' : CaptureCxx} (h : s.lasting = s'.lasting)
    (hu : u' = { u with dispatch := u'.dispatch }) (hcredits : credits u' s' = credits u s) :
    (update u s).2.lasting = (update u' s').2.lasting := by
  have hbegin : beginUpdate u' s' = beginUpdate u s' := by rw [hu]; rfl
  refine follows_lasting.update hu ?_
  rw [lasting_dispatched, lasting_dispatched, hcredits, hbegin]
  exact lasting_creditAll (credits u s) (follows_lasting.beginUpdate u h)

/-! ## Every run -/

/-- The two calls are the same, up to frames that an `Update` in state `s` credits to no process. -/
def SameCredits (s : CaptureCxx) : Call → Call → Prop
  | .update u, .update u' => u' = { u with dispatch := u'.dispatch } ∧ credits u' s = credits u s
  | c, c' => c' = c

theorem lasting_next {s s' : CaptureCxx} {c c' : Call} (h : s.lasting = s'.lasting) (hc : SameCredits s c c') :
    (next s c).lasting = (next s' c').lasting := by
  cases c with
  | init i =>
    cases (show c' = .init i from hc)
    exact follows_lasting.init_same packetJournal_shown_lasting i h
  | update u =>
    cases c' with
    | update u' =>
      obtain ⟨hu, hcredits⟩ := hc
      refine lasting_update h hu ?_
      rw [← credits_lasting u' s', ← h, credits_lasting u' s, hcredits]
    | init i => cases (show Call.init i = .update u from hc)
    | shutdown => cases (show Call.shutdown = .update u from hc)
  | shutdown =>
    cases (show c' = .shutdown from hc)
    exact h

/-- Two runs whose calls agree, up to the frames of their `Update`s that resolve to no
process, agree in everything but the contexts of the handles and the marks such frames
leave in the log: in the process table with all its counters, in the records of both
buffers, and in every parse, insertion, removal and process callback of the last call. -/
theorem uncredited_frames_invisible (cs : List (Call × Call))
    (h : ∀ t ∈ RunTrace.steps (fun s c => next s c.1) initial cs, SameCredits t.before t.call.1 t.call.2) :
    (reached (cs.map Prod.fst)).lasting = (reached (cs.map Prod.snd)).lasting :=
  RunTrace.related_of_foldl next (fun s s' => s.lasting = s'.lasting) SameCredits
    (fun _ _ _ _ hs hc => lasting_next hs hc) cs initial initial rfl h

def single (f : Frame) : Dispatch := ⟨[f], 1, Or.inl rfl, by simp⟩

def webDispatch (_ : ℕ) : Dispatch := single webFrame

/-- The ARP frame of an `Update` leaves nothing behind. -/
theorem uncredited_frames_invisible_web :
    (reached [.init (lanInit [1]), .update (webUpdate mixedDispatch)]).lasting =
      (reached [.init (lanInit [1]), .update (webUpdate webDispatch)]).lasting := by
  refine uncredited_frames_invisible [(.init (lanInit [1]), .init (lanInit [1])),
    (.update (webUpdate mixedDispatch), .update (webUpdate webDispatch))] ?_
  refine List.forall_mem_cons.mpr ⟨rfl, List.forall_mem_cons.mpr ⟨⟨rfl, ?_⟩, fun _ h => by cases h⟩⟩
  have hdelivered : ∀ dispatch, credits (webUpdate dispatch) (next initial (.init (lanInit [1]))) =
      attributions (next initial (.init (lanInit [1]))).devices (refreshedInodes (webUpdate dispatch)
        (next initial (.init (lanInit [1])))) (delivered dispatch 0 [lanHandle]) := by
    intro dispatch
    rw [← lan_host.1]
    rfl
  show credits (webUpdate webDispatch) (next initial (.init (lanInit [1]))) =
    credits (webUpdate mixedDispatch) (next initial (.init (lanInit [1])))
  rw [hdelivered, hdelivered]
  rfl

end CaptureCxx
end Capture
