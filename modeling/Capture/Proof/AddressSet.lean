import Capture.Proof.FrameOrder

/-! # Which interfaces there are

`getifaddrs` lists the addresses of an interface one by one and in an order of its own. The
key of a packet and the keys of a socket row ask the device list only which addresses there
are, so two captures that know the same set of addresses and are handed the same frames, by
whatever handles and in whatever order, keep the same accounts. -/
namespace Capture
open SeparatedText AddressText OrderedTable StateFrame

set_option autoImplicit false

/-- The events of the table and of the process callback. -/
def Event.told : Event → Bool
  | .erase _ | .processCallback _ _ _ => true
  | _ => false

/-- The addresses in a device list. -/
def addresses (devices : List CapDevice) : Set LocalAddr := {a | ∃ d ∈ devices, d.localAddr = a}

theorem addresses_append (ds ds' : List CapDevice) : addresses (ds ++ ds') = addresses ds ∪ addresses ds' := by
  ext a
  simp [addresses, or_and_right, exists_or]

theorem addresses_eq_empty_iff (ds : List CapDevice) : addresses ds = ∅ ↔ ds = [] := by
  constructor
  · intro h
    refine List.eq_nil_iff_forall_not_mem.mpr fun d hd => ?_
    have hmem : d.localAddr ∈ addresses ds := ⟨d, hd, rfl⟩
    rw [h] at hmem
    exact hmem
  · rintro rfl
    simp [addresses]

theorem addresses_perm {ds ds' : List CapDevice} (h : ds.Perm ds') : addresses ds = addresses ds' := by
  ext a
  exact exists_congr fun d => and_congr_left fun _ => h.mem_iff

variable {ds ds' : List CapDevice}

/-! ## What asks for the devices -/

theorem contains_of_addresses (h : addresses ds = addresses ds') : contains ds = contains ds' := by
  have hany : ∀ p : LocalAddr → Bool, (ds.any fun d => p d.localAddr) = ds'.any fun d => p d.localAddr := by
    have hhalf : ∀ es es' : List CapDevice, addresses es = addresses es' → ∀ p : LocalAddr → Bool,
        (es.any fun d => p d.localAddr) = true → (es'.any fun d => p d.localAddr) = true := by
      intro es es' hes p hp
      obtain ⟨d, hd, hpd⟩ := List.any_eq_true.mp hp
      have hmem : d.localAddr ∈ addresses es' := hes ▸ ⟨d, hd, rfl⟩
      obtain ⟨d', hd', heq⟩ := hmem
      exact List.any_eq_true.mpr ⟨d', hd', heq ▸ hpd⟩
    exact fun p => Bool.eq_iff_iff.mpr ⟨hhalf ds ds' h p, hhalf ds' ds h.symm p⟩
  funext a
  cases a with
  | v4 a => exact hany (·.contains4 a)
  | v6 a => exact hany (·.contains6 a)

namespace CapPacket

theorem isOutgoing_of_addresses (h : addresses ds = addresses ds') : isOutgoing ds = isOutgoing ds' := by
  funext p
  unfold isOutgoing
  rw [contains_of_addresses h]

theorem hash_of_addresses (h : addresses ds = addresses ds') : hash ds = hash ds' := by
  funext p
  unfold hash
  rw [isOutgoing_of_addresses h]

end CapPacket

theorem packetOf_of_addresses (h : addresses ds = addresses ds') : CaptureCxx.packetOf ds = CaptureCxx.packetOf ds' := by
  funext context f offset
  unfold CaptureCxx.packetOf CapPacket.init4 CapPacket.init6
  rw [CapPacket.hash_of_addresses h]

theorem attribute_of_addresses (h : addresses ds = addresses ds') (inodes : CapInodeHelper) (f : Frame) (g : Segment) :
    g.attribute ds inodes f = g.attribute ds' inodes f := by
  unfold Segment.attribute
  rw [packetOf_of_addresses h, CapPacket.hash_of_addresses h]

theorem addPacket_of_addresses (h : addresses ds = addresses ds') (cap : CapPacket) :
    CapProcess.addPacket ds cap = CapProcess.addPacket ds' cap := by
  funext p
  unfold CapProcess.addPacket
  rw [CapPacket.isOutgoing_of_addresses h]

namespace CapInodeHelper

theorem storeRow_of_addresses (h : addresses ds = addresses ds') : storeRow ds = storeRow ds' := by
  have hhalf : ∀ (es es' : List CapDevice), addresses es = addresses es' → ∀ (r : SocketRow) (key : Text),
      key ∈ r.keys es → key ∈ r.keys es' := by
    intro es es' hes r key hkey
    rcases List.mem_cons.mp hkey with rfl | hkey
    · exact List.mem_cons_self
    · obtain ⟨d, hd, rfl⟩ := List.mem_map.mp hkey
      have hmem : d.localAddr ∈ addresses es' := hes ▸ ⟨d, hd, rfl⟩
      obtain ⟨d', hd', heq⟩ := hmem
      refine List.mem_cons_of_mem _ (List.mem_map.mpr ⟨d', hd', ?_⟩)
      rw [CapDevice.getLocalAddr, CapDevice.getLocalAddr, heq]
  funext m r
  unfold storeRow
  congr 2
  funext key
  rw [foldl_writeKey, foldl_writeKey]
  exact if_congr ⟨hhalf ds ds' h r key, hhalf ds' ds h.symm r key⟩ rfl rfl

theorem parse_of_addresses (h : addresses ds = addresses ds') : parse ds = parse ds' := by
  have hbuffer : parseBuffer ds = parseBuffer ds' := by
    funext m buffer
    unfold parseBuffer
    rw [storeRow_of_addresses h]
  funext file m
  unfold parse
  rw [hbuffer]

theorem refresh_of_addresses (h : addresses ds = addresses ds') : refresh ds = refresh ds' := by
  funext pids i
  unfold refresh refreshToInodes
  rw [parse_of_addresses h]

end CapInodeHelper

namespace CaptureCxx

/-! ## The accounts -/

/-- What is tallied, without the devices and the handles. -/
def holdings (s : CaptureCxx) : CaptureCxx :=
  { s.tally with devices := [], handles := [], pcaps := 0, log := s.log.filter Event.told }

/-- The holdings, and the addresses known. -/
def accounts (s : CaptureCxx) : CaptureCxx × Set LocalAddr := (s.holdings, addresses s.devices)

theorem accounts_eq_iff (s s' : CaptureCxx) :
    s.accounts = s'.accounts ↔ surroundings.strip s = surroundings.strip s' ∧
      s.log.filter Event.told = s'.log.filter Event.told ∧ addresses s.devices = addresses s'.devices := by
  constructor
  · intro h
    have hholdings : s.holdings = s'.holdings := congrArg Prod.fst h
    exact ⟨(congrArg surroundings.strip hholdings :), (congrArg CaptureCxx.log hholdings :), congrArg Prod.snd h⟩
  · rintro ⟨hstrip, hlog, haddresses⟩
    have hs : ∀ t : CaptureCxx, t.holdings = { surroundings.strip t with log := t.log.filter Event.told } :=
      fun _ => rfl
    rw [accounts, accounts, hs, hs, hstrip, hlog, haddresses]

theorem accounts_of_tally {s s' : CaptureCxx} (h : s.tally = s'.tally) : s.accounts = s'.accounts := by
  obtain ⟨hstrip, -, hlog⟩ := (tally_eq_iff s s').mp h
  have hfilter : ∀ es : List Event, es.filter Event.told = (es.filter Event.orderFree).filter Event.told := by
    intro es
    rw [List.filter_filter]
    refine List.filter_congr fun e _ => ?_
    cases e <;> rfl
  have hdevices : s.devices = s'.devices := (congrArg CaptureCxx.devices h :)
  exact (accounts_eq_iff s s').mpr
    ⟨(congrArg surroundings.strip hstrip :), by rw [hfilter, hlog, ← hfilter], by rw [hdevices]⟩

theorem follows_accounts : Follows accounts where
  shown :=
    { strip_eq := fun s s' h => ((accounts_eq_iff s s').mp h).1
      restore_eq := fun s s' t h => by
        obtain ⟨-, hlog, haddresses⟩ := (accounts_eq_iff s s').mp h
        refine (accounts_eq_iff _ _).mpr ⟨rfl, ?_, haddresses⟩
        rw [surroundings, List.filter_append, List.filter_append, hlog] }
  enter s s' h := by
    obtain ⟨hstrip, -, haddresses⟩ := (accounts_eq_iff s s').mp h
    exact (accounts_eq_iff _ _).mpr ⟨congrArg enter hstrip, rfl, haddresses⟩
  rewind _ _ h := h
  refresh i s s' h := by
    obtain ⟨hstrip, hlog, haddresses⟩ := (accounts_eq_iff s s').mp h
    have hpids : s.pids = s'.pids := (congrArg CaptureCxx.pids hstrip :)
    refine (accounts_eq_iff _ _).mpr ⟨?_, hlog, haddresses⟩
    have hrefresh : ∀ t : CaptureCxx, surroundings.strip (refresh i t) =
        { surroundings.strip t with inodes := (CapInodeHelper.refresh t.devices t.pids.keys i).2 } := fun _ => rfl
    rw [hrefresh, hrefresh, hstrip, CapInodeHelper.refresh_of_addresses haddresses, hpids]
  reportPackets ret s := accounts_of_tally (follows_tally.reportPackets ret s)

theorem accounts_post (known : List Pid) (y : Frame × Attributed) {s s' : CaptureCxx} (h : s.accounts = s'.accounts) :
    (post known s y).accounts = (post known s' y).accounts := by
  obtain ⟨hstrip, hlog, haddresses⟩ := (accounts_eq_iff s s').mp h
  have hprocesses : (post known s y).processes = (post known s' y).processes := by
    have hold : s.processes = s'.processes := (congrArg CaptureCxx.processes hstrip :)
    have hcalls : s.calls = s'.calls := (congrArg CaptureCxx.calls hstrip :)
    have hmemory : s.memory = s'.memory := (congrArg CaptureCxx.memory hstrip :)
    have hdelta : s.deltaCpu = s'.deltaCpu := (congrArg CaptureCxx.deltaCpu hstrip :)
    unfold post
    dsimp only
    rw [hold, hcalls, hmemory, hdelta, addPacket_of_addresses haddresses]
  refine (accounts_eq_iff _ _).mpr ⟨?_, hlog, haddresses⟩
  have hpost : ∀ t : CaptureCxx, surroundings.strip (post known t y) =
      { surroundings.strip t with processes := (post known t y).processes } := fun _ => rfl
  rw [hpost, hpost, hstrip, hprocesses]

/-! ## The frames of a call -/

/-- What an `Update` hears: each frame with the link type of its handle, and whether the
handle has a callback. -/
def heard (u : UpdateInput) (s : CaptureCxx) : List (ℤ × Bool × Frame) :=
  (delivered u.dispatch 0 s.handles).map fun x => (x.1.linktype, x.1.callback, x.2)

theorem credits_of_heard (u : UpdateInput) (s : CaptureCxx) :
    credits u s = (heard u s).filterMap fun x =>
      (if x.2.1 then (CapProtocol.decode x.1 x.2.2).bind (Segment.attribute s.devices (refreshedInodes u s) x.2.2)
        else none).map (x.2.2, ·) := by
  unfold heard
  rw [List.filterMap_map]
  rfl

theorem credits_perm_of_heard {u u' : UpdateInput} (hu : u' = { u with dispatch := u'.dispatch }) {s s' : CaptureCxx}
    (haddresses : addresses s.devices = addresses s'.devices) (h : (heard u' s').Perm (heard u s)) :
    (credits u' s').Perm (credits u s) := by
  have hinodes : refreshedInodes u' s' = refreshedInodes u s := by
    unfold refreshedInodes
    rw [hu, CapInodeHelper.refresh_of_addresses haddresses]
  have hattribute : ∀ f, Segment.attribute s'.devices (refreshedInodes u s) f =
      Segment.attribute s.devices (refreshedInodes u s) f :=
    fun f => funext fun g => (attribute_of_addresses haddresses (refreshedInodes u s) f g).symm
  rw [credits_of_heard, credits_of_heard, hinodes]
  simp only [hattribute]
  exact h.filterMap _

theorem accounts_update {u u' : UpdateInput} {s s' : CaptureCxx} (h : s.accounts = s'.accounts)
    (hu : u' = { u with dispatch := u'.dispatch }) (hheard : (heard u' s').Perm (heard u s))
    (hsteady : Steady s.processes.keys (credits u s)) : (update u s).2.accounts = (update u' s').2.accounts := by
  have hbegin : beginUpdate u' s' = beginUpdate u s' := by rw [hu]; rfl
  obtain ⟨hstrip, -, haddresses⟩ := (accounts_eq_iff s s').mp h
  have hprocesses : s.processes = s'.processes := (congrArg CaptureCxx.processes hstrip :)
  have hposts : ∀ (ys : List (Frame × Attributed)) (σ σ' : CaptureCxx), σ.accounts = σ'.accounts →
      (ys.foldl (post s.processes.keys) σ).accounts = (ys.foldl (post s.processes.keys) σ').accounts := by
    intro ys
    induction ys with
    | nil => exact fun _ _ hσ => hσ
    | cons y ys ih => exact fun σ σ' hσ => ih _ _ (accounts_post s.processes.keys y hσ)
  refine follows_accounts.update hu ?_
  calc (dispatched u s).accounts
    _ = ((credits u s).foldl (post s.processes.keys) (beginUpdate u s)).accounts :=
        accounts_of_tally (dispatched_tally s.processes.keys u s fun _ hp => hp)
    _ = ((credits u s).foldl (post s.processes.keys) (beginUpdate u s')).accounts :=
        hposts (credits u s) _ _ (follows_accounts.beginUpdate u h)
    _ = ((credits u' s').foldl (post s.processes.keys) (beginUpdate u s')).accounts := by
        rw [foldl_post_perm (credits_perm_of_heard hu haddresses hheard) hsteady]
    _ = (dispatched u' s').accounts := by
        rw [← hbegin]
        exact (accounts_of_tally (dispatched_tally s.processes.keys u' s' fun _ hp => hprocesses ▸ hp)).symm

/-! ## One `Init` -/

theorem accounts_openHandles (fliter : Bool) (pcap : ℕ → PcapOpen) (ds : List CapDevice) (idx : ℕ) (s : CaptureCxx) :
    (openHandles fliter pcap idx ds s).accounts = s.accounts := by
  induction ds generalizing idx s with
  | nil => rfl
  | cons d ds ih =>
    refine (ih (idx + 1) _).trans ((accounts_eq_iff _ _).mpr ?_)
    unfold openDevice dropHandle
    dsimp only
    repeat' split
    all_goals simp [surroundings, emit, Event.told]

theorem accounts_prepare {i i' : InitInput} (hi : i' = { i with ifaddrs := i'.ifaddrs, pcap := i'.pcap })
    (hfound : addresses ((i'.ifaddrs.getD []).filterMap usableDevice) =
      addresses ((i.ifaddrs.getD []).filterMap usableDevice)) {s s' : CaptureCxx} (h : s.accounts = s'.accounts) :
    (prepare i s).accounts = (prepare i' s').accounts := by
  obtain ⟨hstrip, -, haddresses⟩ := (accounts_eq_iff s s').mp h
  have hconfig : ∀ (j : InitInput) (t : CaptureCxx), surroundings.strip (prepare j t) =
      configure { j with ifaddrs := none } (enter (surroundings.strip t)) := by
    intro j t
    rw [prepare_eq]
    unfold configure getMemTotal enter initDevice
    cases j.meminfo <;> rfl
  refine (accounts_eq_iff _ _).mpr ⟨?_, ?_, ?_⟩
  · rw [hconfig, hconfig, hstrip, hi]
    rfl
  · rw [prepare_log, prepare_log]
  · rw [prepare_devices, prepare_devices, addresses_append, addresses_append, haddresses, hfound]

theorem accounts_init {i i' : InitInput} (hi : i' = { i with ifaddrs := i'.ifaddrs, pcap := i'.pcap })
    (hfound : addresses ((i'.ifaddrs.getD []).filterMap usableDevice) =
      addresses ((i.ifaddrs.getD []).filterMap usableDevice)) {s s' : CaptureCxx} (h : s.accounts = s'.accounts) :
    (init i s).2.accounts = (init i' s').2.accounts := by
  have hprepare := accounts_prepare hi hfound h
  have haddresses := ((accounts_eq_iff _ _).mp hprepare).2.2
  refine follows_accounts.init hi hprepare ?_ ?_
  · rw [← addresses_eq_empty_iff, ← addresses_eq_empty_iff, haddresses]
  · rw [withHandles, withHandles, accounts_openHandles, accounts_openHandles]
    exact hprepare

/-! ## Every run -/

/-- The two captures make the same call: an `Init` that finds the same addresses, or an
`Update` that hears the same frames in any order and on any handles. -/
def SameTraffic (s : CaptureCxx × CaptureCxx) : Call × Call → Prop
  | (.init i, .init i') =>
      i' = { i with ifaddrs := i'.ifaddrs, pcap := i'.pcap } ∧
        addresses ((i'.ifaddrs.getD []).filterMap usableDevice) =
          addresses ((i.ifaddrs.getD []).filterMap usableDevice)
  | (.update u, .update u') =>
      u' = { u with dispatch := u'.dispatch } ∧ (heard u' s.2).Perm (heard u s.1) ∧
        Steady s.1.processes.keys (credits u s.1)
  | (.shutdown, .shutdown) => True
  | _ => False

theorem accounts_next {s s' : CaptureCxx} {c c' : Call} (h : s.accounts = s'.accounts)
    (hc : SameTraffic (s, s') (c, c')) : (next s c).accounts = (next s' c').accounts := by
  cases c with
  | init i =>
    cases c' with
    | init i' => exact accounts_init hc.1 hc.2 h
    | update u => exact hc.elim
    | shutdown => exact hc.elim
  | update u =>
    cases c' with
    | update u' => exact accounts_update h hc.1 hc.2.1 hc.2.2
    | init i => exact hc.elim
    | shutdown => exact hc.elim
  | shutdown =>
    cases c' with
    | shutdown => exact h
    | init i => exact hc.elim
    | update u => exact hc.elim

/-- Two captures that find the same addresses and hear the same frames, whatever the order
and the number of the interfaces that show them, agree in the process table with all its
counters, in the process records, and in the removals and the process callbacks of the
last call. -/
theorem accounts_of_addresses (cs : List (Call × Call))
    (h : ∀ t ∈ RunTrace.steps (RunTrace.both next) (initial, initial) cs, SameTraffic t.before t.call) :
    (reached (cs.map Prod.fst)).holdings = (reached (cs.map Prod.snd)).holdings :=
  congrArg Prod.fst (RunTrace.related_of_both next (fun s s' => s.accounts = s'.accounts) SameTraffic
    (fun _ _ hs hc => accounts_next hs hc) cs initial initial rfl h)

def lanInterface (name : Char) (a : In4Addr) : Ifaddr := ⟨some [name], 0x41, some (.inet a)⟩

def wired : Ifaddr := lanInterface 'e' ![10, 0, 0, 1]

def wireless : Ifaddr := lanInterface 'f' ![10, 0, 0, 9]

def dualInit (pids : List (Fin 10)) (ifaddrs : List Ifaddr) : InitInput := { lanInit pids with ifaddrs := some ifaddrs }

/-- The segment comes on handle `idx`, and an ARP frame on every other. -/
def dualDispatch (idx idx' : ℕ) : Dispatch := if idx' = idx then single webFrame else single arpFrame

def dualHandle (id : ℕ) (name : Char) : CapHandle := ⟨some ⟨id, [name]⟩, dltEn10mb, .unspec, true⟩

theorem dual_handles :
    (next initial (.init (dualInit [1] [wired, wireless]))).handles = [dualHandle 0 'e', dualHandle 1 'f'] ∧
      (next initial (.init (dualInit [1] [wireless, wired]))).handles = [dualHandle 0 'f', dualHandle 1 'e'] := by
  decide +kernel

/-- It does not matter which interface is listed first. -/
theorem accounts_of_addresses_dual :
    (reached [.init (dualInit [1] [wired, wireless]), .update (webUpdate (dualDispatch 0))]).holdings =
      (reached [.init (dualInit [1] [wireless, wired]), .update (webUpdate (dualDispatch 1))]).holdings := by
  refine accounts_of_addresses [(.init (dualInit [1] [wired, wireless]), .init (dualInit [1] [wireless, wired])),
    (.update (webUpdate (dualDispatch 0)), .update (webUpdate (dualDispatch 1)))] ?_
  obtain ⟨hwired, hwireless⟩ := dual_handles
  refine List.forall_mem_cons.mpr ⟨⟨rfl, ?_⟩, List.forall_mem_cons.mpr ⟨⟨rfl, ?_, ?_⟩, fun _ h => by cases h⟩⟩
  · exact addresses_perm ((List.Perm.swap wired wireless []).filterMap usableDevice)
  · show (heard (webUpdate (dualDispatch 1)) (next initial (.init (dualInit [1] [wireless, wired])))).Perm
      (heard (webUpdate (dualDispatch 0)) (next initial (.init (dualInit [1] [wired, wireless]))))
    unfold heard
    rw [hwired, hwireless]
    exact List.Perm.swap _ _ _
  · refine steady_of_files (fun _ => ProcFiles.absent) (fun idx f hf => ?_) _ _
    have hframes : f = webFrame ∨ f = arpFrame := by
      have hf' : f ∈ (dualDispatch 0 idx).frames := hf
      unfold dualDispatch at hf'
      split at hf'
      · exact Or.inl (List.mem_singleton.mp hf')
      · exact Or.inr (List.mem_singleton.mp hf')
    rcases hframes with rfl | rfl <;> rfl

end CaptureCxx
end Capture
