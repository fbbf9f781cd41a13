import Capture.Proof.PacketKeys

/-! # The cached key of a packet object

`Hash` fills `hashstring` once and `Init` does not clear it. While an object holds one
packet, the string stays what it would be if it were computed again (`hash_stays_coherent`).
An object that is initialised again keeps the string of its first packet, so it answers
like a new object exactly when both packets are of one connection (`init_like_new_iff`).
The fields of a new object are indeterminate, so its calls begin with an `Init`. -/
namespace Capture
open SeparatedText AddressText

set_option autoImplicit false

namespace CapPacket

/-! ## Calls on one object -/

/-- The arguments of `Init`, in either overload. -/
inductive InitArgs where
  | inet (isip : In4Addr) (isport : UInt16) (idip : In4Addr) (idport : UInt16) (ilen : UInt32) (idir : CapDir)
  | inet6 (isip : In6Addr) (isport : UInt16) (idip : In6Addr) (idport : UInt16) (ilen : UInt32) (idir : CapDir)

def initWith (devices : List CapDevice) (p : CapPacket) : InitArgs → CapPacket
  | .inet isip isport idip idport ilen idir => init4 devices p isip isport idip idport ilen idir
  | .inet6 isip isport idip idport ilen idir => init6 devices p isip isport idip idport ilen idir

/-- The calls other than `Init`. -/
inductive Use where
  | invert
  | isOutgoing
  | hash
  | link

def use (devices : List CapDevice) (p : CapPacket) : Use → CapPacket
  | .invert => p.invert.2
  | .isOutgoing => (p.isOutgoing devices).2
  | .hash => (p.hash devices).2
  | .link => p

inductive Call where
  | init (args : InitArgs)
  | use (u : Use)

def call (devices : List CapDevice) (p : CapPacket) : Call → CapPacket
  | .init args => p.initWith devices args
  | .use u => p.use devices u

/-- What `Hash` computes when it has nothing cached. -/
def recomputed (devices : List CapDevice) (p : CapPacket) : Text := (hash devices { p with hashstring := [] }).1

/-! ## One packet -/

theorem Made.after_init (devices : List CapDevice) {p : CapPacket} (hp : p.hashstring = []) (args : InitArgs) :
    Made devices (p.initWith devices args) := by
  cases args with
  | inet isip isport idip idport ilen idir => exact Made.init4 p hp isip isport idip idport ilen idir
  | inet6 isip isport idip idport ilen idir => exact Made.init6 p hp isip isport idip idport ilen idir

theorem Made.after_use {devices : List CapDevice} {p : CapPacket} (h : Made devices p) (u : Use) :
    Made devices (p.use devices u) := by
  cases u with
  | invert => exact h.invert
  | isOutgoing => exact h.isOutgoing
  | hash => exact h.hash
  | link => exact h

theorem Made.after_uses {devices : List CapDevice} {p : CapPacket} (h : Made devices p) (us : List Use) :
    Made devices (us.foldl (use devices) p) := by
  induction us generalizing p with
  | nil => exact h
  | cons u us ih => exact ih (h.after_use u)

theorem use_hashstring {devices : List CapDevice} {p : CapPacket} (h : p.hashstring ≠ []) (u : Use) :
    (p.use devices u).hashstring = p.hashstring := by
  cases u with
  | invert => exact (invert_frame p).2.2
  | isOutgoing =>
    obtain ⟨dir, -, hout⟩ := isOutgoing_spec devices p
    rw [use, hout]
  | hash => rw [use, hash_cached devices p h]
  | link => rfl

theorem uses_hashstring {devices : List CapDevice} {p : CapPacket} (h : p.hashstring ≠ []) (us : List Use) :
    (us.foldl (use devices) p).hashstring = p.hashstring := by
  induction us generalizing p with
  | nil => rfl
  | cons u us ih =>
    have hu : (p.use devices u).hashstring = p.hashstring := use_hashstring h u
    exact (ih (by rw [hu]; exact h)).trans hu

theorem Settled.recomputed_eq {p : CapPacket} (h : Settled p) (devices : List CapDevice) :
    p.recomputed devices = p.endsText := by
  have hdir : ({ p with hashstring := [] } : CapPacket).dir ≠ .unknown := h.dir
  rw [recomputed, hash_empty devices rfl, isOutgoing_of_known devices hdir]
  rfl

theorem Settled.link_of_outgoing {p : CapPacket} (h : Settled p) {devices : List CapDevice}
    (hout : (p.isOutgoing devices).1 = true) : p.link = p.endsText := by
  rw [isOutgoing_of_known devices h.dir] at hout
  have hdir : p.dir = .outgoing := of_decide_eq_true hout
  rw [link_eq, endsText, localEnd, remoteEnd, if_pos hdir, if_pos hdir]

theorem invert_invert (p : CapPacket) : p.invert.2.invert.2 = p := by
  cases p with
  | mk sip6 dip6 sip dip sport dport len dir family hashstring => cases family <;> cases dir <;> rfl

/-- However an initialised packet is used, its key stays the one `Init` computed and the one
`Hash` would compute again, and its direction stays known. -/
theorem hash_stays_coherent (devices : List CapDevice) (p : CapPacket) (hp : p.hashstring = []) (args : InitArgs)
    (us : List Use) :
    let start := p.initWith devices args
    let now := us.foldl (use devices) start
    (now.hash devices).1 = now.recomputed devices ∧ (now.hash devices).1 = (start.hash devices).1 ∧
      now.dir ≠ .unknown ∧ ((now.isOutgoing devices).1 = true → now.link = (now.hash devices).1) ∧
      now.invert.2.invert.2 = now := by
  intro start now
  have hstart : Made devices start := Made.after_init devices hp args
  have hnow : Settled now := (hstart.after_uses us).settled
  have hkept : now.hashstring = start.hashstring := uses_hashstring hstart.settled.hashstring_ne_nil us
  rw [hnow.hash_eq devices, hstart.settled.hash_eq devices]
  refine ⟨(hnow.recomputed_eq devices).symm, ?_, hnow.dir, hnow.link_of_outgoing, invert_invert now⟩
  exact hnow.hashstring.symm.trans (hkept.trans hstart.settled.hashstring)

theorem hash_stays_coherent_inverted :
    let start := ({ dir := .incoming } : CapPacket).initWith [] (.inet ![10, 0, 0, 1] 80 ![10, 0, 0, 2] 1234 60 .outgoing)
    let now := [Use.hash, Use.invert, Use.isOutgoing].foldl (use []) start
    (now.hash []).1 = now.recomputed [] ∧ (now.hash []).1 = (start.hash []).1 ∧ now.invert.2.invert.2 = now := by
  intro start now
  obtain ⟨hnow, hstart, -, -, htwice⟩ := hash_stays_coherent [] { dir := .incoming } rfl
    (.inet ![10, 0, 0, 1] 80 ![10, 0, 0, 2] 1234 60 .outgoing) [.hash, .invert, .isOutgoing]
  exact ⟨hnow, hstart, htwice⟩

/-! ## Another packet in the same object -/

namespace InitArgs

def source : InitArgs → Address
  | .inet isip _ _ _ _ _ => .v4 isip
  | .inet6 isip _ _ _ _ _ => .v6 isip

def destination : InitArgs → Address
  | .inet _ _ idip _ _ _ => .v4 idip
  | .inet6 _ _ idip _ _ _ => .v6 idip

def sport : InitArgs → ℕ
  | .inet _ isport _ _ _ _ => isport.toNat
  | .inet6 _ isport _ _ _ _ => isport.toNat

def dport : InitArgs → ℕ
  | .inet _ _ _ idport _ _ => idport.toNat
  | .inet6 _ _ _ idport _ _ => idport.toNat

def dir : InitArgs → CapDir
  | .inet _ _ _ _ _ idir => idir
  | .inet6 _ _ _ _ _ idir => idir

/-- The endpoints of the packet, the local one first: the source if the caller says so, or
leaves it open and the source is a device address. -/
def connection (devices : List CapDevice) (args : InitArgs) : (Address × ℕ) × (Address × ℕ) :=
  if args.dir = .outgoing ∨ args.dir = .unknown ∧ contains devices args.source = true then
    ((args.source, args.sport), (args.destination, args.dport))
  else ((args.destination, args.dport), (args.source, args.sport))

end InitArgs

/-- The assignments of `Init`, before its call of `Hash`. -/
def assign (p : CapPacket) : InitArgs → CapPacket
  | .inet isip isport idip idport ilen idir =>
      { p with sip := isip, sport := isport.toUInt32, dip := idip, dport := idport.toUInt32,
               len := ilen, dir := idir, family := .inet }
  | .inet6 isip isport idip idport ilen idir =>
      { p with sip6 := isip, sport := isport.toUInt32, dip6 := idip, dport := idport.toUInt32,
               len := ilen, dir := idir, family := .inet6 }

theorem initWith_eq (devices : List CapDevice) (p : CapPacket) (args : InitArgs) :
    p.initWith devices args = ((p.assign args).hash devices).2 := by
  cases args <;> rfl

/-- `Init` assigns every field but the string. -/
theorem assign_spec (p q : CapPacket) (args : InitArgs) :
    (p.assign args).hashstring = p.hashstring ∧ (p.assign args).dir = args.dir ∧
      (p.assign args).source = args.source ∧ (p.assign args).destination = args.destination ∧
      (p.assign args).sport.toNat = args.sport ∧ (p.assign args).dport.toNat = args.dport ∧
      (p.assign args).len = (q.assign args).len := by
  cases args <;> exact ⟨rfl, rfl, rfl, rfl, rfl, rfl, rfl⟩

theorem isOutgoing_assign (devices : List CapDevice) (p : CapPacket) (args : InitArgs) :
    ((p.assign args).isOutgoing devices).1 =
      decide (args.dir = .outgoing ∨ args.dir = .unknown ∧ contains devices args.source = true) := by
  obtain ⟨-, hdir, hsource, -⟩ := assign_spec p p args
  unfold isOutgoing
  rw [hdir, hsource]
  cases hd : args.dir with
  | unknown => cases hc : contains devices args.source <;> rfl
  | incoming => rfl
  | outgoing => rfl

/-- The direction is settled by the first question and does not depend on the string. -/
theorem isOutgoing_again (devices : List CapDevice) (p : CapPacket) (s : Text) :
    (({ (p.isOutgoing devices).2 with hashstring := s } : CapPacket).isOutgoing devices).1 =
      (p.isOutgoing devices).1 := by
  obtain ⟨dir, hdir, hout⟩ := isOutgoing_spec devices p
  rw [hout, isOutgoing_of_known devices hdir]

theorem init_isOutgoing (devices : List CapDevice) (p : CapPacket) (args : InitArgs) :
    ((p.initWith devices args).isOutgoing devices).1 = ((p.assign args).isOutgoing devices).1 := by
  rw [initWith_eq]
  by_cases h : (p.assign args).hashstring = []
  · rw [hash_empty devices h]
    exact isOutgoing_again devices _ _
  · rw [hash_cached devices _ h]

theorem init_link (devices : List CapDevice) (p : CapPacket) (args : InitArgs) :
    (p.initWith devices args).link = (p.assign args).link := by
  obtain ⟨dir, h, hhash⟩ := hash_frame devices (p.assign args)
  rw [initWith_eq, hhash]
  rfl

theorem init_len (devices : List CapDevice) (p : CapPacket) (args : InitArgs) :
    (p.initWith devices args).len = (p.assign args).len := by
  obtain ⟨dir, h, hhash⟩ := hash_frame devices (p.assign args)
  rw [initWith_eq, hhash]

theorem link_assign (p q : CapPacket) (args : InitArgs) : (p.assign args).link = (q.assign args).link := by
  cases args <;> rfl

/-- The text of a connection, local endpoint first. -/
def connectionText (c : (Address × ℕ) × (Address × ℕ)) : Text := linkText c.1.1.text c.1.2 c.2.1.text c.2.2

theorem connectionText_injective {c c' : (Address × ℕ) × (Address × ℕ)} (h : connectionText c = connectionText c') :
    c = c' := by
  obtain ⟨haddr, hport, hremote, hrport⟩ := linkText_injective h
  exact Prod.ext (Prod.ext haddr hport) (Prod.ext hremote hrport)

/-- The first `Init` of an object fills the string with the connection of its packet. -/
theorem init_new_hashstring (devices : List CapDevice) {p : CapPacket} (hp : p.hashstring = []) (args : InitArgs) :
    (p.initWith devices args).hashstring = connectionText (args.connection devices) := by
  obtain ⟨hstring, -, hsource, hdestination, hsport, hdport, -⟩ := assign_spec p p args
  obtain ⟨dir, -, hout⟩ := isOutgoing_spec devices (p.assign args)
  have hassign := isOutgoing_assign devices p args
  rw [hout] at hassign
  have hdir : dir = .outgoing ↔ args.dir = .outgoing ∨ args.dir = .unknown ∧ contains devices args.source = true :=
    decide_eq_decide.mp hassign
  rw [initWith_eq, hash_empty devices (hstring.trans hp), hout]
  unfold endsText localEnd remoteEnd InitArgs.connection connectionText
  by_cases h : dir = .outgoing
  · rw [if_pos h, if_pos h, if_pos (hdir.mp h), ← hsource, ← hdestination, ← hsport, ← hdport]
    rfl
  · rw [if_neg h, if_neg h, if_neg (mt hdir.mpr h), ← hsource, ← hdestination, ← hsport, ← hdport]
    rfl

/-! ## What an object has been through -/

/-- The calls on an object since it was made: none, or a first `Init` and any after it. -/
def past (devices : List CapDevice) (p : CapPacket) : Option (InitArgs × List Call) → CapPacket
  | none => p
  | some (first, later) => later.foldl (call devices) (p.initWith devices first)

/-- `Init` of an object that has a string leaves the string, and the direction as it is given. -/
theorem init_used (devices : List CapDevice) {p : CapPacket} (h : p.hashstring ≠ []) (args : InitArgs) :
    p.initWith devices args = p.assign args := by
  have hne : (p.assign args).hashstring ≠ [] := by
    rw [(assign_spec p p args).1]
    exact h
  rw [initWith_eq, hash_cached devices _ hne]

theorem call_hashstring {devices : List CapDevice} {p : CapPacket} (h : p.hashstring ≠ []) (c : Call) :
    (p.call devices c).hashstring = p.hashstring := by
  cases c with
  | init args =>
    rw [call, init_used devices h]
    exact (assign_spec p p args).1
  | use u => exact use_hashstring h u

theorem calls_hashstring {devices : List CapDevice} {p : CapPacket} (h : p.hashstring ≠ []) (cs : List Call) :
    (cs.foldl (call devices) p).hashstring = p.hashstring := by
  induction cs generalizing p with
  | nil => rfl
  | cons c cs ih =>
    have hc : (p.call devices c).hashstring = p.hashstring := call_hashstring h c
    exact (ih (by rw [hc]; exact h)).trans hc

/-- Both objects answer every question alike. -/
structure AnswerAlike (devices : List CapDevice) (p q : CapPacket) : Prop where
  hash : (p.hash devices).1 = (q.hash devices).1
  link : p.link = q.link
  isOutgoing : (p.isOutgoing devices).1 = (q.isOutgoing devices).1
  getLen : p.len = q.len

theorem answerAlike_iff (devices : List CapDevice) (p q : CapPacket) (args : InitArgs) :
    AnswerAlike devices (p.initWith devices args) (q.initWith devices args) ↔
      ((p.initWith devices args).hash devices).1 = ((q.initWith devices args).hash devices).1 := by
  constructor
  · exact fun h => h.hash
  · intro h
    refine ⟨h, ?_, ?_, ?_⟩
    · rw [init_link, init_link]
      exact link_assign p q args
    · rw [init_isOutgoing, init_isOutgoing, isOutgoing_assign, isOutgoing_assign]
    · rw [init_len, init_len]
      exact (assign_spec p q args).2.2.2.2.2.2

theorem past_hashstring (devices : List CapDevice) {p : CapPacket} (hp : p.hashstring = []) (first : InitArgs)
    (later : List Call) :
    (past devices p (some (first, later))).hashstring = connectionText (first.connection devices) := by
  have hfirst := init_new_hashstring devices hp first
  have hne : (p.initWith devices first).hashstring ≠ [] := (Made.after_init devices hp first).settled.hashstring_ne_nil
  exact (calls_hashstring hne later).trans hfirst

/-- The key of an object is its string, once it has been initialised. -/
theorem hash_of_string (devices : List CapDevice) {p : CapPacket} {c : (Address × ℕ) × (Address × ℕ)}
    (h : p.hashstring = connectionText c) : (p.hash devices).1 = connectionText c := by
  have hne : p.hashstring ≠ [] := by
    rw [h]
    exact linkText_ne_nil _ _ _ _
  rw [hash_cached devices p hne, h]

/-- An object initialised again answers like a new one exactly when its first packet, the one
whose key it cached, had the same local and the same remote endpoint. -/
theorem init_like_new_iff (devices : List CapDevice) (p new : CapPacket) (hp : p.hashstring = [])
    (hnew : new.hashstring = []) (calls : Option (InitArgs × List Call)) (args : InitArgs) :
    AnswerAlike devices ((past devices p calls).initWith devices args) (new.initWith devices args) ↔
      ∀ first later, calls = some (first, later) → first.connection devices = args.connection devices := by
  have hfresh := hash_of_string devices (init_new_hashstring devices hnew args)
  rw [answerAlike_iff, hfresh]
  cases calls with
  | none =>
    have h := hash_of_string devices (init_new_hashstring devices hp args)
    exact iff_of_true h (fun _ _ h => nomatch h)
  | some c =>
    obtain ⟨first, later⟩ := c
    have hnow := past_hashstring devices hp first later
    have hne : (past devices p (some (first, later))).hashstring ≠ [] := by
      rw [hnow]
      exact linkText_ne_nil _ _ _ _
    have hkept : ((past devices p (some (first, later))).initWith devices args).hashstring =
        connectionText (first.connection devices) := (call_hashstring hne (.init args)).trans hnow
    rw [hash_of_string devices hkept]
    constructor
    · intro h first' later' hcalls
      cases hcalls
      exact connectionText_injective h
    · intro h
      exact congrArg connectionText (h first later rfl)

theorem init_like_new_retransmitted :
    let args := InitArgs.inet ![10, 0, 0, 1] 80 ![10, 0, 0, 2] 1234 60 .outgoing
    AnswerAlike [] ((past [] {} (some (args, [.use .invert]))).initWith [] args) (({} : CapPacket).initWith [] args) := by
  intro args
  refine (init_like_new_iff [] {} {} rfl rfl (some (args, [.use .invert])) args).mpr ?_
  intro first later h
  cases h
  rfl

/-- An object of one connection, initialised with a packet of another, still has the first key. -/
theorem init_keeps_old_key :
    let first := InitArgs.inet ![10, 0, 0, 1] 80 ![10, 0, 0, 2] 1234 60 .outgoing
    let args := InitArgs.inet ![10, 0, 0, 1] 443 ![10, 0, 0, 3] 5678 60 .outgoing
    (((past [] {} (some (first, []))).initWith [] args).hash []).1 = "10.0.0.1:80-10.0.0.2:1234".toList ∧
      ¬ AnswerAlike [] ((past [] {} (some (first, []))).initWith [] args) (({} : CapPacket).initWith [] args) := by
  intro first args
  have hused : (((past [] {} (some (first, []))).initWith [] args).hash []).1 =
      "10.0.0.1:80-10.0.0.2:1234".toList := by decide +kernel
  have hnew : ((({} : CapPacket).initWith [] args).hash []).1 = "10.0.0.1:443-10.0.0.3:5678".toList := by decide +kernel
  refine ⟨hused, fun h => ?_⟩
  have hsame := hused.symm.trans (h.hash.trans hnew)
  exact absurd hsame (by decide)

end CapPacket
end Capture
