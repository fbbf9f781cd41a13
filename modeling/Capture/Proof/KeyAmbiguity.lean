import Capture.Proof.SocketKeys

/-! # Which keys can be read in two ways

A device key determines the remote endpoint of its row. The key a row writes for itself has
no colon between the remote address and the remote port, so leading digits of the port can
be read as the end of the address. That is the only ambiguity: an own key is the key of a
packet exactly when the row `Overreads` the packet's flow, and two rows with different
remote endpoints share an own key exactly when they `Overlap`. -/
namespace Capture
open SeparatedText AddressText

set_option autoImplicit false

namespace SocketRow

/-! ## An own key and a packet -/

/-- The row has the local endpoint `a:lp`, and its remote address is spelled as `R`, a colon
and a text `g` that with the remote port behind it spells `rp`. -/
def Overreads (r : SocketRow) (a R : Address) (lp rp : ℕ) : Prop :=
  r.loc = a ∧ r.locPort = lp ∧ ∃ g, r.rem.text = R.text ++ ':' :: g ∧ decimal rp = g ++ decimalInt r.remPort

theorem ownKey_eq_linkText_iff (r : SocketRow) (a R : Address) (lp rp : ℕ) :
    r.ownKey = linkText a.text lp R.text rp ↔ r.Overreads a R lp rp := by
  rw [r.ownKey_eq_iff]
  refine and_congr_right fun _ => and_congr_right fun _ => ?_
  rw [List.append_eq_append_iff]
  constructor
  · rintro (⟨g, hR, hport⟩ | ⟨g, hrem, hport⟩)
    · -- the port of the row would hold the colon
      have hmem : ':' ∈ decimalInt r.remPort := by simp [hport]
      exact absurd hmem (not_mem_decimalInt (by decide) (by decide) r.remPort)
    · cases g with
      | nil =>
        have hmem : ':' ∈ decimalInt r.remPort := by
          rw [List.nil_append] at hport
          simp [← hport]
        exact absurd hmem (not_mem_decimalInt (by decide) (by decide) r.remPort)
      | cons c g =>
        obtain ⟨rfl, hrp⟩ := List.cons.inj hport
        exact ⟨g, hrem, hrp⟩
  · rintro ⟨g, hrem, hrp⟩
    exact Or.inr ⟨':' :: g, hrem, by rw [hrp]; rfl⟩

/-- A row that overreads a flow has another remote address. -/
theorem Overreads.rem_ne {r : SocketRow} {a R : Address} {lp rp : ℕ} (h : r.Overreads a R lp rp) : r.rem ≠ R := by
  obtain ⟨-, -, g, hrem, -⟩ := h
  intro heq
  have hlength := congrArg List.length hrem
  rw [heq, List.length_append, List.length_cons] at hlength
  omega

/-! ## Two own keys -/

/-- The remote address of `r'` is spelled as that of `r` followed by `g`, and the remote port
of `r` as `g` followed by that of `r'`. -/
def Borrows (r r' : SocketRow) : Prop :=
  ∃ g, g ≠ [] ∧ r'.rem.text = r.rem.text ++ g ∧ decimalInt r.remPort = g ++ decimalInt r'.remPort

def Overlaps (r r' : SocketRow) : Prop :=
  r.loc = r'.loc ∧ r.locPort = r'.locPort ∧ (r.Borrows r' ∨ r'.Borrows r)

theorem ownKey_eq_ownKey_iff (r r' : SocketRow) :
    r.ownKey = r'.ownKey ↔ r.loc = r'.loc ∧ r.locPort = r'.locPort ∧
      r.rem.text ++ decimalInt r.remPort = r'.rem.text ++ decimalInt r'.remPort := by
  unfold SocketRow.ownKey
  simp only [inetNtop_fits (Address.length_text_lt _)]
  constructor
  · intro h
    obtain ⟨haddr, hport, hrest⟩ :=
      left_of_linkText r.locPort r'.locPort r.loc.dash_not_mem_text r'.loc.dash_not_mem_text h
    exact ⟨Address.text_injective haddr, hport, hrest⟩
  · intro h
    rw [h.1, h.2.1, h.2.2]

theorem Borrows.remote_ne {r r' : SocketRow} (h : r.Borrows r') : (r.rem, r.remPort) ≠ (r'.rem, r'.remPort) := by
  obtain ⟨g, hg, hrem, -⟩ := h
  intro heq
  have hlength := congrArg List.length hrem
  rw [(Prod.mk.inj heq).1, List.length_append] at hlength
  have := List.length_pos_iff.mpr hg
  omega

theorem borrows_of_split {r r' : SocketRow} (hne : (r.rem, r.remPort) ≠ (r'.rem, r'.remPort)) {g : Text}
    (hrem : r'.rem.text = r.rem.text ++ g) (hport : decimalInt r.remPort = g ++ decimalInt r'.remPort) :
    r.Borrows r' := by
  refine ⟨g, ?_, hrem, hport⟩
  intro hg
  rw [hg, List.append_nil] at hrem
  rw [hg, List.nil_append] at hport
  exact hne (Prod.ext (Address.text_injective hrem.symm) (decimalInt_injective hport))

theorem overlaps_iff (r r' : SocketRow) :
    r.Overlaps r' ↔ (r.rem, r.remPort) ≠ (r'.rem, r'.remPort) ∧ r.ownKey = r'.ownKey := by
  rw [ownKey_eq_ownKey_iff, List.append_eq_append_iff]
  constructor
  · rintro ⟨hloc, hport, hb | hb⟩
    · obtain ⟨g, -, hrem, hremPort⟩ := id hb
      exact ⟨hb.remote_ne, hloc, hport, Or.inl ⟨g, hrem, hremPort⟩⟩
    · obtain ⟨g, -, hrem, hremPort⟩ := id hb
      exact ⟨hb.remote_ne.symm, hloc, hport, Or.inr ⟨g, hrem, hremPort⟩⟩
  · rintro ⟨hne, hloc, hport, ⟨g, hrem, hremPort⟩ | ⟨g, hrem, hremPort⟩⟩
    · exact ⟨hloc, hport, Or.inl (borrows_of_split hne hrem hremPort)⟩
    · exact ⟨hloc, hport, Or.inr (borrows_of_split hne.symm hrem hremPort)⟩

end SocketRow

/-! ## Unambiguous keys -/

/-- For every device list `InitDevice` can build, every two rows and every packet: the keys
written for the first row name its remote endpoint when a packet has them, and rows with
different remote endpoints have different own keys, exactly when the first row, if it is
stored, neither overreads the flow of the packet nor overlaps with the other. -/
theorem keys_unambiguous_iff (ifaddrs : List Ifaddr) (r r' : SocketRow) (addrs : RowAddrs) (sport dport : UInt16)
    (len : UInt32) :
    let devices := ifaddrs.filterMap CaptureCxx.usableDevice
    let p := CapPacket.ofFlow devices addrs sport dport len
    ((∀ key, r.Stores devices key → key = (p.hash devices).1 →
        r.locPort = p.localEnd.2 ∧ r.remPort = p.remoteEnd.2 ∧ r.rem = p.remoteEnd.1) ∧
      (r.inode ≠ 0 → r'.inode ≠ 0 → (r.rem, r.remPort) ≠ (r'.rem, r'.remPort) → r.ownKey ≠ r'.ownKey)) ↔
      (r.inode ≠ 0 → ¬ r.Overreads p.localEnd.1 p.remoteEnd.1 p.localEnd.2 p.remoteEnd.2 ∧
        (r'.inode ≠ 0 → ¬ r.Overlaps r')) := by
  intro devices p
  have hdash := dash_not_mem_getLocalAddr ifaddrs
  have hkey : (p.hash devices).1 =
      linkText p.localEnd.1.text p.localEnd.2 p.remoteEnd.1.text p.remoteEnd.2 :=
    CapPacket.ofFlow_hash devices addrs sport dport len
  constructor
  · intro h hinode
    refine ⟨fun hover => ?_, fun hinode' hlap => ?_⟩
    · have hown := (r.ownKey_eq_linkText_iff _ _ _ _).mpr hover
      have hrem := (h.1 r.ownKey ⟨hinode, List.mem_cons_self⟩ (hown.trans hkey.symm)).2.2
      exact hover.rem_ne hrem
    · obtain ⟨hne, hsame⟩ := (r.overlaps_iff r').mp hlap
      exact h.2 hinode hinode' hne hsame
  · intro h
    refine ⟨fun key hstores heq => ?_, fun hinode hinode' hne hsame => ?_⟩
    · obtain ⟨hinode, hmem⟩ := hstores
      rw [hkey] at heq
      subst heq
      rcases List.mem_cons.mp hmem with hown | hdev
      · exact absurd ((r.ownKey_eq_linkText_iff _ _ _ _).mp hown.symm) (h hinode).1
      · obtain ⟨d, hd, hdkey⟩ := List.mem_map.mp hdev
        obtain ⟨-, hport, hrem, hremPort⟩ := (r.deviceKey_eq_iff (hdash d hd) _ _ _ _).mp hdkey
        exact ⟨hport, hremPort, hrem⟩
    · exact (h hinode).2 hinode' ((r.overlaps_iff r').mpr ⟨hne, hsame⟩)

def tunnelRow : SocketRow :=
  ⟨.inet6 ![0x20, 1, 0, 0, 0, 0, 0, 0, 0, 0, 0, 0, 0, 0, 0, 1] ![0, 1, 0, 0, 0, 0, 0, 0, 0, 0, 0, 0, 0, 2, 0, 3],
    80, 4, 42⟩

/-- The own key of the connection `[2001::1]:80` to `[1::2:3]:4` is the key of a packet from
`[2001::1]:80` to `[1::2]:34`, and the own keys of `10.0.0.1:80` to `10.0.0.2:34` and to
`10.0.0.23:4` are the same. -/
theorem own_key_ambiguous :
    let devices := [(⟨some ['e'], 0x41, some (.inet6 ![0x20, 1, 0, 0, 0, 0, 0, 0, 0, 0, 0, 0, 0, 0, 0, 1])⟩ :
      Ifaddr)].filterMap CaptureCxx.usableDevice
    let p := CapPacket.ofFlow devices (.inet6 ![0x20, 1, 0, 0, 0, 0, 0, 0, 0, 0, 0, 0, 0, 0, 0, 1]
      ![0, 1, 0, 0, 0, 0, 0, 0, 0, 0, 0, 0, 0, 0, 0, 2]) 80 34 60
    let r : SocketRow := ⟨.inet ![10, 0, 0, 1] ![10, 0, 0, 2], 80, 34, 42⟩
    let r' : SocketRow := ⟨.inet ![10, 0, 0, 1] ![10, 0, 0, 23], 80, 4, 43⟩
    (tunnelRow.Stores devices (p.hash devices).1 ∧ p.remoteEnd.2 = 34 ∧ tunnelRow.remPort ≠ 34) ∧
      r.remPort ≠ r'.remPort ∧ r.ownKey = r'.ownKey := by
  decide +kernel

end Capture
