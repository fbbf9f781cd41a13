import Capture.Model.CapProcess

/-! # The user and the group of a process

`ParseUserAndGroup` looks up both ids on its own, and writes the number where a database has
no name. For a group without a name it writes the number into `user`, over what the first
lookup found, and leaves `group` as an earlier parse left it. -/
namespace Capture
open SeparatedText

set_option autoImplicit false

namespace CapProcess

/-- The name of the uid, or the uid in decimal. -/
def userText (files : ProcFiles) (uid : UInt32) : Text := (files.getpwuid uid).getD (decimal uid.toNat)

/-- The name of the gid, or the gid in decimal. -/
def groupText (files : ProcFiles) (gid : UInt32) : Text := (files.getgrgid gid).getD (decimal gid.toNat)

theorem setUser_eq (files : ProcFiles) (p : CapProcess) : setUser files p = { p with user := userText files p.uid } := by
  unfold setUser userText
  cases files.getpwuid p.uid <;> rfl

/-- What the call writes: both fields if the gid has a name, and `user` twice if it has none. -/
theorem parseUserAndGroup_fields (files : ProcFiles) (p : CapProcess) :
    ((parseUserAndGroup files p).2.user, (parseUserAndGroup files p).2.group) =
      match files.getgrgid p.gid with
      | some name => (userText files p.uid, name)
      | none => (decimal p.gid.toNat, p.group) := by
  unfold parseUserAndGroup
  rw [setUser_eq]
  unfold setGroup
  dsimp only
  cases files.getgrgid p.gid <;> rfl

/-- Each field is what its own id resolves to, whatever the process held before. -/
structure Resolved (files : ProcFiles) (p q : CapProcess) : Prop where
  user : q.user = userText files p.uid
  group : q.group = groupText files p.gid

/-- The fields are right when the gid has a name, and otherwise only by coincidence: when the
user is to be spelled like the gid, and the group already is. -/
theorem user_group_resolved_iff (files : ProcFiles) (p : CapProcess) :
    Resolved files p (parseUserAndGroup files p).2 ↔
      (files.getgrgid p.gid).isSome = true ∨
        userText files p.uid = decimal p.gid.toNat ∧ p.group = decimal p.gid.toNat := by
  have hfields := parseUserAndGroup_fields files p
  cases hgroup : files.getgrgid p.gid with
  | some name =>
    rw [hgroup] at hfields
    obtain ⟨huser, hname⟩ := Prod.mk.inj hfields
    refine iff_of_true ⟨huser, ?_⟩ (Or.inl rfl)
    rw [hname, groupText, hgroup, Option.getD_some]
  | none =>
    rw [hgroup] at hfields
    obtain ⟨huser, hkept⟩ := Prod.mk.inj hfields
    have hnumber : groupText files p.gid = decimal p.gid.toNat := by rw [groupText, hgroup, Option.getD_none]
    constructor
    · intro h
      refine Or.inr ⟨?_, ?_⟩
      · rw [← h.user, huser]
      · rw [← hkept, h.group, hnumber]
    · rintro (h | ⟨hspelled, hold⟩)
      · cases h
      · exact ⟨huser.trans hspelled.symm, (hkept.trans hold).trans hnumber.symm⟩

/-- User 1000 is `alice`, and no group has a name. -/
def groupless : ProcFiles :=
  { ProcFiles.absent with getpwuid := fun uid => if uid = 1000 then some "alice".toList else none }

/-- A process of group 100 gets the gid as its user and keeps its old group. -/
theorem gid_written_as_user :
    let p : CapProcess := { pid := 1, uid := 1000, gid := 100, group := "staff".toList }
    (parseUserAndGroup groupless p).2.user = "100".toList ∧ (parseUserAndGroup groupless p).2.group = "staff".toList ∧
      ¬ Resolved groupless p (parseUserAndGroup groupless p).2 := by
  intro p
  have huser : (parseUserAndGroup groupless p).2.user = "100".toList := by decide +kernel
  refine ⟨huser, rfl, fun h => ?_⟩
  have halice : (parseUserAndGroup groupless p).2.user = "alice".toList := h.user
  rw [huser] at halice
  exact absurd halice (by decide)

end CapProcess
end Capture
