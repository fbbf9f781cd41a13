import Capture.Foundations.SeparatedText
import Mathlib.Data.Fin.VecNotation
import Mathlib.Data.Fintype.Pi
import Mathlib.Data.List.OfFn
import Mathlib.Data.List.TakeWhile
import Mathlib.Tactic.FinCases

/-! # The texts of IPv4 and IPv6 addresses

Addresses are their bytes in memory order. `ntop4` and `ntop6` are the texts
`inet_ntop` prints: dotted decimal, and lower-case hexadecimal groups in which the
first longest run of at least two zero groups is written `::` and an embedded
IPv4 address (`::a.b.c.d`, `::ffff:a.b.c.d`) keeps its dotted form. Both are
injective, no text of one is a text of the other, and neither uses `-`. -/
namespace Capture.AddressText
open SeparatedText

set_option autoImplicit false

abbrev In4Addr := Fin 4 → UInt8

abbrev In6Addr := Fin 16 → UInt8

/-! ## IPv4 -/

def ntop4 (a : In4Addr) : Text :=
  ['.'].intercalate [decimal (a 0).toNat, decimal (a 1).toNat, decimal (a 2).toNat, decimal (a 3).toNat]

theorem ntop4_injective : Function.Injective ntop4 := by
  intro a b h
  have hdot : ∀ n, '.' ∉ decimal n := not_mem_decimal (by decide)
  have hl := intercalate_injective '.' _ _ (by simp [hdot]) (by simp [hdot]) (by simp) (by simp) h
  simp only [List.cons.injEq, decimal_injective.eq_iff, and_true] at hl
  obtain ⟨h0, h1, h2, h3⟩ := hl
  funext i
  apply UInt8.toNat_inj.mp
  fin_cases i
  exacts [h0, h1, h2, h3]

theorem mem_ntop4 {a : In4Addr} {c : Char} (h : c ∈ ntop4 a) : c = '.' ∨ c.isDigit = true := by
  rcases mem_intercalate h with h | ⟨x, hx, hc⟩
  · exact Or.inl h
  · refine Or.inr ?_
    simp only [List.mem_cons, List.not_mem_nil, or_false] at hx
    rcases hx with rfl | rfl | rfl | rfl <;> exact isDigit_of_mem_decimal hc

theorem not_mem_ntop4 {c : Char} (hdot : c ≠ '.') (hdigit : c.isDigit = false) (a : In4Addr) :
    c ∉ ntop4 a := by
  intro h
  rcases mem_ntop4 h with h | h
  · exact hdot h
  · rw [h] at hdigit
    cases hdigit

theorem dot_mem_ntop4 (a : In4Addr) : '.' ∈ ntop4 a := by
  simp [ntop4, List.intercalate_cons_cons]

theorem length_ntop4_le (a : In4Addr) : (ntop4 a).length ≤ 16 := by
  have hbyte : ∀ i, (decimal (a i).toNat).length ≤ 3 := fun i =>
    length_decimal_le _ 3 (by decide) ((a i).toNat_lt.trans (by decide))
  have h0 := hbyte 0
  have h1 := hbyte 1
  have h2 := hbyte 2
  have h3 := hbyte 3
  refine (length_intercalate_le '.' _).trans ?_
  simp only [List.map_cons, List.map_nil, List.sum_cons, List.sum_nil]
  omega

theorem length_ntop4 (a : In4Addr) :
    (ntop4 a).length = (decimal (a 0).toNat).length + (decimal (a 1).toNat).length + (decimal (a 2).toNat).length +
      (decimal (a 3).toNat).length + 3 := by
  simp only [ntop4, List.intercalate_cons_cons, List.intercalate_singleton, List.length_append, List.length_singleton]
  omega

/-- Only four bytes of three digits each make a text of fifteen characters. -/
theorem length_ntop4_lt_iff (a : In4Addr) : (ntop4 a).length < 15 ↔ ∃ i, (a i).toNat < 100 := by
  have hlong : ∀ i, (decimal (a i).toNat).length ≤ 3 := fun i =>
    length_decimal_le _ 3 (by decide) ((a i).toNat_lt.trans (by decide))
  have hshort : ∀ i, (decimal (a i).toNat).length < 3 ↔ (a i).toNat < 100 := fun i => length_decimal_lt_three_iff _
  have h0 := hlong 0
  have h1 := hlong 1
  have h2 := hlong 2
  have h3 := hlong 3
  rw [length_ntop4]
  constructor
  · intro h
    by_contra hno
    have hall : ∀ i, ¬ (decimal (a i).toNat).length < 3 := fun i hi => hno ⟨i, (hshort i).mp hi⟩
    have h0' := hall 0
    have h1' := hall 1
    have h2' := hall 2
    have h3' := hall 3
    omega
  · rintro ⟨i, hi⟩
    have hi' := (hshort i).mpr hi
    fin_cases i <;> dsimp only [Fin.reduceFinMk, Fin.zero_eta, Fin.mk_one] at hi' <;> omega

/-! ## IPv6 -/

def group (a : In6Addr) (i : Fin 8) : ℕ :=
  256 * (a ⟨2 * i, by omega⟩).toNat + (a ⟨2 * i + 1, by omega⟩).toNat

def groups (a : In6Addr) : List ℕ := List.ofFn (group a)

@[simp] theorem groups_length (a : In6Addr) : (groups a).length = 8 := List.length_ofFn

def zerosAt (ws : List ℕ) (i : ℕ) : ℕ := ((ws.drop i).takeWhile (· = 0)).length

/-- The first longest run of zero groups, as start and length. -/
def longestZeros (ws : List ℕ) : ℕ × ℕ :=
  (List.range ws.length).foldl
    (fun best i => if best.2 < zerosAt ws i then (i, zerosAt ws i) else best) (0, 0)

def embedded (a : In6Addr) : In4Addr := ![a 12, a 13, a 14, a 15]

/-- The texts between colons after the run of length `l` at `b`. -/
def tailTexts (a : In6Addr) (b l : ℕ) : List Text :=
  if b = 0 ∧ (l = 6 ∨ l = 5 ∧ group a 5 = 0xffff) then
    (((groups a).take 6).drop l).map hexadecimal ++ [ntop4 (embedded a)]
  else ((groups a).drop (b + l)).map hexadecimal

/-- An absent side of `::` is one empty text. -/
def padded (ts : List Text) : List Text := if ts = [] then [[]] else ts

def runStart (a : In6Addr) : ℕ := (longestZeros (groups a)).1

def runLength (a : In6Addr) : ℕ := (longestZeros (groups a)).2

def colonTexts (a : In6Addr) : List Text :=
  if runLength a < 2 then (groups a).map hexadecimal
  else padded (((groups a).take (runStart a)).map hexadecimal) ++
    [] :: padded (tailTexts a (runStart a) (runLength a))

def ntop6 (a : In6Addr) : Text := [':'].intercalate (colonTexts a)

example : ntop6 ![0xfe, 0x80, 0, 0, 0, 0, 0, 0, 0, 0, 0, 0, 0, 1, 0, 8] = "fe80::1:8".toList := by decide

example : ntop6 ![0, 0, 0, 0, 0, 0, 0, 0, 0, 0, 0xff, 0xff, 10, 0, 0, 1] = "::ffff:10.0.0.1".toList := by decide

example : ntop6 (fun _ => 0) = "::".toList := by decide

/-! ## The groups are recovered from the texts -/

theorem longestZeros_le (ws : List ℕ) : (longestZeros ws).2 ≤ zerosAt ws (longestZeros ws).1 := by
  unfold longestZeros
  generalize List.range ws.length = is
  have hstart : ((0, 0) : ℕ × ℕ).2 ≤ zerosAt ws ((0, 0) : ℕ × ℕ).1 := Nat.zero_le _
  revert hstart
  generalize ((0, 0) : ℕ × ℕ) = best
  intro hbest
  induction is generalizing best with
  | nil => exact hbest
  | cons i is ih =>
    apply ih
    dsimp only
    split
    · exact le_rfl
    · exact hbest

theorem take_zeros (ws : List ℕ) (b l : ℕ) (h : l ≤ zerosAt ws b) :
    (ws.drop b).take l = List.replicate l 0 := by
  have htake : (ws.drop b).take l = ((ws.drop b).takeWhile (· = 0)).take l := by
    obtain ⟨t, ht⟩ := List.takeWhile_prefix (fun x : ℕ => decide (x = 0)) (l := ws.drop b)
    conv_lhs => rw [← ht]
    exact List.take_append_of_le_length h
  rw [htake]
  refine List.eq_replicate_iff.mpr ⟨?_, ?_⟩
  · rw [List.length_take]
    exact Nat.min_eq_left h
  · intro x hx
    simpa using List.mem_takeWhile_imp (List.mem_of_mem_take hx)

theorem groups_split (a : In6Addr) :
    groups a = (groups a).take (runStart a) ++ (List.replicate (runLength a) 0 ++
      (groups a).drop (runStart a + runLength a)) := by
  have hrun : ((groups a).drop (runStart a)).take (runLength a) = List.replicate (runLength a) 0 :=
    take_zeros (groups a) _ _ (longestZeros_le (groups a))
  rw [← hrun, ← List.drop_drop, List.take_append_drop, List.take_append_drop]

theorem run_end_le (a : In6Addr) (h : 0 < runLength a) : runStart a + runLength a ≤ 8 := by
  have hle := (longestZeros_le (groups a)).trans
    ((List.takeWhile_sublist _).length_le.trans_eq List.length_drop)
  rw [groups_length] at hle
  unfold runStart runLength at *
  omega

theorem eq_of_groups {a b : In6Addr} (h : groups a = groups b) : a = b := by
  have hg : ∀ i, group a i = group b i := fun i => congrFun (List.ofFn_injective h) i
  have hbyte : ∀ i : Fin 8, a ⟨2 * i, by omega⟩ = b ⟨2 * i, by omega⟩ ∧
      a ⟨2 * i + 1, by omega⟩ = b ⟨2 * i + 1, by omega⟩ := by
    intro i
    have hi := hg i
    unfold group at hi
    have h1 := (a ⟨2 * i + 1, by omega⟩).toNat_lt
    have h2 := (b ⟨2 * i + 1, by omega⟩).toNat_lt
    exact ⟨UInt8.toNat_inj.mp (by omega), UInt8.toNat_inj.mp (by omega)⟩
  funext j
  obtain ⟨hl, hr⟩ := hbyte ⟨j / 2, by omega⟩
  rcases Nat.mod_two_eq_zero_or_one j with hj | hj
  · rwa [show (⟨2 * (j / 2), by omega⟩ : Fin 16) = j from Fin.ext (by simp; omega)] at hl
  · rwa [show (⟨2 * (j / 2) + 1, by omega⟩ : Fin 16) = j from Fin.ext (by simp; omega)] at hr

theorem eq_of_take_embedded {a b : In6Addr} (hg : (groups a).take 6 = (groups b).take 6)
    (he : embedded a = embedded b) : a = b := by
  have h12 : a 12 = b 12 := congrFun he 0
  have h13 : a 13 = b 13 := congrFun he 1
  have h14 : a 14 = b 14 := congrFun he 2
  have h15 : a 15 = b 15 := congrFun he 3
  apply eq_of_groups
  have hsplit : ∀ c : In6Addr, groups c = (groups c).take 6 ++ [group c 6, group c 7] := by
    intro c
    simp [groups, List.ofFn_succ]
  rw [hsplit a, hsplit b, hg]
  have h6 : group a 6 = group b 6 := by
    show 256 * (a 12).toNat + (a 13).toNat = 256 * (b 12).toNat + (b 13).toNat
    rw [h12, h13]
  have h7 : group a 7 = group b 7 := by
    show 256 * (a 14).toNat + (a 15).toNat = 256 * (b 14).toNat + (b 15).toNat
    rw [h14, h15]
  rw [h6, h7]

/-! ## Alphabet and length of IPv6 texts -/

theorem forall_colonTexts (p : Text → Prop) (a : In6Addr) (hhex : ∀ i, p (hexadecimal (group a i)))
    (hdot : p (ntop4 (embedded a))) (hnil : p []) : ∀ t ∈ colonTexts a, p t := by
  have hgroups : ∀ ws : List ℕ, (∀ w ∈ ws, w ∈ groups a) → ∀ t ∈ ws.map hexadecimal, p t := by
    intro ws hws t ht
    obtain ⟨w, hw, rfl⟩ := List.mem_map.mp ht
    obtain ⟨i, rfl⟩ := (List.mem_ofFn' _ _).mp (hws w hw)
    exact hhex i
  have hpad : ∀ ts : List Text, (∀ t ∈ ts, p t) → ∀ t ∈ padded ts, p t := by
    intro ts hts t ht
    unfold padded at ht
    split at ht
    · rw [List.mem_singleton.mp ht]
      exact hnil
    · exact hts t ht
  have htail : ∀ b l, ∀ t ∈ tailTexts a b l, p t := by
    intro b l t ht
    unfold tailTexts at ht
    split at ht
    · rcases List.mem_append.mp ht with ht | ht
      · exact hgroups _ (fun w hw => List.mem_of_mem_take (List.mem_of_mem_drop hw)) t ht
      · rw [List.mem_singleton.mp ht]
        exact hdot
    · exact hgroups _ (fun w hw => List.mem_of_mem_drop hw) t ht
  intro t ht
  unfold colonTexts at ht
  split at ht
  · exact hgroups _ (fun w hw => hw) t ht
  · rcases List.mem_append.mp ht with ht | ht
    · exact hpad _ (hgroups _ fun w hw => List.mem_of_mem_take hw) t ht
    · rcases List.mem_cons.mp ht with rfl | ht
      · exact hnil
      · exact hpad _ (htail _ _) t ht

theorem colon_not_mem_colonTexts (a : In6Addr) : ∀ t ∈ colonTexts a, ':' ∉ t :=
  forall_colonTexts (':' ∉ ·) a (fun _ => not_mem_hexadecimal (by decide) _)
    (not_mem_ntop4 (by decide) (by decide) _) (by simp)

theorem not_mem_ntop6 {c : Char} (hcolon : c ≠ ':') (hdot : c ≠ '.') (hhex : ∀ d < 16, Nat.digitChar d ≠ c)
    (hdigit : c.isDigit = false) (a : In6Addr) : c ∉ ntop6 a := by
  intro h
  rcases mem_intercalate h with h | ⟨t, ht, hc⟩
  · exact hcolon h
  · exact forall_colonTexts (c ∉ ·) a (fun _ => not_mem_hexadecimal hhex _) (not_mem_ntop4 hdot hdigit _) (by simp) t ht hc

/-- Five characters for a group and its colon, sixteen for a dotted text. -/
def textCost (ts : List Text) : ℕ := (ts.map fun t => t.length + 1).sum

theorem textCost_append (ts us : List Text) : textCost (ts ++ us) = textCost ts + textCost us := by
  simp [textCost]

theorem textCost_padded (ts : List Text) : textCost (padded ts) ≤ textCost ts + 1 := by
  unfold padded
  split
  · simp [textCost]
  · omega

theorem group_lt (a : In6Addr) (i : Fin 8) : group a i < 16 ^ 4 := by
  have h1 := (a ⟨2 * i, by omega⟩).toNat_lt
  have h2 := (a ⟨2 * i + 1, by omega⟩).toNat_lt
  unfold group
  omega

theorem textCost_groups (a : In6Addr) (ws : List ℕ) (hws : ∀ w ∈ ws, w ∈ groups a) :
    textCost (ws.map hexadecimal) ≤ 5 * ws.length := by
  induction ws with
  | nil => simp [textCost]
  | cons w ws ih =>
    obtain ⟨i, rfl⟩ := (List.mem_ofFn' _ _).mp (hws w List.mem_cons_self)
    have hhead := length_hexadecimal_le (group a i) 4 (by decide) (group_lt a i)
    have htail := ih fun v hv => hws v (List.mem_cons_of_mem _ hv)
    simp only [textCost, List.map_cons, List.sum_cons, List.length_cons] at htail ⊢
    omega

/-- Every IPv6 text fits a buffer of 49 characters with its terminator. -/
theorem length_ntop6_lt (a : In6Addr) : (ntop6 a).length < 49 := by
  have hdrop : ∀ n m, ∀ w ∈ ((groups a).take n).drop m, w ∈ groups a := fun n m w hw =>
    List.mem_of_mem_take (List.mem_of_mem_drop hw)
  refine (length_intercalate_le ':' (colonTexts a)).trans_lt ?_
  change textCost (colonTexts a) < 49
  unfold colonTexts
  split
  · have h := textCost_groups a (groups a) fun _ hw => hw
    rw [groups_length] at h
    omega
  · next hl =>
    have hend := run_end_le a (by omega)
    have hhead := textCost_padded (((groups a).take (runStart a)).map hexadecimal)
    have htail := textCost_padded (tailTexts a (runStart a) (runLength a))
    have hbefore := textCost_groups a _ fun w hw => List.mem_of_mem_take (l := groups a) (i := runStart a) hw
    rw [List.length_take, groups_length] at hbefore
    have hcost : textCost (tailTexts a (runStart a) (runLength a)) ≤ 5 * (8 - (runStart a + runLength a)) + 7 := by
      unfold tailTexts
      split
      · next he =>
        have hmid := textCost_groups a _ (hdrop 6 (runLength a))
        have hdot := length_ntop4_le (embedded a)
        rw [textCost_append]
        simp only [List.length_drop, List.length_take, groups_length] at hmid
        simp only [textCost, List.map_cons, List.map_nil, List.sum_cons, List.sum_nil] at hmid ⊢
        omega
      · have hrest := textCost_groups a _
          fun w hw => List.mem_of_mem_drop (l := groups a) (i := runStart a + runLength a) hw
        rw [List.length_drop, groups_length] at hrest
        omega
    have hnil : textCost ([] :: padded (tailTexts a (runStart a) (runLength a))) =
        1 + textCost (padded (tailTexts a (runStart a) (runLength a))) := by
      simp [textCost]
    rw [textCost_append, hnil]
    omega

/-! ## Injectivity -/

theorem padded_nil : padded [] = [[]] := rfl

theorem padded_of_ne_nil {ts : List Text} (h : ts ≠ []) : padded ts = ts := if_neg h

theorem padded_ne_nil (ts : List Text) : padded ts ≠ [] := by
  unfold padded
  split
  · simp
  · assumption

theorem nil_mem_padded_iff (ts : List Text) (h : [] ∉ ts) : [] ∈ padded ts ↔ ts = [] := by
  unfold padded
  split
  · next hts => simp [hts]
  · next hts => simp [h, hts]

theorem padded_injective {ts us : List Text} (ht : [] ∉ ts) (hu : [] ∉ us)
    (h : padded ts = padded us) : ts = us := by
  by_cases hts : ts = []
  · have hus : us = [] := (nil_mem_padded_iff us hu).mp (h ▸ (nil_mem_padded_iff ts ht).mpr hts)
    rw [hts, hus]
  · have hus : us ≠ [] := fun he => hts ((nil_mem_padded_iff ts ht).mp (h ▸ (nil_mem_padded_iff us hu).mpr he))
    rwa [padded_of_ne_nil hts, padded_of_ne_nil hus] at h

theorem sides_of_padded {ts us ts' us' : List Text} (ht : [] ∉ ts) (hu : [] ∉ us)
    (ht' : [] ∉ ts') (hu' : [] ∉ us')
    (h : padded ts ++ [] :: padded us = padded ts' ++ [] :: padded us') : ts = ts' ∧ us = us' := by
  by_cases hts : ts = []
  · by_cases hts' : ts' = []
    · subst hts hts'
      exact ⟨rfl, padded_injective hu hu' (by simpa [padded] using h)⟩
    · obtain ⟨x, xs, rfl⟩ := List.exists_cons_of_ne_nil hts'
      rw [hts, padded_nil, padded_of_ne_nil hts'] at h
      exact absurd ((List.cons.inj h).1 ▸ List.mem_cons_self) ht'
  · by_cases hts' : ts' = []
    · obtain ⟨x, xs, rfl⟩ := List.exists_cons_of_ne_nil hts
      rw [hts', padded_nil, padded_of_ne_nil hts] at h
      exact absurd ((List.cons.inj h).1 ▸ List.mem_cons_self) ht
    · rw [padded_of_ne_nil hts, padded_of_ne_nil hts'] at h
      obtain ⟨hside, hrest⟩ := cut_first [] ts ts' _ _ ht ht' h
      exact ⟨hside, padded_injective hu hu' hrest⟩

theorem nil_not_mem_map_hexadecimal (ws : List ℕ) : [] ∉ ws.map hexadecimal := by
  simp [hexadecimal_ne_nil]

theorem ntop4_ne_nil (a : In4Addr) : ntop4 a ≠ [] := List.ne_nil_of_mem (dot_mem_ntop4 a)

theorem nil_not_mem_tailTexts (a : In6Addr) (b l : ℕ) : [] ∉ tailTexts a b l := by
  unfold tailTexts
  split
  · rw [List.mem_append, List.mem_singleton, not_or]
    exact ⟨nil_not_mem_map_hexadecimal _, (ntop4_ne_nil _).symm⟩
  · exact nil_not_mem_map_hexadecimal _

theorem dot_not_mem_hexadecimal (n : ℕ) : '.' ∉ hexadecimal n := not_mem_hexadecimal (by decide) n

theorem map_hexadecimal_injective {ws vs : List ℕ} (h : ws.map hexadecimal = vs.map hexadecimal) :
    ws = vs := List.map_injective_iff.mpr hexadecimal_injective h

theorem dotted_ne_groups (us : List Text) (a : In4Addr) (ws : List ℕ) :
    us ++ [ntop4 a] ≠ ws.map hexadecimal := by
  intro h
  have hmem : ntop4 a ∈ ws.map hexadecimal := h ▸ by simp
  obtain ⟨w, -, hw⟩ := List.mem_map.mp hmem
  exact dot_not_mem_hexadecimal w (hw ▸ dot_mem_ntop4 a)

theorem eq_of_sides {a a' : In6Addr} {b l b' l' : ℕ} (hb : b + l ≤ 8) (hb' : b' + l' ≤ 8)
    (hsplit : groups a = (groups a).take b ++ (List.replicate l 0 ++ (groups a).drop (b + l)))
    (hsplit' : groups a' = (groups a').take b' ++ (List.replicate l' 0 ++ (groups a').drop (b' + l')))
    (hhead : (groups a).take b = (groups a').take b') (htail : tailTexts a b l = tailTexts a' b' l') :
    a = a' := by
  have hbb : b = b' := by
    have := congrArg List.length hhead
    simp only [List.length_take, groups_length] at this
    omega
  subst hbb
  unfold tailTexts at htail
  split at htail <;> split at htail
  · next he he' =>
    obtain ⟨rfl, hle⟩ := he
    obtain ⟨-, hle'⟩ := he'
    obtain ⟨hmap, hdot⟩ := List.append_inj' htail rfl
    have hmid := map_hexadecimal_injective hmap
    have hl : l = l' := by
      have := congrArg List.length hmid
      simp only [List.length_drop, List.length_take, groups_length] at this
      omega
    subst hl
    have hembedded : embedded a = embedded a' := ntop4_injective (by simpa using hdot)
    have hsix : ∀ c : In6Addr, groups c = (groups c).take 0 ++ (List.replicate l 0 ++ (groups c).drop (0 + l)) →
        (groups c).take 6 = List.replicate l 0 ++ ((groups c).take 6).drop l := by
      intro c hc
      rw [List.take_zero, List.nil_append, Nat.zero_add] at hc
      rw [List.drop_take]
      conv_lhs => rw [hc]
      rw [List.take_append, List.take_replicate, List.length_replicate,
        Nat.min_eq_right (by omega)]
    refine eq_of_take_embedded ?_ hembedded
    rw [hsix a hsplit, hsix a' hsplit', hmid]
  · exact absurd htail (dotted_ne_groups _ _ _)
  · exact absurd htail.symm (dotted_ne_groups _ _ _)
  · have hdrop := map_hexadecimal_injective htail
    have hl : l = l' := by
      have := congrArg List.length hdrop
      simp only [List.length_drop, groups_length] at this
      omega
    subst hl
    apply eq_of_groups
    rw [hsplit, hsplit', hhead, hdrop]

theorem colonTexts_injective : Function.Injective colonTexts := by
  intro a a' h
  unfold colonTexts at h
  split at h <;> split at h
  · exact eq_of_groups (map_hexadecimal_injective h)
  · exact absurd (h ▸ by simp : [] ∈ (groups a).map hexadecimal) (nil_not_mem_map_hexadecimal _)
  · exact absurd (h ▸ by simp : [] ∈ (groups a').map hexadecimal) (nil_not_mem_map_hexadecimal _)
  · obtain ⟨hhead, htail⟩ := sides_of_padded (nil_not_mem_map_hexadecimal _) (nil_not_mem_tailTexts _ _ _)
      (nil_not_mem_map_hexadecimal _) (nil_not_mem_tailTexts _ _ _) h
    have hend := run_end_le a (by omega)
    have hend' := run_end_le a' (by omega)
    exact eq_of_sides hend hend' (groups_split _) (groups_split _) (map_hexadecimal_injective hhead) htail

theorem three_le_colonTexts (a : In6Addr) : 3 ≤ (colonTexts a).length := by
  unfold colonTexts
  split
  · simp
  · have h1 := List.length_pos_iff.mpr (padded_ne_nil (((groups a).take (runStart a)).map hexadecimal))
    have h2 := List.length_pos_iff.mpr (padded_ne_nil (tailTexts a (runStart a) (runLength a)))
    simp only [List.length_append, List.length_cons]
    omega

theorem ntop6_injective : Function.Injective ntop6 := by
  intro a b h
  apply colonTexts_injective
  exact intercalate_injective ':' _ _ (colon_not_mem_colonTexts a) (colon_not_mem_colonTexts b)
    (List.ne_nil_of_length_pos (by have := three_le_colonTexts a; omega))
    (List.ne_nil_of_length_pos (by have := three_le_colonTexts b; omega)) h

theorem two_le_count_colon (a : In6Addr) : 2 ≤ (ntop6 a).count ':' := by
  rw [ntop6, count_intercalate ':' _ (colon_not_mem_colonTexts a)]
  have := three_le_colonTexts a
  omega

theorem ntop4_ne_ntop6 (a : In4Addr) (b : In6Addr) : ntop4 a ≠ ntop6 b := by
  intro h
  have hc := two_le_count_colon b
  rw [← h, List.count_eq_zero.mpr (not_mem_ntop4 (by decide) (by decide) a)] at hc
  omega

/-! ## Addresses of either family -/

inductive Address where
  | v4 (a : In4Addr)
  | v6 (a : In6Addr)
  deriving DecidableEq

namespace Address

def text : Address → Text
  | v4 a => ntop4 a
  | v6 a => ntop6 a

/-- `0.0.0.0` or `::`. -/
def Unspecified : Address → Prop
  | v4 a => a = fun _ => 0
  | v6 a => a = fun _ => 0

instance : DecidablePred Unspecified := fun a => by
  cases a <;> unfold Unspecified <;> infer_instance

theorem text_injective : Function.Injective text := by
  intro a b h
  cases a with
  | v4 a =>
    cases b with
    | v4 b => rw [ntop4_injective h]
    | v6 b => exact absurd h (ntop4_ne_ntop6 a b)
  | v6 a =>
    cases b with
    | v4 b => exact absurd h.symm (ntop4_ne_ntop6 b a)
    | v6 b => rw [ntop6_injective h]

/-- The characters of an address text are hexadecimal digits, dots and colons. -/
theorem not_mem_text {c : Char} (hcolon : c ≠ ':') (hdot : c ≠ '.') (hhex : ∀ d < 16, Nat.digitChar d ≠ c)
    (hdigit : c.isDigit = false) (a : Address) : c ∉ a.text := by
  cases a with
  | v4 a => exact not_mem_ntop4 hdot hdigit a
  | v6 a => exact not_mem_ntop6 hcolon hdot hhex hdigit a

theorem dash_not_mem_text (a : Address) : '-' ∉ a.text :=
  not_mem_text (by decide) (by decide) (by decide) (by decide) a

theorem length_text_lt (a : Address) : a.text.length < 49 := by
  cases a with
  | v4 a => exact (length_ntop4_le a).trans_lt (by decide)
  | v6 a => exact length_ntop6_lt a

end Address
end Capture.AddressText
