import Mathlib.Data.List.TakeWhile

/-! # Reading an input stream line by line

A stream is the characters still to come, what comes after them, and the three state bits
of `std::ios`. `getline n` reads into an array of `n` characters. It sets the eof bit only
when it meets the end of the file; a line that does not fit sets the fail bit, a read error
the bad bit, and a stream with any bit set yields nothing more.

`loop` is `while (!s.eof())` around `getline` and a body that may break. The loop goes
through the buffers `reads n` of the lines, which depend on the contents only, and then
ends if it met the end of the file, and never otherwise. -/
namespace Capture.LineStream

set_option autoImplicit false

/-- What follows the last character: the end of the file, or an error of the read. -/
inductive Ending where
  | eof
  | error
  deriving DecidableEq

variable {α β : Type}

structure Stream (α : Type) where
  rest : List α
  ending : Ending
  eof : Bool := false
  fail : Bool := false
  bad : Bool := false

def Stream.good (s : Stream α) : Bool := !s.eof && !s.fail && !s.bad

/-- A stream whose file has just been opened, or that has read whole lines only. -/
def opened (rest : List α) (ending : Ending) : Stream α := { rest := rest, ending := ending }

theorem opened_good (rest : List α) (ending : Ending) : (opened rest ending).good = true := rfl

/-! ## Bodies -/

/-- The body run over buffers until it breaks. -/
def passes (body : β → List α → β × Bool) : β → List (List α) → β × Bool
  | acc, [] => (acc, false)
  | acc, b :: bs => if (body acc b).2 then body acc b else passes body (body acc b).1 bs

theorem passes_foldl (f : β → List α → β) (acc : β) (bs : List (List α)) :
    passes (fun acc b => (f acc b, false)) acc bs = (bs.foldl f acc, false) := by
  induction bs generalizing acc with
  | nil => rfl
  | cons b bs ih => exact ih (f acc b)

/-- A body that breaks at the first buffer from which `g` reads a value. -/
theorem passes_findSome {γ : Type} (g : List α → Option γ) (f : β → γ → β) (acc : β) (bs : List (List α)) :
    passes (fun acc b => ((g b).elim acc (f acc), (g b).isSome)) acc bs =
      ((bs.findSome? g).elim acc (f acc), (bs.findSome? g).isSome) := by
  induction bs with
  | nil => rfl
  | cons b bs ih =>
    rw [passes, List.findSome?_cons]
    cases g b with
    | none => exact ih
    | some v => rfl

/-! ## Reading -/

section
variable [DecidableEq α] (nl : α)

/-- The end of the characters is looked for first, then the delimiter, which is taken but
not stored, and then the end of the array. -/
def getline (n : ℕ) (s : Stream α) : List α × Stream α :=
  if s.good then
    let line := s.rest.takeWhile (· ≠ nl)
    if line.length < n then
      match s.rest.drop line.length, s.ending with
      | _ :: rest, _ => (line, { s with rest := rest })
      | [], .eof => (line, { s with rest := [], eof := true, fail := line.isEmpty })
      | [], .error => (line, { s with rest := [], bad := true, fail := line.isEmpty })
    else (line.take (n - 1), { s with rest := s.rest.drop (n - 1), fail := true })
  else ([], { s with fail := true })

/-- `while (!s.eof()) { s.getline(buffer, n); … }`; the second part of what the body returns
says whether it breaks. -/
def loop (n : ℕ) (body : β → List α → β × Bool) : ℕ → β → Stream α → Option β
  | 0, _, _ => none
  | fuel + 1, acc, s =>
      if s.eof then some acc
      else
        let line := getline nl n s
        let r := body acc line.1
        if r.2 then some r.1 else loop n body fuel r.1 line.2

/-! ## Lines -/

def splitLines : List α → List (List α)
  | [] => [[]]
  | c :: cs =>
      if c = nl then [] :: splitLines cs
      else (c :: (splitLines cs).headD []) :: (splitLines cs).tail

/-- Lines, each with its delimiter. -/
def joinLines (ls : List (List α)) : List α := ls.flatMap fun l => l ++ [nl]

/-- The buffers of the calls made while the stream is good: the lines, up to the first that
does not fit, of which the beginning is stored. -/
def reads (n : ℕ) : List (List α) → List (List α)
  | [] => []
  | l :: ls => if l.length < n then l :: reads n ls else [l.take (n - 1)]

/-- Every line fits the array and no read fails. -/
def Fits (n : ℕ) (rest : List α) (ending : Ending) : Prop :=
  ending = .eof ∧ ∀ l ∈ splitLines nl rest, l.length < n

instance (n : ℕ) (rest : List α) (ending : Ending) : Decidable (Fits nl n rest ending) :=
  inferInstanceAs (Decidable (_ ∧ _))

theorem splitLines_of_not_mem (l : List α) (h : nl ∉ l) : splitLines nl l = [l] := by
  induction l with
  | nil => rfl
  | cons c l ih =>
    obtain ⟨hc, hl⟩ := not_or.mp (mt List.mem_cons.mpr h)
    rw [splitLines, if_neg (Ne.symm hc), ih hl]
    rfl

theorem splitLines_append (l rest : List α) (h : nl ∉ l) :
    splitLines nl (l ++ nl :: rest) = l :: splitLines nl rest := by
  induction l with
  | nil => rw [List.nil_append, splitLines, if_pos rfl]
  | cons c l ih =>
    obtain ⟨hc, hl⟩ := not_or.mp (mt List.mem_cons.mpr h)
    rw [List.cons_append, splitLines, if_neg (Ne.symm hc), ih hl]
    rfl

theorem splitLines_joinLines (ls : List (List α)) (h : ∀ l ∈ ls, nl ∉ l) :
    splitLines nl (joinLines nl ls) = ls ++ [[]] := by
  induction ls with
  | nil => rfl
  | cons l ls ih =>
    have htail := ih fun m hm => h m (List.mem_cons_of_mem l hm)
    rw [joinLines, List.flatMap_cons, List.append_assoc, List.singleton_append,
      splitLines_append nl l _ (h l List.mem_cons_self), ← joinLines, htail, List.cons_append]

omit [DecidableEq α] in
theorem reads_of_fits (n : ℕ) (ls : List (List α)) (h : ∀ l ∈ ls, l.length < n) : reads n ls = ls := by
  induction ls with
  | nil => rfl
  | cons l ls ih =>
    rw [reads, if_pos (h l List.mem_cons_self), ih fun m hm => h m (List.mem_cons_of_mem l hm)]

/-- Induction over a text by its lines: the last one, or one with its delimiter before
others. -/
theorem line_induction {p : List α → Prop} (hlast : ∀ l, nl ∉ l → p l)
    (hline : ∀ l rest, nl ∉ l → p rest → p (l ++ nl :: rest)) (text : List α) : p text := by
  induction hlen : text.length using Nat.strongRecOn generalizing text with
  | _ n ih =>
    by_cases hmem : nl ∈ text
    · obtain ⟨l, rest, htext, hl⟩ := List.eq_append_cons_of_mem hmem
      subst htext
      refine hline l rest hl (ih rest.length ?_ rest rfl)
      rw [← hlen, List.length_append, List.length_cons]
      omega
    · exact hlast text hmem

/-! ## One call -/

theorem takeWhile_last (l : List α) (h : nl ∉ l) : l.takeWhile (· ≠ nl) = l := by
  apply List.takeWhile_eq_self_iff.mpr
  intro c hc
  simpa using ne_of_mem_of_not_mem hc h

theorem takeWhile_line (l rest : List α) (h : nl ∉ l) : (l ++ nl :: rest).takeWhile (· ≠ nl) = l := by
  rw [List.takeWhile_append_of_pos (fun c hc => by simpa using ne_of_mem_of_not_mem hc h)]
  simp

theorem getline_line (n : ℕ) (l rest : List α) (ending : Ending) (hl : nl ∉ l) (hn : l.length < n) :
    getline nl n (opened (l ++ nl :: rest) ending) = (l, opened rest ending) := by
  unfold getline
  rw [if_pos (opened_good _ _)]
  simp only [opened, takeWhile_line nl l rest hl, hn, if_true, List.drop_left]

theorem getline_last (n : ℕ) (l : List α) (ending : Ending) (hl : nl ∉ l) (hn : l.length < n) :
    (getline nl n (opened l ending)).1 = l ∧ (getline nl n (opened l ending)).2.good = false ∧
      ((getline nl n (opened l ending)).2.eof = true ↔ ending = .eof) := by
  unfold getline
  rw [if_pos (opened_good _ _)]
  simp only [opened, takeWhile_last nl l hl, hn, if_true, List.drop_length]
  cases ending <;> simp [Stream.good]

theorem getline_long (n : ℕ) (text l : List α) (ending : Ending) (hl : text.takeWhile (· ≠ nl) = l)
    (hn : ¬ l.length < n) :
    (getline nl n (opened text ending)).1 = l.take (n - 1) ∧ (getline nl n (opened text ending)).2.good = false ∧
      (getline nl n (opened text ending)).2.eof = false := by
  unfold getline
  rw [if_pos (opened_good _ _)]
  simp only [opened, hl, hn, if_false, true_and]
  exact ⟨rfl, trivial⟩

/-! ## The loop -/

theorem loop_mono (n : ℕ) (body : β → List α → β × Bool) (fuel k : ℕ) (acc r : β) (s : Stream α)
    (h : loop nl n body fuel acc s = some r) : loop nl n body (fuel + k) acc s = some r := by
  induction fuel generalizing acc s with
  | zero => cases h
  | succ fuel ih =>
    rw [Nat.succ_add]
    unfold loop at h ⊢
    split at h
    · next heof => rw [if_pos heof]; exact h
    · next heof =>
      rw [if_neg heof]
      dsimp only at h ⊢
      split at h
      · next hbreak => rw [if_pos hbreak]; exact h
      · next hbreak => rw [if_neg hbreak]; exact ih _ _ h

/-- A stream that is not good but not at the end of the file is never left: every further
buffer is empty, and the body skips it. -/
theorem loop_stuck (n : ℕ) (body : β → List α → β × Bool) (hblank : ∀ acc, body acc [] = (acc, false)) (fuel : ℕ)
    (acc : β) (s : Stream α) (hgood : s.good = false) (heof : s.eof = false) : loop nl n body fuel acc s = none := by
  induction fuel generalizing s with
  | zero => rfl
  | succ fuel ih =>
    have hline : getline nl n s = ([], { s with fail := true }) := by
      unfold getline
      rw [if_neg (by simp [hgood])]
    rw [loop, if_neg (by simp [heof]), hline]
    dsimp only
    rw [hblank, if_neg (by simp)]
    exact ih _ (by simp [Stream.good]) heof

/-- One more buffer: the loop breaks there, or goes on with one unit of fuel less. -/
theorem loop_step (n : ℕ) (body : β → List α → β × Bool) (fuel : ℕ) (acc : β) (s : Stream α) (heof : s.eof = false) :
    loop nl n body (fuel + 1) acc s =
      if (body acc (getline nl n s).1).2 then some (body acc (getline nl n s).1).1
      else loop nl n body fuel (body acc (getline nl n s).1).1 (getline nl n s).2 := by
  rw [loop, if_neg (by simp [heof])]

/-- A single buffer, and then the loop over the stream behind it. -/
theorem loop_single (n : ℕ) (body : β → List α → β × Bool) {text b : List α} {ending : Ending} {s' : Stream α}
    (hline : getline nl n (opened text ending) = (b, s')) (acc : β) (fuel : ℕ) :
    loop nl n body (fuel + [b].length) acc (opened text ending) =
      if (passes body acc [b]).2 then some (passes body acc [b]).1
      else loop nl n body fuel (passes body acc [b]).1 s' := by
  rw [List.length_singleton, loop_step nl n body fuel acc _ rfl, hline]
  dsimp only
  unfold passes
  split
  · rfl
  · unfold passes
    rw [if_neg (by simp)]

/-- The loop over an opened stream is the body over its buffers, and then the loop over a
stream that is at the end of the file exactly when everything fits. -/
theorem loop_opened (n : ℕ) (body : β → List α → β × Bool) (text : List α) (ending : Ending) :
    ∃ s' : Stream α, s'.good = false ∧ (s'.eof = true ↔ Fits nl n text ending) ∧
      ∀ acc fuel, loop nl n body (fuel + (reads n (splitLines nl text)).length) acc (opened text ending) =
        if (passes body acc (reads n (splitLines nl text))).2 then
          some (passes body acc (reads n (splitLines nl text))).1
        else loop nl n body fuel (passes body acc (reads n (splitLines nl text))).1 s' := by
  induction text using line_induction nl with
  | hlast l hl =>
    rw [splitLines_of_not_mem nl l hl, reads]
    unfold Fits
    rw [splitLines_of_not_mem nl l hl]
    by_cases hn : l.length < n
    · obtain ⟨hbuffer, hgood, heof⟩ := getline_last nl n l ending hl hn
      refine ⟨(getline nl n (opened l ending)).2, hgood, ?_, ?_⟩
      · rw [heof]
        simp [hn]
      · rw [if_pos hn, reads]
        exact loop_single nl n body (Prod.ext hbuffer rfl)
    · obtain ⟨hbuffer, hgood, heof⟩ := getline_long nl n l l ending (takeWhile_last nl l hl) hn
      refine ⟨(getline nl n (opened l ending)).2, hgood, ?_, ?_⟩
      · rw [heof]
        simp [hn]
      · rw [if_neg hn]
        exact loop_single nl n body (Prod.ext hbuffer rfl)
  | hline l rest hl ih =>
    rw [splitLines_append nl l rest hl, reads]
    unfold Fits
    rw [splitLines_append nl l rest hl]
    by_cases hn : l.length < n
    · obtain ⟨s', hgood, heof, hloop⟩ := ih
      refine ⟨s', hgood, ?_, ?_⟩
      · rw [heof, Fits]
        simp [hn]
      · intro acc fuel
        rw [if_pos hn, List.length_cons, ← Nat.add_assoc, loop_step nl n body _ acc _ rfl,
          getline_line nl n l rest ending hl hn]
        dsimp only
        rw [passes]
        split
        · rfl
        · exact hloop _ fuel
    · obtain ⟨hbuffer, hgood, heof⟩ :=
        getline_long nl n (l ++ nl :: rest) l ending (takeWhile_line nl l rest hl) hn
      refine ⟨(getline nl n (opened (l ++ nl :: rest) ending)).2, hgood, ?_, ?_⟩
      · rw [heof]
        simp [hn]
      · rw [if_neg hn]
        exact loop_single nl n body (Prod.ext hbuffer rfl)

/-- The loop ends exactly when everything fits or the body breaks at one of the buffers. -/
theorem loop_ends_iff (n : ℕ) (body : β → List α → β × Bool) (hblank : ∀ acc, body acc [] = (acc, false)) (acc : β)
    (text : List α) (ending : Ending) :
    (∃ fuel, loop nl n body fuel acc (opened text ending) ≠ none) ↔
      Fits nl n text ending ∨ (passes body acc (reads n (splitLines nl text))).2 = true := by
  obtain ⟨s', hgood, heof, hloop⟩ := loop_opened nl n body text ending
  constructor
  · rintro ⟨fuel, hfuel⟩
    obtain ⟨r, hr⟩ := Option.ne_none_iff_exists'.mp hfuel
    have hmore := loop_mono nl n body fuel (reads n (splitLines nl text)).length acc r _ hr
    rw [hloop] at hmore
    by_contra hno
    obtain ⟨hfits, hbreak⟩ := not_or.mp hno
    have hopen : s'.eof = false := by simpa using mt heof.mp hfits
    rw [if_neg hbreak, loop_stuck nl n body hblank fuel _ s' hgood hopen] at hmore
    cases hmore
  · intro h
    refine ⟨1 + (reads n (splitLines nl text)).length, ?_⟩
    rw [hloop]
    split
    · simp
    · next hbreak =>
      rw [loop, if_pos (heof.mpr (h.resolve_right hbreak))]
      simp

/-- What the loop returns is the body over the buffers. -/
theorem loop_result (n : ℕ) (body : β → List α → β × Bool) (hblank : ∀ acc, body acc [] = (acc, false)) (acc r : β)
    (text : List α) (ending : Ending) (fuel : ℕ) (h : loop nl n body fuel acc (opened text ending) = some r) :
    r = (passes body acc (reads n (splitLines nl text))).1 := by
  obtain ⟨s', hgood, -, hloop⟩ := loop_opened nl n body text ending
  have hmore := loop_mono nl n body fuel (reads n (splitLines nl text)).length acc r _ h
  rw [hloop] at hmore
  split at hmore
  · exact (Option.some.inj hmore).symm
  · cases heof : s'.eof with
    | false =>
      rw [loop_stuck nl n body hblank fuel _ s' hgood heof] at hmore
      cases hmore
    | true =>
      cases fuel with
      | zero => cases hmore
      | succ fuel =>
        rw [loop, if_pos heof] at hmore
        exact (Option.some.inj hmore).symm

end
end Capture.LineStream
