import Mathlib.Data.List.Basic

/-! # Runs of a deterministic machine

A machine is a function `next : σ → ι → σ`; a run is a list of calls. `steps` lists
the transitions of a run in order, so that a property of every call of a run is a
property of every member of `steps`. The rules below are all that proofs about
runs need: a transition is one application of `next`, and an invariant that one
call preserves holds before every call. -/
namespace Capture.RunTrace

set_option autoImplicit false

variable {σ ι : Type}

structure Step (σ ι : Type) where
  before : σ
  call : ι
  after : σ

/-- The transitions of the run that starts in `s` and makes the calls `cs`. -/
def steps (next : σ → ι → σ) : σ → List ι → List (Step σ ι)
  | _, [] => []
  | s, c :: cs => ⟨s, c, next s c⟩ :: steps next (next s c) cs

theorem after_of_mem_steps (next : σ → ι → σ) (s : σ) (cs : List ι) (t : Step σ ι)
    (h : t ∈ steps next s cs) : t.after = next t.before t.call := by
  induction cs generalizing s with
  | nil => cases h
  | cons c cs ih =>
    rcases List.mem_cons.mp h with rfl | h
    · rfl
    · exact ih (next s c) h

theorem call_of_mem_steps (next : σ → ι → σ) (s : σ) (cs : List ι) (t : Step σ ι) (h : t ∈ steps next s cs) :
    t.call ∈ cs := by
  induction cs generalizing s with
  | nil => cases h
  | cons c cs ih =>
    rcases List.mem_cons.mp h with rfl | h
    · exact List.mem_cons_self
    · exact List.mem_cons_of_mem c (ih (next s c) h)

/-- The invariant rule for runs whose calls all satisfy `ok`. -/
theorem invariant_of_steps_ok (next : σ → ι → σ) (ok : Step σ ι → Prop) (inv : σ → Prop)
    (hnext : ∀ s c, ok ⟨s, c, next s c⟩ → inv s → inv (next s c)) (s : σ) (hs : inv s) (cs : List ι)
    (hok : ∀ t ∈ steps next s cs, ok t) (t : Step σ ι) (h : t ∈ steps next s cs) : inv t.before := by
  induction cs generalizing s with
  | nil => cases h
  | cons c cs ih =>
    rcases List.mem_cons.mp h with rfl | h
    · exact hs
    · exact ih (next s c) (hnext s c (hok _ List.mem_cons_self) hs)
        (fun t ht => hok t (List.mem_cons_of_mem _ ht)) h

theorem invariant_of_mem_steps (next : σ → ι → σ) (inv : σ → Prop)
    (hnext : ∀ s c, inv s → inv (next s c)) (s : σ) (hs : inv s) (cs : List ι) (t : Step σ ι)
    (h : t ∈ steps next s cs) : inv t.before :=
  invariant_of_steps_ok next (fun _ => True) inv (fun s c _ => hnext s c) s hs cs (fun _ _ => trivial) t h

/-- The invariant rule for where a run leads. -/
theorem invariant_of_foldl (next : σ → ι → σ) (inv : σ → Prop) (hnext : ∀ s c, inv s → inv (next s c)) (s : σ)
    (hs : inv s) (cs : List ι) : inv (cs.foldl next s) := by
  induction cs generalizing s with
  | nil => exact hs
  | cons c cs ih => exact ih (next s c) (hnext s c hs)

theorem steps_append (next : σ → ι → σ) (s : σ) (cs ds : List ι) :
    steps next s (cs ++ ds) = steps next s cs ++ steps next (cs.foldl next s) ds := by
  induction cs generalizing s with
  | nil => rfl
  | cons c cs ih => exact congrArg (List.cons _) (ih (next s c))

theorem steps_eq_cons (next : σ → ι → σ) {s : σ} {cs : List ι} {t : Step σ ι} {rest : List (Step σ ι)}
    (h : steps next s cs = t :: rest) :
    t.before = s ∧ t.after = next t.before t.call ∧ ∃ cs', steps next t.after cs' = rest := by
  cases cs with
  | nil => cases h
  | cons c cs =>
    cases h
    exact ⟨rfl, rfl, cs, rfl⟩

/-- What follows a transition of a run is the run from where it ends. -/
theorem steps_after (next : σ → ι → σ) {s : σ} {cs : List ι} {pre : List (Step σ ι)} {t : Step σ ι}
    {rest : List (Step σ ι)} (h : steps next s cs = pre ++ t :: rest) : ∃ cs', steps next t.after cs' = rest := by
  induction pre generalizing s cs with
  | nil => exact (steps_eq_cons next h).2.2
  | cons x pre ih =>
    obtain ⟨-, -, cs', hcs'⟩ := steps_eq_cons next h
    exact ih hcs'

/-- The rule for a stretch of a run: a property of the transitions made so far and of the
state they lead to holds before the transition that ends the stretch. -/
theorem stretch_induction (next : σ → ι → σ) (p : List (Step σ ι) → σ → Prop) {s : σ} {cs : List ι}
    {mid : List (Step σ ι)} {t : Step σ ι} {rest : List (Step σ ι)} (h : steps next s cs = mid ++ t :: rest)
    (hstart : p [] s) (hstep : ∀ done m, m ∈ mid → m.after = next m.before m.call → p done m.before →
      p (done ++ [m]) m.after) : p mid t.before := by
  induction mid generalizing s cs p with
  | nil =>
    obtain ⟨hbefore, -, -⟩ := steps_eq_cons next h
    exact hbefore ▸ hstart
  | cons m mid ih =>
    obtain ⟨hbefore, hafter, cs', hcs'⟩ := steps_eq_cons next h
    refine ih (fun done s => p (m :: done) s) hcs' ?_ ?_
    · exact hstep [] m List.mem_cons_self hafter (hbefore ▸ hstart)
    · exact fun done x hx hxafter hp => hstep (m :: done) x (List.mem_cons_of_mem m hx) hxafter hp

/-- What a view of the state goes through, when every transition does to it what its label says. -/
theorem foldl_of_steps {ω α : Type} (next : σ → ι → σ) (view : σ → ω) (label : Step σ ι → α) (act : ω → α → ω)
    (hnext : ∀ s c, view (next s c) = act (view s) (label ⟨s, c, next s c⟩)) (s : σ) (cs : List ι) :
    view (cs.foldl next s) = ((steps next s cs).map label).foldl act (view s) := by
  induction cs generalizing s with
  | nil => rfl
  | cons c cs ih => rw [List.foldl_cons, ih, hnext, steps, List.map_cons, List.foldl_cons]

/-! ## Two runs side by side -/

/-- Two machines that make calls which agree, pair by pair, in the states of the first stay related. -/
theorem related_of_foldl (next : σ → ι → σ) (rel : σ → σ → Prop) (same : σ → ι → ι → Prop)
    (hnext : ∀ s s' c c', rel s s' → same s c c' → rel (next s c) (next s' c')) (cs : List (ι × ι)) (s s' : σ)
    (hs : rel s s') (hsame : ∀ t ∈ steps (fun s c => next s c.1) s cs, same t.before t.call.1 t.call.2) :
    rel ((cs.map Prod.fst).foldl next s) ((cs.map Prod.snd).foldl next s') := by
  induction cs generalizing s s' with
  | nil => exact hs
  | cons c cs ih =>
    obtain ⟨hc, hcs⟩ := List.forall_mem_cons.mp hsame
    exact ih (next s c.1) (next s' c.2) (hnext s s' c.1 c.2 hs hc) hcs

/-- The machine that makes the two calls of a pair. -/
def both (next : σ → ι → σ) (s : σ × σ) (c : ι × ι) : σ × σ := (next s.1 c.1, next s.2 c.2)

/-- The same rule for calls whose agreement is seen in both states. -/
theorem related_of_both (next : σ → ι → σ) (rel : σ → σ → Prop) (same : σ × σ → ι × ι → Prop)
    (hnext : ∀ (s : σ × σ) (c : ι × ι), rel s.1 s.2 → same s c → rel (next s.1 c.1) (next s.2 c.2)) (cs : List (ι × ι))
    (s s' : σ) (hs : rel s s') (hsame : ∀ t ∈ steps (both next) (s, s') cs, same t.before t.call) :
    rel ((cs.map Prod.fst).foldl next s) ((cs.map Prod.snd).foldl next s') := by
  induction cs generalizing s s' with
  | nil => exact hs
  | cons c cs ih =>
    obtain ⟨hc, hcs⟩ := List.forall_mem_cons.mp hsame
    exact ih (next s c.1) (next s' c.2) (hnext (s, s') c hs hc) hcs

/-- The rule for calls that change nothing the relation sees: a run stays related to the run without them. -/
theorem related_of_filter (next : σ → ι → σ) (rel : σ → σ → Prop) (heard : ι → Bool)
    (hnext : ∀ s s' c, heard c = true → rel s s' → rel (next s c) (next s' c))
    (hskip : ∀ s s' c, heard c = false → rel s s' → rel (next s c) s') (cs : List ι) (s s' : σ) (hs : rel s s') :
    rel (cs.foldl next s) ((cs.filter heard).foldl next s') := by
  induction cs generalizing s s' with
  | nil => exact hs
  | cons c cs ih =>
    cases hc : heard c with
    | false =>
      rw [List.filter_cons_of_neg (by simp [hc])]
      exact ih (next s c) s' (hskip s s' c hc hs)
    | true =>
      rw [List.filter_cons_of_pos hc]
      exact ih (next s c) (next s' c) (hnext s s' c hc hs)

end Capture.RunTrace
