import Capture.Model.ReaderLoops

/-! # When the `/proc` readers end

A loop that ends has gone through the buffers `fileBuffers` of the file, so what it returns
is what the reader over a list of buffers returns. It ends exactly when every line fits the
array and no read fails, or when it breaks before. -/
namespace Capture
open SeparatedText FormattedScan LineStream

set_option autoImplicit false

/-- The buffers a loop over the file goes through before the stream turns bad. -/
def fileBuffers (text : Text) : List Text := reads bufferSize (splitLines '\n' text)

theorem fileBuffers_joinLines (ls : List Text) (hline : ∀ l ∈ ls, '\n' ∉ l) (hfit : ∀ l ∈ ls, l.length < bufferSize) :
    fileBuffers (joinLines '\n' ls) = ls ++ [[]] := by
  rw [fileBuffers, splitLines_joinLines '\n' ls hline, reads_of_fits]
  exact List.forall_mem_append.mpr ⟨hfit, List.forall_mem_singleton.mpr (by decide)⟩

section
variable {β : Type}

theorem readLoop_ends_iff (body : β → Text → β × Bool) (hblank : ∀ acc, body acc [] = (acc, false)) (acc : β)
    (text : Text) (ending : Ending) :
    (∃ fuel, readLoop body fuel (some (opened text ending)) acc ≠ none) ↔
      Fits '\n' bufferSize text ending ∨ (passes body acc (fileBuffers text)).2 = true := by
  rw [fileBuffers, ← loop_ends_iff '\n' bufferSize body hblank]
  simp [readLoop]

theorem readLoop_result (body : β → Text → β × Bool) (hblank : ∀ acc, body acc [] = (acc, false)) (acc : β)
    (text : Text) (ending : Ending) (fuel : ℕ) (r : ℤ × β)
    (h : readLoop body fuel (some (opened text ending)) acc = some r) :
    r = (0, (passes body acc (fileBuffers text)).1) := by
  obtain ⟨r', hr', rfl⟩ := Option.map_eq_some_iff.mp h
  rw [loop_result '\n' bufferSize body hblank acc r' text ending fuel hr']
  rfl

/-- A body that never breaks. -/
theorem readLoop_plain_ends_iff (f : β → Text → β) (hblank : ∀ acc, f acc [] = acc) (acc : β) (text : Text)
    (ending : Ending) :
    (∃ fuel, readLoop (fun acc b => (f acc b, false)) fuel (some (opened text ending)) acc ≠ none) ↔
      Fits '\n' bufferSize text ending := by
  rw [readLoop_ends_iff _ (fun acc => by rw [hblank]), passes_foldl]
  simp

theorem readLoop_plain_result (f : β → Text → β) (hblank : ∀ acc, f acc [] = acc) (acc : β) (text : Text)
    (ending : Ending) (fuel : ℕ) (r : ℤ × β)
    (h : readLoop (fun acc b => (f acc b, false)) fuel (some (opened text ending)) acc = some r) :
    r = (0, (fileBuffers text).foldl f acc) := by
  rw [readLoop_result _ (fun acc => by rw [hblank]) acc text ending fuel r h, passes_foldl]

/-- A file of lines, each with its newline: the loop ends exactly when every line fits, and
has then gone through the lines. -/
theorem readLoop_lines_iff (f : β → Text → β) (hblank : ∀ acc, f acc [] = acc) (ls : List Text)
    (hline : ∀ l ∈ ls, '\n' ∉ l) (acc : β) (r : ℤ × β) :
    (∃ fuel, readLoop (fun acc b => (f acc b, false)) fuel (some (opened (joinLines '\n' ls) .eof)) acc = some r) ↔
      (∀ l ∈ ls, l.length < bufferSize) ∧ r = (0, ls.foldl f acc) := by
  have hsplit := splitLines_joinLines '\n' ls hline
  have hlast : (∀ l ∈ ls ++ [[]], l.length < bufferSize) ↔ ∀ l ∈ ls, l.length < bufferSize := by
    rw [List.forall_mem_append]
    exact and_iff_left (by decide)
  have hends : (∃ fuel, readLoop (fun acc b => (f acc b, false)) fuel
      (some (opened (joinLines '\n' ls) .eof)) acc ≠ none) ↔ ∀ l ∈ ls, l.length < bufferSize := by
    rw [readLoop_plain_ends_iff f hblank, Fits, hsplit, hlast]
    exact and_iff_right rfl
  have hresult : ∀ fuel r, readLoop (fun acc b => (f acc b, false)) fuel
      (some (opened (joinLines '\n' ls) .eof)) acc = some r → r = (0, ls.foldl f acc) := by
    intro fuel r hr
    have hfit := hlast.mpr (hends.mp ⟨fuel, by simp [hr]⟩)
    rw [readLoop_plain_result f hblank acc _ .eof fuel r hr, fileBuffers, hsplit, reads_of_fits _ _ hfit,
      List.foldl_append, List.foldl_cons, List.foldl_nil, hblank]
  constructor
  · rintro ⟨fuel, hr⟩
    exact ⟨hends.mp ⟨fuel, by simp [hr]⟩, hresult fuel r hr⟩
  · rintro ⟨hfit, rfl⟩
    obtain ⟨fuel, hfuel⟩ := hends.mpr hfit
    obtain ⟨r, hr⟩ := Option.ne_none_iff_exists'.mp hfuel
    exact ⟨fuel, by rw [hr, hresult fuel r hr]⟩

/-- A body that breaks at the first buffer from which `g` reads a value. -/
theorem readLoop_find_ends_iff {γ : Type} (g : Text → Option γ) (f : β → γ → β) (hblank : g [] = none) (acc : β)
    (text : Text) (ending : Ending) :
    (∃ fuel, readLoop (fun acc b => ((g b).elim acc (f acc), (g b).isSome)) fuel (some (opened text ending)) acc ≠
        none) ↔
      Fits '\n' bufferSize text ending ∨ ∃ b ∈ fileBuffers text, g b ≠ none := by
  rw [readLoop_ends_iff _ (fun acc => by rw [hblank]; rfl), passes_findSome]
  refine or_congr_right ?_
  rw [List.findSome?_isSome_iff]
  simp only [Option.isSome_iff_ne_none]

theorem readLoop_find_result {γ : Type} (g : Text → Option γ) (f : β → γ → β) (hblank : g [] = none) (acc : β)
    (text : Text) (ending : Ending) (fuel : ℕ) (r : ℤ × β)
    (h : readLoop (fun acc b => ((g b).elim acc (f acc), (g b).isSome)) fuel (some (opened text ending)) acc =
      some r) : r = (0, ((fileBuffers text).findSome? g).elim acc (f acc)) := by
  rw [readLoop_result _ (fun acc => by rw [hblank]; rfl) acc text ending fuel r h, passes_findSome]

end

/-! ## The bodies skip an empty buffer -/

theorem parseStatusLine_nil (p : CapProcess) : CapProcess.parseStatusLine p [] = p := rfl

theorem parseIoLine_nil (p : CapProcess) : CapProcess.parseIoLine p [] = p := rfl

theorem statTicks_nil : CapProcess.statTicks [] = none := by
  unfold CapProcess.statTicks
  simp [cString]

theorem cpuTicks_nil : CaptureCxx.cpuTicks [] = none := by
  unfold CaptureCxx.cpuTicks
  simp [cString]

theorem memTotal_nil : CaptureCxx.memTotal [] = none := by
  unfold CaptureCxx.memTotal
  simp [cString]

/-! ## When the loops end -/

/-- For every content of the file and either ending: four readers end exactly when every
line has fewer than 1024 characters and no read fails, and the two that break also when a
buffer before that yields what they look for. -/
theorem reader_loops_end_iff (text : Text) (ending : Ending) :
    (∀ p, (∃ fuel, CapProcess.parseStatusLoop fuel (some (opened text ending)) p ≠ none) ↔
      Fits '\n' bufferSize text ending) ∧
    (∀ p, (∃ fuel, CapProcess.parseIoLoop fuel (some (opened text ending)) p ≠ none) ↔
      Fits '\n' bufferSize text ending) ∧
    (∀ call p, (∃ fuel, CapProcess.parseStatLoop call fuel (some (opened text ending)) p ≠ none) ↔
      Fits '\n' bufferSize text ending) ∧
    (∀ devices h, (∃ fuel, CapInodeHelper.parseLoop devices fuel (some (opened text ending)) h ≠ none) ↔
      Fits '\n' bufferSize text ending) ∧
    (∀ s, (∃ fuel, CaptureCxx.getCpuTotalLoop fuel (some (opened text ending)) s ≠ none) ↔
      Fits '\n' bufferSize text ending ∨ ∃ b ∈ fileBuffers text, CaptureCxx.cpuTicks b ≠ none) ∧
    ∀ s, (∃ fuel, CaptureCxx.getMemTotalLoop fuel (some (opened text ending)) s ≠ none) ↔
      Fits '\n' bufferSize text ending ∨ ∃ b ∈ fileBuffers text, CaptureCxx.memTotal b ≠ none := by
  refine ⟨fun p => readLoop_plain_ends_iff _ parseStatusLine_nil p text ending,
    fun p => readLoop_plain_ends_iff _ parseIoLine_nil p text ending,
    fun call p => readLoop_plain_ends_iff _ (fun p => ?_) p text ending,
    fun devices h => readLoop_plain_ends_iff _ (fun h => ?_) h text ending,
    fun s => readLoop_find_ends_iff _ _ cpuTicks_nil s text ending,
    fun s => readLoop_find_ends_iff _ _ memTotal_nil s text ending⟩
  · rw [statTicks_nil]
    rfl
  · exact if_pos rfl

/-- A status file with a line of 1024 characters, and one whose first read fails, are read
forever. -/
theorem status_loop_never_ends :
    (¬ ∃ fuel, CapProcess.parseStatusLoop fuel (some (opened (List.replicate 1024 'x') .eof)) { pid := 1 } ≠ none) ∧
      ¬ ∃ fuel, CapProcess.parseStatusLoop fuel (some (opened [] .error)) { pid := 1 } ≠ none := by
  have hends : ∀ text ending,
      (∃ fuel, CapProcess.parseStatusLoop fuel (some (opened text ending)) { pid := 1 } ≠ none) ↔
        Fits '\n' bufferSize text ending :=
    fun text ending => readLoop_plain_ends_iff _ parseStatusLine_nil _ text ending
  rw [hends, hends]
  constructor
  · rintro ⟨-, hfits⟩
    have hline : '\n' ∉ List.replicate 1024 'x' := fun h => absurd (List.eq_of_mem_replicate h) (by decide)
    rw [splitLines_of_not_mem _ _ hline] at hfits
    have hlength := hfits _ (List.mem_singleton_self _)
    rw [List.length_replicate] at hlength
    exact lt_irrefl 1024 hlength
  · rintro ⟨hending, -⟩
    cases hending

/-! ## What the loops return -/

theorem foldl_elim_filterMap {β γ : Type} (g : Text → Option γ) (f : β → γ → β) (bs : List Text) (acc : β) :
    bs.foldl (fun acc b => (g b).elim acc (f acc)) acc = (bs.filterMap g).foldl f acc := by
  induction bs generalizing acc with
  | nil => rfl
  | cons b bs ih =>
    rw [List.foldl_cons, ih]
    cases hb : g b with
    | none => rw [List.filterMap_cons_none hb]; rfl
    | some v => rw [List.filterMap_cons_some hb]; rfl

/-- A loop that ends returns what the reader returns on the buffers of the file. -/
theorem reader_loops_result (text : Text) (ending : Ending) (fuel : ℕ) :
    (∀ (files : ProcFiles) p r, CapProcess.parseStatusLoop fuel (some (opened text ending)) p = some r →
      r = CapProcess.parseStatus { files with status := some (fileBuffers text) } p) ∧
    (∀ (files : ProcFiles) p r, CapProcess.parseIoLoop fuel (some (opened text ending)) p = some r →
      r = CapProcess.parseIo { files with io := some (fileBuffers text) } p) ∧
    (∀ call (files : ProcFiles) p r, CapProcess.parseStatLoop call fuel (some (opened text ending)) p = some r →
      r = CapProcess.parseStat call { files with stat := some (fileBuffers text) } p) ∧
    (∀ devices h r, CapInodeHelper.parseLoop devices fuel (some (opened text ending)) h = some r →
      r = CapInodeHelper.parse devices (some (fileBuffers text)) h) ∧
    (∀ s r, CaptureCxx.getCpuTotalLoop fuel (some (opened text ending)) s = some r →
      r = CaptureCxx.getCpuTotal (some (fileBuffers text)) s) ∧
    ∀ s r, CaptureCxx.getMemTotalLoop fuel (some (opened text ending)) s = some r →
      r = CaptureCxx.getMemTotal (some (fileBuffers text)) s := by
  refine ⟨fun files p r h => ?_, fun files p r h => ?_, fun call files p r h => ?_, fun devices h r hr => ?_,
    fun s r h => ?_, fun s r h => ?_⟩
  · exact readLoop_plain_result _ parseStatusLine_nil p text ending fuel r h
  · exact readLoop_plain_result _ parseIoLine_nil p text ending fuel r h
  · rw [readLoop_plain_result _ (fun p => by rw [statTicks_nil]; rfl) p text ending fuel r h, foldl_elim_filterMap]
    rfl
  · rw [readLoop_plain_result
      (fun (h : CapInodeHelper) buffer => if cString buffer = [] then h else h.parseBuffer devices buffer)
      (fun h => if_pos rfl) h text ending fuel r hr, CapInodeHelper.parse, List.foldl_filter]
    simp
  · rw [readLoop_find_result _ _ cpuTicks_nil s text ending fuel r h, CaptureCxx.getCpuTotal]
    cases (fileBuffers text).findSome? CaptureCxx.cpuTicks <;> rfl
  · rw [readLoop_find_result _ _ memTotal_nil s text ending fuel r h, CaptureCxx.getMemTotal]
    cases (fileBuffers text).findSome? CaptureCxx.memTotal <;> rfl

end Capture
