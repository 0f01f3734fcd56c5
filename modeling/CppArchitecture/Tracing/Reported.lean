import CppArchitecture.Tracing.System

/-!
# What is reported

Whichever threads finish a span, it is handed to the reporter at most once, with a name, tags and a
duration that stay what they are.
-/

namespace Tracing

open Core

/-- The span that a thread has finished and not yet reported. -/
def ThreadPc.number {π : Type} : ThreadPc π → Option ℕ
  | .idle | .starting _ _ => none
  | .finished i | .counted i | .sampled i => some i

namespace System

variable {π ι : Type} [DecidableEq π] [DecidableEq ι] {config : Config}
  {performs : Span.Operation → Prop} {s t : System π ι}

/-! ### Reports -/

/-- What holds of the threads that are about to report a span, and of what has been reported. -/
structure Reports (s : System π ι) : Prop where
  thread (j : ι) (i : ℕ) (hj : (s.thread j).number = some i) :
    (∃ span, s.spans[i]? = some span ∧ span.isFinished = true) ∧ i ∉ s.reported.map Prod.fst
  distinct (j k : ι) (i : ℕ) (hj : (s.thread j).number = some i)
    (hk : (s.thread k).number = some i) : j = k
  nodup : (s.reported.map Prod.fst).Nodup
  reported (i : ℕ) (copy : Span π) (hmem : (i, copy) ∈ s.reported) :
    copy.isFinished = true ∧ ∃ span, s.spans[i]? = some span ∧ copy.Evolves span

/-- Every span evolves. -/
def Evolve (s t : System π ι) : Prop :=
  ∀ (i : ℕ) (span : Span π), s.spans[i]? = some span →
    ∃ span', t.spans[i]? = some span' ∧ span.Evolves span'

lemma Step.evolve (h : Step config performs s t) : Evolve s t := by
  intro i span hspan
  obtain ⟨span', hspan', hbecomes⟩ := h.becomes hspan
  exact ⟨span', hspan', hbecomes.evolves⟩

section

omit [DecidableEq π] [DecidableEq ι]

variable {i : ℕ} {span copy : Span π}

lemma Evolve.finished (h : Evolve s t)
    (hs : ∃ span, s.spans[i]? = some span ∧ span.isFinished = true) :
    ∃ span, t.spans[i]? = some span ∧ span.isFinished = true := by
  obtain ⟨span, hspan, hfinished⟩ := hs
  obtain ⟨span', hspan', hevolves⟩ := h i span hspan
  exact ⟨span', hspan', hevolves.isFinished hfinished⟩

lemma Evolve.of_copy (h : Evolve s t) (hs : ∃ span, s.spans[i]? = some span ∧ copy.Evolves span) :
    ∃ span, t.spans[i]? = some span ∧ copy.Evolves span := by
  obtain ⟨span, hspan, hcopy⟩ := hs
  obtain ⟨span', hspan', hevolves⟩ := h i span hspan
  exact ⟨span', hspan', hcopy.trans hevolves⟩

/-- Steps that report nothing, and after which no thread is about to report but those that were. -/
lemma Reports.mono (h : Reports s) (hevolve : Evolve s t)
    (hthread : ∀ j i, (t.thread j).number = some i → (s.thread j).number = some i)
    (hreported : t.reported = s.reported) : Reports t where
  thread j i hj := by
    obtain ⟨hfinished, hnew⟩ := h.thread j i (hthread j i hj)
    exact ⟨hevolve.finished hfinished, hreported ▸ hnew⟩
  distinct j k i hj hk := h.distinct j k i (hthread j i hj) (hthread k i hk)
  nodup := hreported ▸ h.nodup
  reported i copy hmem := by
    obtain ⟨hfinished, hspan⟩ := h.reported i copy (hreported ▸ hmem)
    exact ⟨hfinished, hevolve.of_copy hspan⟩

/-- What has been reported is finished. -/
lemma Reports.finished (h : Reports s) (hspan : s.spans[i]? = some span)
    (hmem : i ∈ s.reported.map Prod.fst) : span.isFinished = true := by
  obtain ⟨⟨_, copy⟩, hcopy, rfl⟩ := List.mem_map.mp hmem
  obtain ⟨hfinished, span', hspan', hevolves⟩ := h.reported _ copy hcopy
  obtain rfl : span = span' := Option.some.inj (hspan.symm.trans hspan')
  exact hevolves.isFinished hfinished

/-- No thread is about to report a span that is not finished. -/
lemma Reports.number_ne (h : Reports s) (hspan : s.spans[i]? = some span)
    (hfinished : ¬ span.isFinished = true) (j : ι) : (s.thread j).number ≠ some i := by
  intro hj
  obtain ⟨⟨span', hspan', hfinished'⟩, -⟩ := h.thread j i hj
  obtain rfl : span = span' := Option.some.inj (hspan.symm.trans hspan')
  exact hfinished hfinished'

end

omit [DecidableEq π] in
/-- The number of a thread after one of them has moved. -/
lemma number_update {pc : ThreadPc π} {j k : ι} {i : ℕ}
    (h : (Function.update s.thread j pc k).number = some i) :
    (k = j ∧ pc.number = some i) ∨ (k ≠ j ∧ (s.thread k).number = some i) := by
  have hmoved : Function.update s.thread j pc k = _ := rfl
  rcases thread_update hmoved with ⟨hk, hpc⟩ | ⟨hk, hpc⟩
  · rw [← hpc] at h
    exact .inl ⟨hk, h⟩
  · rw [← hpc] at h
    exact .inr ⟨hk, h⟩

omit [DecidableEq π] in
/-- A thread that goes on with the span it has finished, or has none. -/
lemma number_of_moved (pc : ThreadPc π) {j : ι}
    (hpc : pc.number = (s.thread j).number ∨ pc.number = none) (k : ι) (i : ℕ)
    (h : (Function.update s.thread j pc k).number = some i) : (s.thread k).number = some i := by
  rcases number_update h with ⟨rfl, hi⟩ | ⟨-, hk⟩
  · rcases hpc with hpc | hpc
    · rwa [hpc] at hi
    · rw [hpc] at hi
      cases hi
  · exact hk

lemma Reports.step (h : Reports s) (hstep : Step config performs s t) : Reports t := by
  have hevolve := hstep.evolve
  cases hstep with
  | context | perform | inject | extract | receive => exact h.mono hevolve (fun j i hj => hj) rfl
  | start | increment | startReturn => exact h.mono hevolve (number_of_moved _ (.inr rfl)) rfl
  | @finish j i span finishTimeSteady logRecords hthread hspan hfinished =>
    have hlt := (List.getElem?_eq_some_iff.mp hspan).1
    refine ⟨fun k n hk => ?_, fun k l n hk hl => ?_, h.nodup, fun n copy hmem => ?_⟩
    · rcases number_update hk with ⟨rfl, hn⟩ | ⟨-, hk⟩
      · -- what has been reported is finished, and this span has not been
        cases hn
        exact ⟨⟨_, List.getElem?_set_self hlt, Span.isFinished_finish _ _ span⟩,
          fun hmem => hfinished (h.finished hspan hmem)⟩
      · obtain ⟨hn, hmem⟩ := h.thread k n hk
        exact ⟨hevolve.finished hn, hmem⟩
    · rcases number_update hk with ⟨hkj, hn⟩ | ⟨-, hk'⟩ <;>
        rcases number_update hl with ⟨hlj, hn'⟩ | ⟨-, hl'⟩
      · rw [hkj, hlj]
      · cases hn
        exact absurd hl' (h.number_ne hspan hfinished l)
      · cases hn'
        exact absurd hk' (h.number_ne hspan hfinished k)
      · exact h.distinct k l n hk' hl'
    · obtain ⟨hcopy, hn⟩ := h.reported n copy hmem
      exact ⟨hcopy, hevolve.of_copy hn⟩
  | count hthread hspan =>
    exact h.mono hevolve (number_of_moved _ (.inl (by rw [hthread]; rfl))) rfl
  | check hthread hspan =>
    refine h.mono hevolve (number_of_moved _ ?_) rfl
    split_ifs
    · exact .inl (by rw [hthread]; rfl)
    · exact .inr rfl
  | @report j i span hthread hspan =>
    have hnumber : (s.thread j).number = some i := by rw [hthread]; rfl
    have hback := number_of_moved (s := s) .idle (j := j) (.inr rfl)
    obtain ⟨⟨span', hspan', hfinished⟩, hnew⟩ := h.thread j i hnumber
    obtain rfl : span = span' := Option.some.inj (hspan.symm.trans hspan')
    have hreported : (s.reported ++ [(i, span)]).map Prod.fst = s.reported.map Prod.fst ++ [i] :=
      List.map_append
    refine ⟨fun k n hk => ?_, fun k l n hk hl => h.distinct k l n (hback k n hk) (hback l n hl), ?_,
      fun n copy hmem => ?_⟩
    · obtain ⟨hn, hmem⟩ := h.thread k n (hback k n hk)
      refine ⟨hn, fun hmem' => ?_⟩
      rw [hreported, List.mem_append, List.mem_singleton] at hmem'
      rcases hmem' with hmem' | rfl
      · exact hmem hmem'
      · -- no other thread is about to report the span
        rcases number_update hk with ⟨-, hidle⟩ | ⟨hne, hk⟩
        · cases hidle
        · exact hne (h.distinct k j n hk hnumber)
    · rw [hreported, List.nodup_append]
      exact ⟨h.nodup, List.nodup_singleton i, fun n hn m hm heq =>
        hnew (List.mem_singleton.mp hm ▸ heq ▸ hn)⟩
    · rcases List.mem_append.mp hmem with hmem | hmem
      · exact h.reported n copy hmem
      · cases List.mem_singleton.mp hmem
        exact ⟨hfinished, span, hspan, .refl span⟩

lemma Reachable.reports (hrun : Reachable config performs s) : Reports s := by
  refine hrun.invariant ⟨fun j i hj => ?_, fun j k i hj => ?_, List.nodup_nil,
    fun i copy hmem => ?_⟩ fun s t hs hstep => hs.step hstep
  · cases hj
  · cases hj
  · cases hmem

/-- Whichever threads finish a span, and set its name, its tags and its baggage or log with it at the
same time: it is reported at most once, after it is finished, with the name, the tags and the
duration that it has for good, and with logs to which more can only be added. -/
theorem reported_of_reachable (hrun : Reachable config performs s) :
    (s.reported.map Prod.fst).Nodup ∧
      ∀ (i : ℕ) (copy : Span π), (i, copy) ∈ s.reported → copy.isFinished = true ∧
        ∃ span, s.spans[i]? = some span ∧ copy.Evolves span :=
  ⟨hrun.reports.nodup, hrun.reports.reported⟩

/-- A span that has been started, finished and reported. -/
lemma exists_reported : ∃ s : System Unit Unit,
    Reachable ⟨.jaeger, default, .little⟩ (fun _ => False) s ∧ s.reported.map Prod.fst = [0] ∧
      (s.metrics ()).spansFinished = 1 := by
  have hstart : Tracer.startSpanWithOptions () false default [] {} = some (_, _) := rfl
  have h₀ : Reachable ⟨.jaeger, default, .little⟩ (fun _ => False) ({} : System Unit Unit) := .refl
  have h₁ := h₀.start (j := ()) rfl (by simp) hstart
  have h₂ := h₁.tail (.finish (j := ()) (i := 0) 0 [] rfl rfl Bool.false_ne_true)
  have h₃ := h₂.tail (.count (j := ()) (i := 0) rfl rfl)
  have h₄ := h₃.tail (.check (j := ()) (i := 0) rfl rfl)
  have h₅ := h₄.tail (.report (j := ()) (i := 0) rfl rfl)
  exact ⟨_, h₅, rfl, rfl⟩

theorem reported_of_reachable_once :
    ∃ s : System Unit Unit, s.reported.map Prod.fst = [0] ∧ (s.reported.map Prod.fst).Nodup ∧
      ∀ (i : ℕ) (copy : Span Unit), (i, copy) ∈ s.reported → copy.isFinished = true ∧
        ∃ span, s.spans[i]? = some span ∧ copy.Evolves span := by
  obtain ⟨s, hrun, hreported, -⟩ := exists_reported
  exact ⟨s, hreported, reported_of_reachable hrun⟩

end System

end Tracing
