import CppArchitecture.Core.Streams

/-!
# Streams that end too early

A reader gets only a part of the bytes it is made for. It has then tried to read beyond the last of
them, so that the stream is good no more, and no reading after it makes it good again.
-/

namespace Core

variable {A ε α β : Type}

/-- A stream that has ended. -/
def ended : IStream A := ⟨[], false⟩

/-- Where the stream brings a part of the bytes only, it has ended after the reading, if that has
come to a value at all. -/
def EndsEarly (reader : EStateM ε (IStream A) α) (bytes : List A) : Prop :=
  ∀ p q, p ++ q = bytes → q ≠ [] → ∀ a t, reader.run ⟨p, true⟩ = .ok a t → t = ended

/-- What is read from a stream that has ended leaves it so. -/
def StaysEnded (reader : EStateM ε (IStream A) α) : Prop :=
  ∀ a t, reader.run ended = .ok a t → t = ended

variable {reader : EStateM ε (IStream A) α} {f : α → EStateM ε (IStream A) β}
  {bytes bytes' : List A} {a : α}

lemma StaysEnded.bind (h : StaysEnded reader) (hf : ∀ a, StaysEnded (f a)) :
    StaysEnded (reader >>= f) := by
  intro b t hrun
  obtain ⟨a, u, ha, hb⟩ := run_bind_eq_ok.mp hrun
  rw [h a u ha] at hb
  exact hf a b t hb

lemma StaysEnded.pure (a : α) : StaysEnded (pure a : EStateM ε (IStream A) α) := by
  intro b t hrun
  cases hrun
  rfl

lemma StaysEnded.throw (e : ε) : StaysEnded (throw e : EStateM ε (IStream A) α) := by
  intro b t hrun
  cases hrun

lemma StaysEnded.read (count : ℕ) :
    StaysEnded (modifyGet (IStream.read count) : EStateM ε (IStream A) (List A)) := by
  intro b t hrun
  cases hrun
  rfl

lemma EndsEarly.bind (h : EndsEarly reader bytes) (hf : ∀ a, StaysEnded (f a)) :
    EndsEarly (reader >>= f) bytes := by
  intro p q hpq hq b t hrun
  obtain ⟨a, u, ha, hb⟩ := run_bind_eq_ok.mp hrun
  rw [h p q hpq hq a u ha] at hb
  exact hf a b t hb

/-- The reading goes on behind the bytes of its first part. -/
lemma EndsEarly.append (h : EndsEarly reader bytes) (hf : ∀ a, StaysEnded (f a))
    (hread : ∀ r, reader.run ⟨bytes ++ r, true⟩ = .ok a ⟨r, true⟩)
    (h' : EndsEarly (f a) bytes') : EndsEarly (reader >>= f) (bytes ++ bytes') := by
  intro p q hpq hq b t hrun
  rcases List.append_eq_append_iff.mp hpq with ⟨c, hbytes, hc⟩ | ⟨c, hp, hc⟩
  · by_cases hnil : c = []
    · subst hnil
      rw [List.append_nil] at hbytes
      rw [← hbytes, ← List.append_nil bytes, run_bind_of_ok (hread [])] at hrun
      exact h' [] q hc hq b t hrun
    · exact h.bind hf p c hbytes.symm hnil b t hrun
  · rw [hp, run_bind_of_ok (hread c)] at hrun
    exact h' c q hc.symm hq b t hrun

lemma endsEarly_read :
    EndsEarly (modifyGet (IStream.read bytes.length) : EStateM ε (IStream A) (List A)) bytes := by
  intro p q hpq hq a t hrun
  have hlt : p.length < bytes.length := by
    have hpos := List.length_pos_iff.mpr hq
    rw [← hpq, List.length_append]
    omega
  have hread := run_modifyGet_eq_ok.mp hrun
  rw [IStream.read_of_lt hlt] at hread
  cases hread
  rfl

end Core
