import Picobroker.Rust.Word

/-! A buffer in front of a source that delivers its bytes in chunks: where the chunks end decides how
much a reader sees at a time. -/
namespace Rust

variable {ε : Type}

/-- What was received and not yet consumed, and the chunks still to come. -/
structure Source where
  buffer : Bytes
  chunks : List Bytes
  deriving DecidableEq, Repr

namespace Source

/-- All bytes that are not consumed. -/
def stream (s : Source) : Bytes := s.buffer ++ s.chunks.flatten

/-- `while buffer.len() < target { if read_buf(buffer) == 0 { break } }`: each read appends the next
chunk and returns its length, and 0 behind the last one. The result says whether the target was
reached. -/
def fillLoop (target : ℕ) : (chunks : List Bytes) → (buffer : Bytes) → Bool × Source
  | [],buffer => (decide (target ≤ buffer.length),⟨buffer,[]⟩)
  | chunk::chunks,buffer =>
    if target ≤ buffer.length then (true,⟨buffer,chunk::chunks⟩)
    else if chunk.length = 0 then (false,⟨buffer,chunks⟩)
    else fillLoop target chunks (buffer ++ chunk)

def fill (target : ℕ) : Proc Source ε Bool :=
  ⟨fun s => .ok (fillLoop target s.chunks s.buffer).1 (fillLoop target s.chunks s.buffer).2⟩

lemma fill_apply (target : ℕ) (s : Source) : (fill target : Proc Source ε Bool) s =
    .ok (fillLoop target s.chunks s.buffer).1 (fillLoop target s.chunks s.buffer).2 := rfl

/-- `buffer.advance(n)`. -/
def advance (n : ℕ) (s : Source) : Source := ⟨s.buffer.drop n,s.chunks⟩

/-- The ends of what was and what will be received, counted from the first byte not consumed. -/
def Boundary (s : Source) (n : ℕ) : Prop :=
  ∃ before after, s.chunks = before ++ after ∧ n = s.buffer.length+before.flatten.length

/-- No read returns 0 before the end. -/
def Flowing (s : Source) : Prop := ∀ chunk ∈ s.chunks, chunk ≠ []

variable {s : Source} {buffer chunk : Bytes} {chunks : List Bytes} {n target : ℕ}

lemma boundary_buffer (s : Source) : s.Boundary s.buffer.length := ⟨[],s.chunks,rfl,by simp⟩

lemma Boundary.le (h : s.Boundary n) : s.buffer.length ≤ n := by
  obtain ⟨before,_,-,rfl⟩ := h
  exact Nat.le_add_right _ _

lemma boundary_nil : Boundary ⟨buffer,[]⟩ n ↔ n = buffer.length := by
  constructor
  · rintro ⟨before,after,h,rfl⟩
    obtain ⟨rfl,rfl⟩ := List.append_eq_nil_iff.mp h.symm
    simp
  · rintro rfl
    exact boundary_buffer _

/-- The first boundary is the end of the buffer, the others are those behind the next chunk. -/
lemma boundary_cons :
    Boundary ⟨buffer,chunk::chunks⟩ n ↔ n = buffer.length ∨ Boundary ⟨buffer ++ chunk,chunks⟩ n := by
  constructor
  · rintro ⟨before,after,h,rfl⟩
    cases before with
    | nil => exact .inl (by simp)
    | cons c before =>
      obtain ⟨rfl,rfl⟩ := List.cons.inj h
      refine .inr ⟨before,after,rfl,?_⟩
      simp [Nat.add_assoc]
  · rintro (rfl | ⟨before,after,rfl,rfl⟩)
    · exact boundary_buffer _
    · exact ⟨chunk::before,after,rfl,by simp [Nat.add_assoc]⟩

/-- Consuming bytes of the buffer only moves the origin. -/
lemma boundary_advance {m : ℕ} (h : m ≤ s.buffer.length) :
    (s.advance m).Boundary n ↔ s.Boundary (n+m) := by
  unfold Boundary advance
  simp only [List.length_drop]
  constructor
  · rintro ⟨before,after,hc,rfl⟩
    exact ⟨before,after,hc,by omega⟩
  · rintro ⟨before,after,hc,hn⟩
    exact ⟨before,after,hc,by omega⟩

/-- With enough to come the loop reaches its target, and stops at the first boundary there. -/
lemma fillLoop_reaches (hflow : ∀ c ∈ chunks, c ≠ [])
    (h : target ≤ (buffer ++ chunks.flatten).length) :
    ∃ s : Source, fillLoop target chunks buffer = (true,s) ∧ s.stream = buffer ++ chunks.flatten ∧
      target ≤ s.buffer.length ∧ s.Flowing ∧
      ∀ n, s.Boundary n ↔ Boundary ⟨buffer,chunks⟩ n ∧ target ≤ n := by
  induction chunks generalizing buffer with
  | nil =>
    have hle : target ≤ buffer.length := by simpa using h
    refine ⟨⟨buffer,[]⟩,?_,rfl,hle,fun c hc => absurd hc List.not_mem_nil,fun n => ?_⟩
    · rw [fillLoop,decide_eq_true hle]
    · rw [boundary_nil]
      constructor
      · rintro rfl
        exact ⟨rfl,hle⟩
      · exact fun hn => hn.1
  | cons chunk chunks ih =>
    by_cases hle : target ≤ buffer.length
    · refine ⟨⟨buffer,chunk::chunks⟩,?_,rfl,hle,hflow,fun n => ?_⟩
      · rw [fillLoop,if_pos hle]
      · constructor
        · exact fun hn => ⟨hn,hle.trans hn.le⟩
        · exact fun hn => hn.1
    · have hne : chunk.length ≠ 0 := by
        rw [ne_eq,List.length_eq_zero_iff]
        exact hflow chunk List.mem_cons_self
      have happ : (buffer ++ chunk) ++ chunks.flatten = buffer ++ (chunk::chunks).flatten := by
        simp
      obtain ⟨s,hs,hstream,hb,hf,hbound⟩ := ih
        (fun c hc => hflow c (List.mem_cons_of_mem chunk hc)) (by rwa [happ])
      refine ⟨s,?_,hstream.trans happ,hb,hf,fun n => ?_⟩
      · rw [fillLoop,if_neg hle,if_neg hne,hs]
      · rw [hbound,boundary_cons]
        constructor
        · exact fun hn => ⟨.inr hn.1,hn.2⟩
        · rintro ⟨rfl | hn,ht⟩
          · exact absurd ht hle
          · exact ⟨hn,ht⟩

/-- Without enough to come the loop reads everything and reports the end. -/
lemma fillLoop_ends (hflow : ∀ c ∈ chunks, c ≠ [])
    (h : (buffer ++ chunks.flatten).length < target) :
    fillLoop target chunks buffer = (false,⟨buffer ++ chunks.flatten,[]⟩) := by
  induction chunks generalizing buffer with
  | nil =>
    have hlt : ¬ target ≤ buffer.length := by simpa using h
    rw [fillLoop,decide_eq_false hlt]
    simp
  | cons chunk chunks ih =>
    have happ : (buffer ++ chunk) ++ chunks.flatten = buffer ++ (chunk::chunks).flatten := by
      simp
    have hlt : ¬ target ≤ buffer.length := by
      rw [List.length_append] at h
      omega
    have hne : chunk.length ≠ 0 := by
      rw [ne_eq,List.length_eq_zero_iff]
      exact hflow chunk List.mem_cons_self
    rw [fillLoop,if_neg hlt,if_neg hne,
      ih (fun c hc => hflow c (List.mem_cons_of_mem chunk hc)) (by rwa [happ]),happ]

lemma fill_reaches (hflow : s.Flowing) (h : target ≤ s.stream.length) :
    ∃ t : Source, (fill target : Proc Source ε Bool) s = .ok true t ∧ t.stream = s.stream ∧
      target ≤ t.buffer.length ∧ t.Flowing ∧ ∀ n, t.Boundary n ↔ s.Boundary n ∧ target ≤ n := by
  obtain ⟨t,ht,hstream,hb,hf,hbound⟩ := fillLoop_reaches hflow h
  refine ⟨t,?_,hstream,hb,hf,hbound⟩
  rw [fill_apply,ht]

lemma fill_ends (hflow : s.Flowing) (h : s.stream.length < target) :
    (fill target : Proc Source ε Bool) s = .ok false ⟨s.stream,[]⟩ := by
  rw [fill_apply,fillLoop_ends hflow h]
  rfl

/-- The buffer holds the beginning of the stream. -/
lemma take_buffer (h : n ≤ s.buffer.length) : s.buffer.take n = s.stream.take n := by
  rw [stream,List.take_append_of_le_length h]

lemma stream_advance (h : n ≤ s.buffer.length) : (s.advance n).stream = s.stream.drop n := by
  rw [stream,advance,stream,List.drop_append_of_le_length h]

end Source

end Rust
