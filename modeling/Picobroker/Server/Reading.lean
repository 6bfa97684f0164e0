import Picobroker.Rust.Chunks
import Picobroker.Server.Framing
import Picobroker.Protocol.Packets.RoundTrip

/-! The Tokio server reads packets from a socket whose bytes arrive in chunks. -/
namespace Picobroker
open Rust

variable {T P w : ℕ}

namespace TokioServer

/-- `read_packet` once two bytes are there. The announced length has at most four digits, so the
total stays inside a word. -/
def readFrame (w : ℕ) : Proc Source ProtocolError (Packet T P) := do
  let s ← Proc.get
  let (remainingLen,varLenBytes) ← Proc.call (parseRemainingLength w s.buffer)
  let totalLen := 1+varLenBytes+remainingLen
  let filled ← Source.fill totalLen
  let s ← Proc.get
  Proc.failIf (filled = false) (.incompletePacket s.buffer.length)
  let frame ← slice s.buffer 0 totalLen
  let packet ← Proc.call (Packet.decode w frame)
  Proc.modify (Source.advance totalLen)
  pure packet

/-- `read_packet`. A failed read counts as the end of the stream. -/
def readPacket (w : ℕ) : Proc Source ProtocolError (Option (Packet T P)) := do
  let started ← Source.fill 2
  if started = false then pure none
  else do
    let packet ← readFrame w
    pure (some packet)

/-- Repeated calls return these packets one by one, and then `Ok(None)`. -/
def Delivers (w : ℕ) : List (Packet T P) → Source → Prop
  | [],s => ∃ t, (readPacket w : Proc Source ProtocolError (Option (Packet T P))) s = .ok none t
  | p::ps,s => ∃ t, readPacket w s = .ok (some p) t ∧ Delivers w ps t

end TokioServer

/-- The slice is one frame: behind its length field stand exactly the announced bytes. -/
def IsFrame (w : ℕ) (bytes : Bytes) (r k : ℕ) : Prop :=
  readVariableLength w bytes.tail = .ok (r,k) () ∧ bytes.length = 1+k+r

/-- A chunk ends inside the length field of one of the frames, behind its first byte. -/
def CutsLength (w : ℕ) (s : Source) (frames : List Bytes) : Prop :=
  ∃ before frame after r k n, frames = before ++ frame::after ∧ IsFrame w frame r k ∧
    s.Boundary n ∧ before.flatten.length+2 ≤ n ∧ n ≤ before.flatten.length+k

section Frames

variable {s t : Source} {frame rest : Bytes} {frames : List Bytes} {r k : ℕ}

lemma IsFrame.length_pos (h : IsFrame w frame r k) : 0 < frame.length := by
  rw [h.2]
  omega

lemma IsFrame.unique {r' k' : ℕ} (h : IsFrame w frame r k) (h' : IsFrame w frame r' k') :
    r = r' ∧ k = k' := by
  have hr := h.1.symm.trans h'.1
  rw [Outcome.ok.injEq,Prod.mk.injEq] at hr
  exact hr.1

/-- The length field that a stream starts with. -/
lemma IsFrame.lengthField_tail (hw : 32 ≤ w) (h : IsFrame w frame r k) (rest : Bytes) :
    lengthField (frame ++ rest).tail = .complete r k := by
  have hk := (readVariableLength_eq_ok hw).mp h.1
  obtain ⟨first,tail,rfl⟩ := List.exists_cons_of_length_pos h.length_pos
  rw [List.tail_cons] at hk
  rw [List.cons_append,List.tail_cons,lengthField_append rest (by rw [hk]; simp),hk]

/-- The cut is in the first frame, or in one of the others when the first one is gone. -/
lemma cutsLength_cons (hframe : IsFrame w frame r k)
    (hbound : ∀ n, t.Boundary n ↔ s.Boundary (n+frame.length)) :
    CutsLength w s (frame::frames) ↔
      (∃ n, s.Boundary n ∧ 2 ≤ n ∧ n ≤ k) ∨ CutsLength w t frames := by
  constructor
  · rintro ⟨before,f,after,r',k',n,heq,hf,hn,hlow,hhigh⟩
    cases before with
    | nil =>
      obtain ⟨rfl,rfl⟩ := List.cons.inj heq
      obtain ⟨-,rfl⟩ := hframe.unique hf
      exact .inl ⟨n,hn,by simpa using hlow,by simpa using hhigh⟩
    | cons _ before =>
      obtain ⟨rfl,rfl⟩ := List.cons.inj heq
      rw [List.flatten_cons,List.length_append] at hlow hhigh
      refine .inr ⟨before,f,after,r',k',n-frame.length,rfl,hf,?_,by omega,by omega⟩
      rw [hbound,Nat.sub_add_cancel (by omega)]
      exact hn
  · rintro (⟨n,hn,hlow,hhigh⟩ | ⟨before,f,after,r',k',n,rfl,hf,hn,hlow,hhigh⟩)
    · exact ⟨[],frame,frames,r,k,n,rfl,hframe,hn,by simpa using hlow,by simpa using hhigh⟩
    · refine ⟨frame::before,f,after,r',k',n+frame.length,rfl,hf,(hbound n).mp hn,?_,?_⟩
      · rw [List.flatten_cons,List.length_append]
        omega
      · rw [List.flatten_cons,List.length_append]
        omega

end Frames

namespace TokioServer

section Read

variable {s t : Source} {frame rest : Bytes} {frames : List Bytes} {r k : ℕ} {p : Packet T P}
  {ps : List (Packet T P)}

/-- The buffer shows the length of the frame as soon as it holds the whole length field. -/
lemma parse_whole (hw : 32 ≤ w) (hframe : IsFrame w frame r k) (hs : s.stream = frame ++ rest)
    (h : 1+k ≤ s.buffer.length) : parseRemainingLength w s.buffer = .ok (r,k) () := by
  have hk := hframe.lengthField_tail hw rest
  rw [parseRemainingLength,parseRemainingLengthFrom_eq_ok hw
    (List.ne_nil_of_length_pos (by omega))]
  obtain ⟨first,tail,hb⟩ := List.exists_cons_of_length_pos (show 0 < s.buffer.length by omega)
  rw [← hs,Source.stream,hb,List.cons_append,List.tail_cons] at hk
  rw [hb,List.length_cons] at h
  rw [hb,List.tail_cons]
  have ht := lengthField_take hk (show k ≤ tail.length by omega)
  rwa [List.take_left] at ht

/-- Before that it is refused. -/
lemma parse_cut (hw : 32 ≤ w) (hframe : IsFrame w frame r k) (hs : s.stream = frame ++ rest)
    (hpos : 0 < s.buffer.length) (h : s.buffer.length < 1+k) :
    ∃ e, parseRemainingLength w s.buffer = .err e () := by
  have hk := hframe.lengthField_tail hw rest
  obtain ⟨first,tail,hb⟩ := List.exists_cons_of_length_pos hpos
  rw [← hs,Source.stream,hb,List.cons_append,List.tail_cons] at hk
  rw [hb,List.length_cons] at h
  have hspec := parseRemainingLengthFrom_spec hw first tail
  rw [parseRemainingLength,hb]
  cases hf : lengthField tail with
  | complete v n =>
    have happ := lengthField_append s.chunks.flatten (show lengthField tail ≠ .cut by rw [hf]; simp)
    rw [hk,hf,LengthField.complete.injEq] at happ
    have hn := (lengthField_complete hf).2.2
    omega
  | cut | overlong fifth =>
    simp only [hf] at hspec
    exact hspec

lemma readFrame_cut (hw : 32 ≤ w) (hframe : IsFrame w frame r k) (hs : s.stream = frame ++ rest)
    (hpos : 0 < s.buffer.length) (h : s.buffer.length < 1+k) :
    ∃ e, (readFrame w : Proc Source ProtocolError (Packet T P)) s = .err e s := by
  obtain ⟨e,he⟩ := parse_cut hw hframe hs hpos h
  refine ⟨e,?_⟩
  rw [readFrame,Proc.bind_apply,Proc.get_apply,Outcome.andThen_ok,Proc.bind_apply,Proc.call_apply,he]
  rfl

/-- A visible length field is followed until the frame is there; then the frame is decoded and
consumed. -/
lemma readFrame_whole (hw : 32 ≤ w) (hframe : IsFrame w frame r k)
    (hdecode : Packet.decode w frame = .ok p ()) (hs : s.stream = frame ++ rest)
    (hflow : s.Flowing) (h : 1+k ≤ s.buffer.length) :
    ∃ t, readFrame w s = .ok p t ∧ t.stream = rest ∧ t.Flowing ∧
      ∀ n, t.Boundary n ↔ s.Boundary (n+frame.length) := by
  have hlen : 1+k+r ≤ s.stream.length := by
    rw [hs,List.length_append,hframe.2]
    omega
  obtain ⟨u,hu,hstream,hb,hf,hbound⟩ := Source.fill_reaches (ε := ProtocolError) hflow hlen
  have hcut : (u.buffer.take (1+k+r)).drop 0 = frame := by
    rw [List.drop_zero,Source.take_buffer hb,hstream,hs,← hframe.2,List.take_left]
  refine ⟨u.advance (1+k+r),?_,?_,hf,fun n => ?_⟩
  · rw [readFrame,Proc.bind_apply,Proc.get_apply,Outcome.andThen_ok,Proc.bind_apply,
      Proc.call_apply,parse_whole hw hframe hs h]
    simp only [Outcome.mapState_ok,Outcome.andThen_ok]
    rw [Proc.bind_apply,hu,Outcome.andThen_ok,Proc.bind_apply,Proc.get_apply,Outcome.andThen_ok,
      Proc.bind_apply,Proc.failIf_neg (by simp),Outcome.andThen_ok,Proc.bind_apply,
      slice_eq (Nat.zero_le _) hb,Outcome.andThen_ok,Proc.bind_apply,Proc.call_apply,hcut,hdecode]
    rfl
  · rw [Source.stream_advance hb,hstream,hs,← hframe.2,List.drop_left]
  · rw [Source.boundary_advance hb,hbound,hframe.2]
    exact and_iff_left (Nat.le_add_left _ _)

/-- One call on a stream that starts with an accepted frame: it fails exactly when a chunk ends
inside the length field, and else consumes the frame. -/
lemma readPacket_frame (hw : 32 ≤ w) (hframe : IsFrame w frame r k)
    (hdecode : Packet.decode w frame = .ok p ()) (hs : s.stream = frame ++ rest)
    (hflow : s.Flowing) :
    ((∃ n, s.Boundary n ∧ 2 ≤ n ∧ n ≤ k) ∧ ∃ e t,
        (readPacket w : Proc Source ProtocolError (Option (Packet T P))) s = .err e t) ∨
      (¬ ∃ n, s.Boundary n ∧ 2 ≤ n ∧ n ≤ k) ∧ ∃ t, readPacket w s = .ok (some p) t ∧
        t.stream = rest ∧ t.Flowing ∧ ∀ n, t.Boundary n ↔ s.Boundary (n+frame.length) := by
  have hk := (lengthField_complete (hframe.lengthField_tail hw rest)).2.1
  have hlen : 2 ≤ s.stream.length := by
    rw [hs,List.length_append,hframe.2]
    omega
  obtain ⟨u,hu,hstream,hb,hf,hbound⟩ := Source.fill_reaches (ε := ProtocolError) hflow hlen
  have hstep : (readPacket w : Proc Source ProtocolError (Option (Packet T P))) s =
      (readFrame w u).andThen (fun packet => pure (some packet)) := by
    rw [readPacket,Proc.bind_apply,hu]
    rfl
  rw [hs] at hstream
  by_cases hwhole : 1+k ≤ u.buffer.length
  · refine .inr ⟨?_,?_⟩
    · rintro ⟨n,hn,hlow,hhigh⟩
      have hle := ((hbound n).mpr ⟨hn,hlow⟩).le
      omega
    · obtain ⟨t,ht,hrest,hflow',hbound'⟩ := readFrame_whole hw hframe hdecode hstream hf hwhole
      refine ⟨t,?_,hrest,hflow',fun n => ?_⟩
      · rw [hstep,ht]
        rfl
      · rw [hbound',hbound]
        exact and_iff_left (by rw [hframe.2]; omega)
  · obtain ⟨e,he⟩ := readFrame_cut (T := T) (P := P) hw hframe hstream (by omega)
      (Nat.not_le.mp hwhole)
    have hn := (hbound u.buffer.length).mp u.boundary_buffer
    refine .inl ⟨⟨u.buffer.length,hn.1,hn.2,by omega⟩,e,u,?_⟩
    rw [hstep,he]
    rfl

/-- What the reader returns was accepted by the decoder. -/
lemma decode_of_readPacket (h : readPacket w s = .ok (some p) t) :
    ∃ frame, Packet.decode w frame = .ok p () := by
  obtain ⟨started,s₁,-,h⟩ := Proc.bind_eq_ok.mp h
  split_ifs at h with hstart
  · cases h
  · obtain ⟨packet,s₂,hframe,hpure⟩ := Proc.bind_eq_ok.mp h
    cases hpure
    -- the length field, the rest of the frame, and the slice of it
    obtain ⟨_,_,-,hframe⟩ := Proc.bind_eq_ok.mp hframe
    obtain ⟨_,_,-,hframe⟩ := Proc.bind_eq_ok.mp hframe
    obtain ⟨_,_,-,hframe⟩ := Proc.bind_eq_ok.mp hframe
    obtain ⟨_,_,-,hframe⟩ := Proc.bind_eq_ok.mp hframe
    obtain ⟨_,_,-,hframe⟩ := Proc.bind_eq_ok.mp hframe
    obtain ⟨frame,_,-,hframe⟩ := Proc.bind_eq_ok.mp hframe
    obtain ⟨packet',_,hdecode,hframe⟩ := Proc.bind_eq_ok.mp hframe
    obtain ⟨_,_,-,hpure⟩ := Proc.bind_eq_ok.mp hframe
    cases hpure
    exact ⟨frame,(Proc.call_eq_ok.mp hdecode).1⟩

/-- Behind the last frame the end of the stream is reported. -/
lemma readPacket_end (hflow : s.Flowing) (h : s.stream = []) :
    ∃ t, (readPacket w : Proc Source ProtocolError (Option (Packet T P))) s = .ok none t := by
  have hu := Source.fill_ends (ε := ProtocolError) hflow
    (show s.stream.length < 2 by rw [h]; exact Nat.zero_lt_two)
  exact ⟨_,by rw [readPacket,Proc.bind_apply,hu]; rfl⟩

/-- From any point of a connection on, the packets of the frames are returned in order exactly when
no chunk cuts a length field. -/
lemma delivers_iff (hw : 32 ≤ w) (hflow : s.Flowing)
    (hframes : List.Forall₂ (fun f p => (∃ r k, IsFrame w f r k) ∧ Packet.decode w f = .ok p ())
      frames ps) (hs : s.stream = frames.flatten) :
    Delivers w ps s ↔ ¬ CutsLength w s frames := by
  induction hframes generalizing s with
  | nil =>
    refine iff_of_true (readPacket_end hflow hs) ?_
    rintro ⟨before,_,_,_,_,_,heq,-⟩
    cases before <;> cases heq
  | @cons frame p frames ps hframe hrest ih =>
    obtain ⟨⟨r,k,hf⟩,hdecode⟩ := hframe
    rw [List.flatten_cons] at hs
    obtain ⟨⟨n,hn⟩,e,t,he⟩ | ⟨hno,t,ht,hstream,hflow',hbound⟩ :=
      readPacket_frame hw hf hdecode hs hflow
    · refine iff_of_false ?_ (not_not_intro ?_)
      · rintro ⟨u,hu,-⟩
        rw [he] at hu
        cases hu
      · obtain ⟨hb,hlow,hhigh⟩ := hn
        exact ⟨[],frame,frames,r,k,n,rfl,hf,hb,by simpa using hlow,by simpa using hhigh⟩
    · rw [cutsLength_cons hf hbound,or_iff_right hno,← ih hflow' hstream]
      constructor
      · rintro ⟨u,hu,hps⟩
        rw [ht] at hu
        cases hu
        exact hps
      · intro hps
        exact ⟨t,ht,hps⟩

end Read

/-- Whatever the chunks in which accepted frames arrive, reading them returns their packets in order
and then the end, exactly when no chunk ends inside a length field behind its first byte. -/
theorem delivers_frames_iff (hw : 32 ≤ w) (frames : List Bytes) (packets : List (Packet T P))
    (hframes : List.Forall₂ (fun f p => (∃ r k, IsFrame w f r k) ∧ Packet.decode w f = .ok p ())
      frames packets)
    (chunks : List Bytes) (hne : ∀ chunk ∈ chunks, chunk ≠ [])
    (hcut : chunks.flatten = frames.flatten) :
    Delivers w packets ⟨[],chunks⟩ ↔ ¬ CutsLength w ⟨[],chunks⟩ frames :=
  delivers_iff hw hne hframes hcut

/-- Two PINGREQ frames, the first of them cut behind its first byte. -/
theorem delivers_pings :
    Delivers 64 [(.pingReq {} : Packet 30 128),.pingReq {}] ⟨[],[[0xC0],[0x00,0xC0,0x00]]⟩ := by
  have hping : (∃ r k, IsFrame 64 [0xC0,0x00] r k) ∧
      Packet.decode 64 [0xC0,0x00] = .ok (.pingReq {} : Packet 30 128) () :=
    ⟨⟨0,1,by decide,by decide⟩,by decide⟩
  rw [delivers_frames_iff (by decide) [[0xC0,0x00],[0xC0,0x00]] _ (.cons hping (.cons hping .nil)) _
    (by decide) (by decide)]
  rintro ⟨before,frame,after,r,k,n,heq,hframe,-,hlow,hhigh⟩
  have hmem : frame ∈ [[0xC0,0x00],[0xC0,0x00]] := by
    rw [heq]
    simp
  have hf : frame = [0xC0,0x00] := by simpa using hmem
  subst hf
  obtain ⟨-,rfl⟩ := hframe.unique (show IsFrame 64 [0xC0,0x00] 0 1 from ⟨by decide,by decide⟩)
  omega

/-- A PUBLISH of 131 bytes whose length field arrives in two chunks is refused as incomplete. -/
theorem cut_length_fails : ¬ ∀ (frames : List Bytes) (packets : List (Packet 30 128)),
    List.Forall₂ (fun f p => (∃ r k, IsFrame 64 f r k) ∧ Packet.decode 64 f = .ok p ())
      frames packets →
    ∀ chunks : List Bytes, (∀ chunk ∈ chunks, chunk ≠ []) → chunks.flatten = frames.flatten →
      Delivers 64 packets ⟨[],chunks⟩ := by
  intro h
  have hok : (Packet.decode 64 ([0x30,0x80,0x01,0x00,0x01,0x61] ++ List.replicate 125 0) :
      Outcome Unit ProtocolError (Packet 30 128)).isOk = true := by decide +kernel
  cases hd : (Packet.decode 64 ([0x30,0x80,0x01,0x00,0x01,0x61] ++ List.replicate 125 0) :
      Outcome Unit ProtocolError (Packet 30 128)) with
  | ok p u =>
    have hframe : IsFrame 64 ([0x30,0x80,0x01,0x00,0x01,0x61] ++ List.replicate 125 0) 128 2 :=
      ⟨by decide +kernel,by decide +kernel⟩
    obtain ⟨t,ht,-⟩ := h [[0x30,0x80,0x01,0x00,0x01,0x61] ++ List.replicate 125 0] [p]
      (.cons ⟨⟨128,2,hframe⟩,hd⟩ .nil)
      [[0x30,0x80],[0x01,0x00,0x01,0x61] ++ List.replicate 125 0] (by simp) (by simp)
    cases ht
  | err e u => rw [hd] at hok; cases hok
  | abort why => rw [hd] at hok; cases hok

end TokioServer

end Picobroker
