import Picobroker.Protocol.Utils
import Picobroker.Rust.Utf8

/-! The length-prefixed fields, written at any offset of any buffer and read back. Here the sums of the
room check are those of a `usize` of `w` bits. A write outside the buffer panics, so that behind the
check no sum wraps unnoticed, and what is read back lies inside the buffer. -/
namespace Picobroker
open Rust Rust.Cursor Rust.Reader

variable {o : Overflow} {w : ℕ} {data : Bytes} {c : Cursor}

/-- `write_binary` in a build `o`. -/
def writeBinaryWith (o : Overflow) (w : ℕ) (data : Bytes) : Proc Cursor ProtocolError Unit := do
  let c ← Proc.get
  let start ← o.sum w c.offset 2
  let stop ← o.sum w start data.length
  Proc.failIf (stop > c.buffer.length) (.bufferTooSmall c.buffer.length)
  Cursor.putSlice (toBeBytes (UInt16.ofNat data.length))
  Cursor.putSlice data

/-- `write_string` in a build `o`. -/
def writeStringWith (o : Overflow) (w : ℕ) (s : Bytes) : Proc Cursor ProtocolError Unit :=
  writeBinaryWith o w s

/-- From `c` the data was written into `c'`, where it is read back, and nothing else changed. -/
structure ReadsBack (read : Bytes → Reader ProtocolError Bytes) (data : Bytes) (c c' : Cursor) :
    Prop where
  offset : c'.offset = c.offset+2+data.length
  length : c'.buffer.length = c.buffer.length
  outside : ∀ i, i < c.offset ∨ c'.offset ≤ i → c'.buffer[i]? = c.buffer[i]?
  read : read c'.buffer c.offset = .ok data c'.offset

/-- What is written is read back from where it was written, and a refused write changes nothing. -/
structure RoundTrips (write : Bytes → Proc Cursor ProtocolError Unit)
    (read : Bytes → Reader ProtocolError Bytes) (data : Bytes) (c : Cursor) : Prop where
  ok : ∀ c', write data c = .ok () c' → ReadsBack read data c c'
  err : ∀ e c', write data c = .err e c' → c' = c

/-- Where no sum leaves the word, the check is the one without a word. -/
lemma writeBinaryWith_eq (h : c.offset+2+data.length < 2^w) :
    writeBinaryWith o w data c = writeBinary data c := by
  simp only [writeBinaryWith,writeBinary,Proc.bind_apply,Proc.get_apply,Outcome.andThen_ok]
  rw [o.sum_eq (by omega),Outcome.andThen_ok,Proc.bind_apply,o.sum_eq h,Outcome.andThen_ok]
  rfl

lemma writeBinaryWith_fits (hw : c.buffer.length < 2^w)
    (h : c.offset+2+data.length ≤ c.buffer.length) :
    ∃ c', writeBinaryWith o w data c = .ok () c' ∧ c.Wrote (field data) c' := by
  rw [writeBinaryWith_eq (by omega)]
  apply (fills_writeBinary data).writes.wrote
  rw [field_length]
  omega

/-- The two slices of a field do not both find room. -/
lemma putSlice_putSlice_short {a b : Bytes} (h : c.buffer.length < c.offset+a.length+b.length) :
    ((putSlice a >>= fun _ => putSlice b : Proc Cursor ProtocolError Unit) c) = .abort .panic := by
  rw [Proc.bind_apply]
  by_cases ha : c.offset+a.length ≤ c.buffer.length
  · have hlen : (c.buffer.take c.offset ++ a ++ c.buffer.drop (c.offset+a.length)).length =
        c.buffer.length := by
      simp only [List.length_append,List.length_take,List.length_drop]
      omega
    simp only [putSlice,if_pos ha,Outcome.andThen_ok,hlen]
    exact if_neg (by omega)
  · simp only [putSlice,if_neg ha]
    rfl

/-- Without room the call is refused, or it panics: at a sum that leaves the word, or at the first write
outside the buffer. -/
lemma writeBinaryWith_short (h : c.buffer.length < c.offset+2+data.length) :
    (∃ e, writeBinaryWith o w data c = .err e c) ∨
      writeBinaryWith o w data c = .abort .panic := by
  simp only [writeBinaryWith,Proc.bind_apply,Proc.get_apply,Outcome.andThen_ok]
  obtain ⟨start,hstart⟩ | hstart := o.sum_cases w c.offset 2 c
  · rw [hstart,Outcome.andThen_ok,Proc.bind_apply]
    obtain ⟨stop,hstop⟩ | hstop := o.sum_cases w start data.length c
    · rw [hstop,Outcome.andThen_ok,Proc.bind_apply]
      by_cases hlong : stop > c.buffer.length
      · rw [Proc.failIf_pos hlong]
        exact .inl ⟨_,rfl⟩
      · -- a sum wrapped around and passed the check
        rw [Proc.failIf_neg hlong,Outcome.andThen_ok]
        exact .inr (putSlice_putSlice_short (by rwa [toBeBytes_length]))
    · rw [hstop]
      exact .inr rfl
  · rw [hstart]
    exact .inr rfl

/-- What is read behind a field is the field exactly when the prefix holds its length. -/
lemma readBinary_wrote_iff {c' : Cursor} (hw : c.Wrote (field data) c') :
    readBinary c'.buffer c.offset = .ok data c'.offset ↔ data.length ≤ 65535 := by
  rw [hw.offset]
  constructor
  · intro h
    obtain ⟨enc,⟨-,hlt⟩,-⟩ := decides_readBinary.parses h
    omega
  · intro h
    exact decides_readBinary.reads ⟨rfl,by omega⟩ hw.drop

lemma readString_wrote_iff {c' : Cursor} (hv : validUtf8 data = true)
    (hw : c.Wrote (field data) c') :
    readString c'.buffer c.offset = .ok data c'.offset ↔ data.length ≤ 65535 := by
  rw [hw.offset]
  constructor
  · intro h
    obtain ⟨enc,⟨-,hlt,-⟩,-⟩ := decides_readString.parses h
    omega
  · intro h
    exact decides_readString.reads ⟨rfl,by omega,hv⟩ hw.drop

lemma roundTrips_of_fits {read : Bytes → Reader ProtocolError Bytes} (hw : c.buffer.length < 2^w)
    (hfit : c.offset+2+data.length ≤ c.buffer.length) (hread : ∀ c', c.Wrote (field data) c' →
      (read c'.buffer c.offset = .ok data c'.offset ↔ data.length ≤ 65535)) :
    RoundTrips (writeBinaryWith o w) read data c ↔ data.length ≤ 65535 := by
  obtain ⟨c',hok,hwrote⟩ := writeBinaryWith_fits (o := o) hw hfit
  constructor
  · intro h
    exact (hread c' hwrote).mp (h.ok c' hok).read
  · intro hle
    constructor
    · intro t ht
      rw [hok] at ht
      cases ht
      have hoffset : c'.offset = c.offset+2+data.length := by
        rw [hwrote.offset,field_length,Nat.add_assoc]
      exact ⟨hoffset,hwrote.length,hwrote.outside,(hread c' hwrote).mpr hle⟩
    · intro e t ht
      rw [hok] at ht
      cases ht

lemma roundTrips_of_short {read : Bytes → Reader ProtocolError Bytes}
    (h : c.buffer.length < c.offset+2+data.length) :
    RoundTrips (writeBinaryWith o w) read data c := by
  obtain ⟨e,he⟩ | hpanic := writeBinaryWith_short (o := o) (w := w) h
  · constructor
    · intro t ht
      rw [he] at ht
      cases ht
    · intro e' t ht
      rw [he] at ht
      cases ht
      rfl
  · constructor
    · intro t ht
      rw [hpanic] at ht
      cases ht
    · intro e' t ht
      rw [hpanic] at ht
      cases ht

lemma roundTrips_iff {read : Bytes → Reader ProtocolError Bytes} (hw : c.buffer.length < 2^w)
    (hread : ∀ c', c.Wrote (field data) c' →
      (read c'.buffer c.offset = .ok data c'.offset ↔ data.length ≤ 65535)) :
    RoundTrips (writeBinaryWith o w) read data c ↔
      (c.offset+2+data.length ≤ c.buffer.length → data.length ≤ 65535) := by
  by_cases hfit : c.offset+2+data.length ≤ c.buffer.length
  · rw [roundTrips_of_fits hw hfit hread]
    exact ⟨fun h _ => h,fun h => h hfit⟩
  · exact iff_of_true (roundTrips_of_short (Nat.not_le.mp hfit)) (fun h => absurd h hfit)

/-- At every offset of every buffer, a string and a byte slice round-trip exactly when they find no room
or the prefix holds their length. -/
theorem fields_roundTrip_iff (hw : c.buffer.length < 2^w) (o : Overflow) :
    (∀ s : Str, RoundTrips (writeStringWith o w) readString s.1 c ↔
      (c.offset+2+s.1.length ≤ c.buffer.length → s.1.length ≤ 65535)) ∧
    ∀ data : Bytes, RoundTrips (writeBinaryWith o w) readBinary data c ↔
      (c.offset+2+data.length ≤ c.buffer.length → data.length ≤ 65535) := by
  constructor
  · intro s
    exact roundTrips_iff hw (fun _ => readString_wrote_iff s.2)
  · intro data
    exact roundTrips_iff hw (fun _ => readBinary_wrote_iff)

/-- A letter behind the first byte of a buffer that it fills. -/
theorem fields_roundTrip_letter :
    RoundTrips (writeStringWith .checked 64) readString (Str.letters 1).1 ⟨[7,0,0,0],1⟩ :=
  ((fields_roundTrip_iff (by decide) .checked).1 (Str.letters 1)).mpr (fun _ => by decide)

/-- With one byte more than the prefix counts the field is written, and read back as the empty one. -/
theorem field_not_readBack : ¬ ∀ (s : Str) (c : Cursor), c.buffer.length < 2^64 →
    RoundTrips (writeStringWith .checked 64) readString s.1 c := by
  intro h
  have hlen := Str.letters_length 65536
  have hbuffer : (List.replicate 65538 (0 : UInt8)).length = 65538 := List.length_replicate
  have hround := h (.letters 65536) ⟨List.replicate 65538 0,0⟩ (by rw [hbuffer]; decide)
  have hle := (roundTrips_iff (by rw [hbuffer]; decide)
    (fun _ => readString_wrote_iff (Str.letters 65536).2)).mp hround
  have hfits := hle (by rw [hlen,hbuffer])
  omega

end Picobroker
