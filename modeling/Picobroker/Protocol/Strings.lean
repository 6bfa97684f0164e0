import Picobroker.Protocol.Heapless
import Picobroker.Rust.Runs
import Picobroker.Rust.Utf8

/-! The methods that change a `HeaplessString`. Bytes are copied behind the stored ones and the length
grows by their number, cast to `u8`; `o` says what the build does when that sum leaves a `u8`. -/
namespace Picobroker
open Rust

variable {N : ℕ} {o : Overflow}

namespace HeaplessString

/-- Copy bytes for which there is room behind the stored ones. -/
def store {ε : Type} (o : Overflow) (s : HeaplessString N) (bytes : Bytes)
    (h : s.length+bytes.length ≤ N) : Outcome (HeaplessString N) ε Unit :=
  match hn : o.add 8 s.length (bytes.length%256) with
  | some n => .ok () {
      length := n
      data := s.data.take s.length ++ bytes ++ s.data.drop (s.length+bytes.length)
      data_length := by
        simp [s.data_length]
        omega
      length_le := (Overflow.add_le hn).trans
        ((Nat.add_le_add_left (Nat.mod_le _ _) _).trans h)
      length_lt := Overflow.add_lt hn }
  | none => .abort .panic

/-- The room check and copy that `push` and `push_str` share. -/
def append (o : Overflow) (bytes : Bytes) : Proc (HeaplessString N) PushError Unit := ⟨fun s =>
  if h : s.length+bytes.length ≤ N then s.store o bytes h else .err .pushError s⟩

def push (o : Overflow) (ch : Char) : Proc (HeaplessString N) PushError Unit :=
  append o (String.utf8EncodeChar ch)

def pushStr (o : Overflow) (text : Bytes) : Proc (HeaplessString N) PushError Unit := append o text

lemma zeros_length (N : ℕ) : (List.replicate N (0 : UInt8)).length = N := List.length_replicate

lemma zero_lt_u8 : 0 < 256 := by decide

def clear (_ : HeaplessString N) : HeaplessString N where
  length := 0
  data := List.replicate N 0
  data_length := zeros_length N
  length_le := Nat.zero_le N
  length_lt := zero_lt_u8

/-- The writer takes as many bytes as there is room for. -/
def toCopy (s : HeaplessString N) (text : Bytes) : ℕ := min text.length (N-s.length)

/-- It always returns `Ok`. -/
def writeStr {ε : Type} (o : Overflow) (text : Bytes) : Proc (HeaplessString N) ε Unit := ⟨fun s =>
  s.store o (text.take (s.toCopy text)) (by
    have := s.length_le
    rw [List.length_take,toCopy]
    omega)⟩

def writeChar {ε : Type} (o : Overflow) (c : Char) : Proc (HeaplessString N) ε Unit :=
  writeStr o (String.utf8EncodeChar c)

/-- The bytes behind the stored ones. -/
def padding (s : HeaplessString N) : Bytes := s.data.drop s.length

lemma bytes_append_padding (s : HeaplessString N) : s.bytes ++ s.padding = s.data :=
  List.take_append_drop s.length s.data

section Store

variable {ε : Type} {s t : HeaplessString N} {bytes : Bytes}

lemma store_of_some {n : ℕ} (h : s.length+bytes.length ≤ N)
    (hn : o.add 8 s.length (bytes.length%256) = some n) :
    ∃ t, (s.store o bytes h : Outcome _ ε Unit) = .ok () t ∧ t.length = n ∧
      t.data = s.bytes ++ bytes ++ s.padding.drop bytes.length := by
  have hdrop : s.data.drop (s.length+bytes.length) = s.padding.drop bytes.length := by
    rw [padding,List.drop_drop]
  unfold store
  split
  · rename_i m hm
    rw [hn] at hm
    cases hm
    refine ⟨_,rfl,rfl,?_⟩
    rw [← hdrop]
    rfl
  · rename_i hnone
    rw [hn] at hnone
    cases hnone

lemma store_of_none (h : s.length+bytes.length ≤ N)
    (hn : o.add 8 s.length (bytes.length%256) = none) :
    (s.store o bytes h : Outcome _ ε Unit) = .abort .panic := by
  unfold store
  split
  · rename_i m hm
    rw [hn] at hm
    cases hm
  · rfl

/-- A new length that fits into a `u8` takes all of the bytes. -/
lemma store_fits (h : s.length+bytes.length ≤ N) (hu8 : s.length+bytes.length < 256) :
    ∃ t, (s.store o bytes h : Outcome _ ε Unit) = .ok () t ∧ t.bytes = s.bytes ++ bytes ∧
      t.padding = s.padding.drop bytes.length := by
  have hm : bytes.length%256 = bytes.length := Nat.mod_eq_of_lt (by omega)
  have hn : o.add 8 s.length (bytes.length%256) = some (s.length+bytes.length) := by
    rw [hm]
    exact o.add_eq (by omega)
  obtain ⟨t,ht,hlen,hdata⟩ := store_of_some (ε := ε) h hn
  have hl : (s.bytes ++ bytes).length = t.length := by
    rw [List.length_append,s.bytes_length,hlen]
  refine ⟨t,ht,?_,?_⟩
  · rw [HeaplessString.bytes,hdata]
    exact List.take_left' hl
  · rw [padding,hdata]
    exact List.drop_left' hl

end Store

/-- The bytes behind the stored ones are zero, as those of a new string are. -/
def Blank (s : HeaplessString N) : Prop := ∀ b ∈ s.padding, b = 0

lemma bytes_new : (new : HeaplessString N).bytes = [] := rfl

lemma utf8_new : (new : HeaplessString N).Utf8 := validUtf8_nil

lemma blank_new : (new : HeaplessString N).Blank := by
  intro b hb
  have hmem : b ∈ List.replicate N 0 := List.mem_of_mem_drop hb
  exact List.eq_of_mem_replicate hmem

lemma Blank.of_drop {s t : HeaplessString N} {k : ℕ} (hs : s.Blank)
    (h : t.padding = s.padding.drop k) : t.Blank := by
  intro b hb
  rw [h] at hb
  exact hs b (List.mem_of_mem_drop hb)

lemma blank_of_tryFrom (hN : N ≤ 255) {value : Bytes} {s : HeaplessString N}
    (h : tryFrom value = some s) : s.Blank := by
  by_cases hv : value.length ≤ N
  · rw [tryFrom,dif_pos hv] at h
    cases h
    intro b hb
    have hm : value.length%256 = value.length := Nat.mod_eq_of_lt (by omega)
    simp only [padding,hm,List.drop_left] at hb
    exact List.eq_of_mem_replicate hb
  · rw [tryFrom,dif_neg hv] at h
    cases h

/-- The ways to change a string. -/
inductive Call
  | new
  | default
  | tryFrom (value : Str)
  | push (ch : Char)
  | pushStr (text : Str)
  | clear
  | writeStr (text : Str)
  | writeChar (c : Char)

/-- The text that a call hands to the writer. -/
def Call.written : Call → Option Str
  | .writeStr text => some text
  | .writeChar c => some (.ofChar c)
  | _ => none

/-- A failed `try_from` leaves the old value in place. -/
def call (o : Overflow) : Call → Proc (HeaplessString N) PushError Unit
  | .new => Proc.modify (fun _ => .new)
  | .default => Proc.modify (fun _ => Inhabited.default)
  | .tryFrom value => ⟨fun s =>
    match HeaplessString.tryFrom value.1 with
    | some t => .ok () t
    | none => .err .pushError s⟩
  | .push ch => push o ch
  | .pushStr text => pushStr o text.1
  | .clear => Proc.modify clear
  | .writeStr text => writeStr o text.1
  | .writeChar c => writeChar o c

/-- The string after a call that does not panic. -/
def next (o : Overflow) (s : HeaplessString N) (c : Call) : Option (HeaplessString N) :=
  (call o c s).state?

/-- What a call can do. -/
inductive Effect (s : HeaplessString N) (c : Call) : HeaplessString N → Prop
  | kept (hw : c.written = none) : Effect s c s
  | built {t : HeaplessString N} (hw : c.written = none) (text : Str) (hbytes : t.bytes = text.1)
      (hblank : t.Blank) : Effect s c t
  | appended {t : HeaplessString N} (hw : c.written = none) (text : Str)
      (hbytes : t.bytes = s.bytes ++ text.1)
      (hpadding : t.padding = s.padding.drop text.1.length) : Effect s c t
  | wrote {t : HeaplessString N} (text : Str) (hw : c.written = some text)
      (hbytes : t.bytes = s.bytes ++ text.1.take (s.toCopy text.1))
      (hpadding : t.padding = s.padding.drop (s.toCopy text.1)) : Effect s c t

section Effect

variable {s t : HeaplessString N} {c : Call}

lemma append_effect (hN : N ≤ 255) (hw : c.written = none) (text : Str) :
    ∃ t, (append o text.1 s).state? = some t ∧ Effect s c t := by
  by_cases h : s.length+text.1.length ≤ N
  · obtain ⟨t,ht,hb,hp⟩ := store_fits (o := o) (ε := PushError) h (by omega)
    refine ⟨t,?_,.appended hw text hb hp⟩
    simp only [append,dif_pos h,ht,Outcome.state?_ok]
  · refine ⟨s,?_,.kept hw⟩
    simp only [append,dif_neg h,Outcome.state?_err]

lemma toCopy_le (s : HeaplessString N) (text : Bytes) : s.toCopy text ≤ text.length :=
  Nat.min_le_left _ _

lemma writeStr_effect (hN : N ≤ 255) (text : Str) (hw : c.written = some text) :
    ∃ t, (writeStr (ε := PushError) o text.1 s).state? = some t ∧ Effect s c t := by
  have hlen : (text.1.take (s.toCopy text.1)).length = s.toCopy text.1 := by
    rw [List.length_take]
    exact Nat.min_eq_left (s.toCopy_le text.1)
  have hle := s.length_le
  have h : s.length+(text.1.take (s.toCopy text.1)).length ≤ N := by
    rw [hlen,toCopy]
    omega
  obtain ⟨t,ht,hb,hp⟩ := store_fits (o := o) (ε := PushError) h (by omega)
  rw [hlen] at hp
  refine ⟨t,?_,.wrote text hw hb hp⟩
  simp only [writeStr,ht,Outcome.state?_ok]

/-- Up to a capacity that the `u8` can count no call panics. -/
lemma next_effect (hN : N ≤ 255) (o : Overflow) (s : HeaplessString N) (c : Call) :
    ∃ t, next o s c = some t ∧ Effect s c t := by
  cases c with
  | new => exact ⟨_,rfl,.built rfl ⟨[],validUtf8_nil⟩ bytes_new blank_new⟩
  | default => exact ⟨_,rfl,.built rfl ⟨[],validUtf8_nil⟩ bytes_new blank_new⟩
  | tryFrom value =>
    simp only [next,call]
    cases ht : (HeaplessString.tryFrom value.1 : Option (HeaplessString N)) with
    | some t => exact ⟨t,rfl,.built rfl value (bytes_of_tryFrom hN ht) (blank_of_tryFrom hN ht)⟩
    | none => exact ⟨s,rfl,.kept rfl⟩
  | push ch => exact append_effect hN rfl (.ofChar ch)
  | pushStr text => exact append_effect hN rfl text
  | clear => exact ⟨_,rfl,.built rfl ⟨[],validUtf8_nil⟩ bytes_new blank_new⟩
  | writeStr text => exact writeStr_effect hN text rfl
  | writeChar c => exact writeStr_effect hN (.ofChar c) rfl

lemma effect_of_next (hN : N ≤ 255) (h : next o s c = some t) : Effect s c t := by
  obtain ⟨u,hu,heffect⟩ := next_effect hN o s c
  rw [hu] at h
  exact Option.some.inj h ▸ heffect

lemma exec_returns (hN : N ≤ 255) (o : Overflow) (calls : List Call) (s : HeaplessString N) :
    ∃ t, exec (next o) s calls = some t := by
  induction calls generalizing s with
  | nil => exact ⟨s,rfl⟩
  | cons c calls ih =>
    obtain ⟨t,ht,-⟩ := next_effect hN o s c
    rw [exec,ht]
    exact ih t

end Effect

section Text

variable {s t : HeaplessString N} {c : Call}

/-- Where the writer has room for a part of its text only, the part ends with a whole character. -/
def Whole (s : HeaplessString N) (c : Call) : Prop :=
  ∀ text ∈ c.written, IsCharBoundary text.1 (min text.1.length (N-s.length))

instance (s : HeaplessString N) (c : Call) : Decidable (s.Whole c) :=
  inferInstanceAs (Decidable (∀ text ∈ c.written, _))

lemma whole_of_none (hw : c.written = none) : s.Whole c := by
  intro text htext
  rw [hw] at htext
  cases htext

/-- From text a call leads to text exactly when it does not cut a character. -/
lemma next_utf8_iff (hN : N ≤ 255) (hs : s.Utf8) (h : next o s c = some t) :
    t.Utf8 ↔ s.Whole c := by
  cases effect_of_next hN h with
  | kept hw => exact iff_of_true hs (whole_of_none hw)
  | built hw text hbytes hblank =>
    apply iff_of_true _ (whole_of_none hw)
    rw [Utf8,hbytes]
    exact text.2
  | appended hw text hbytes hpadding =>
    apply iff_of_true _ (whole_of_none hw)
    rw [Utf8,hbytes]
    exact validUtf8_append hs text.2
  | wrote text hw hbytes hpadding =>
    rw [Utf8,hbytes,validUtf8_append_iff hs,validUtf8_take text.2 (s.toCopy_le text.1),Whole,hw]
    simp [toCopy]

/-- What is not text reads as the empty string, but its length is not zero. -/
lemma asStr_length_eq_iff : s.asStr.length = s.len ↔ s.Utf8 := by
  constructor
  · intro h
    by_contra hu
    have hnil : s.asStr = [] := if_neg hu
    rw [hnil,List.length_nil,len] at h
    have hbytes : s.bytes = [] := List.eq_nil_of_length_eq_zero (by rw [bytes_length,← h])
    rw [Utf8,hbytes] at hu
    exact hu validUtf8_nil
  · intro hu
    rw [asStr_eq hu,bytes_length,len]

end Text

/-- Every sequence of calls returns. The string holds whole text in all of the states it passes through,
and reads as many bytes as it counts, exactly when no write cuts a character. -/
theorem holds_text_iff (hN : N ≤ 255) (o : Overflow) (calls : List Call) :
    ∃ t, exec (next o) (new : HeaplessString N) calls = some t ∧
      ((∀ u ∈ visited (trace (next o) new calls) t, u.Utf8 ∧ u.asStr.length = u.len) ↔
        ∀ e ∈ trace (next o) (new : HeaplessString N) calls, e.1.Whole e.2) := by
  obtain ⟨t,ht⟩ := exec_returns hN o calls new
  refine ⟨t,ht,?_⟩
  simp only [asStr_length_eq_iff,and_self]
  exact (run_trace ht).visited_iff (fun _ _ _ => next_utf8_iff hN) utf8_new

/-- An accented letter, of two bytes. -/
def accented : Str := ⟨[0xC3,0xA9],by decide⟩

/-- The letter is written into a capacity of two, and a second one finds no room at all. -/
theorem holds_text_iff_two :
    ∃ t, exec (next .checked) (new : HeaplessString 2) [.writeStr accented,.writeStr accented] = some t ∧
      ((∀ u ∈ visited (trace (next .checked) new [.writeStr accented,.writeStr accented]) t,
          u.Utf8 ∧ u.asStr.length = u.len) ↔
        ∀ e ∈ trace (next .checked) (new : HeaplessString 2) [.writeStr accented,.writeStr accented],
          e.1.Whole e.2) :=
  holds_text_iff (by decide) .checked [.writeStr accented,.writeStr accented]

/-- Into a capacity of one only the first byte of the letter is written. -/
theorem writeStr_cuts_character : ¬ ∀ (N : ℕ) (o : Overflow) (calls : List Call)
    (t : HeaplessString N), N ≤ 255 → exec (next o) new calls = some t →
      t.Utf8 ∧ t.asStr.length = t.len := by
  intro h
  have hcut := h 1 .checked [.writeStr accented] _ (by decide) rfl
  exact absurd hcut (by decide)

end HeaplessString

end Picobroker
