import Picobroker.Protocol.Strings
import Picobroker.Protocol.Packets.Publish

/-! What the containers store of what they accept, at every capacity. The room is counted in `usize`,
the length in a `u8` or a `u16`, so that above 255 and 65535 an accepted input may be cut. -/
namespace Picobroker
open Rust

variable {α : Type} {N T P : ℕ} {o : Overflow}

namespace HeaplessString

/-- `n` bytes more find room, and the build does not panic at the sum. -/
def Accepts (o : Overflow) (s : HeaplessString N) (n : ℕ) : Prop :=
  s.length+n ≤ N ∧ (o = .checked → s.length+n%256 < 256)

/-- What is visible after an accepted call is what was visible before, and the whole text behind it. -/
def AppendsText (p : Proc (HeaplessString N) PushError Unit) (s : HeaplessString N) (text : Bytes) :
    Prop :=
  ∀ t, p s = .ok () t → t.asStr = s.asStr ++ text ∧ t.len = s.len+text.length

section Append

variable {s t : HeaplessString N} {text : Bytes} {u : Unit}

lemma accepts_iff : s.Accepts o text.length ↔ ∃ t, append o text s = .ok () t := by
  by_cases h : s.length+text.length ≤ N
  · have happend : append o text s = s.store o text h := dif_pos h
    have hsum : (o = .checked → s.length+text.length%256 < 256) ↔
        (o.add 8 s.length (text.length%256)).isSome = true :=
      (Overflow.add_isSome_iff (w := 8)).symm
    rw [Accepts,and_iff_right h,hsum,happend]
    cases hn : o.add 8 s.length (text.length%256) with
    | some n =>
      obtain ⟨t,ht,-⟩ := store_of_some (ε := PushError) h hn
      exact iff_of_true rfl ⟨t,ht⟩
    | none =>
      rw [store_of_none h hn]
      simp
  · have happend : append o text s = .err .pushError s := dif_neg h
    rw [Accepts,happend]
    simp [h]

/-- The length grows by the length of the text exactly when the sum fits into a `u8`. -/
lemma length_of_append (h : append o text s = .ok u t) :
    t.length = s.length+text.length ↔ s.length+text.length < 256 := by
  simp only [append] at h
  split_ifs at h with hfit
  cases hn : o.add 8 s.length (text.length%256) with
  | some n =>
    obtain ⟨t',ht,hlen,-⟩ := store_of_some (ε := PushError) hfit hn
    rw [ht] at h
    cases h
    rw [hlen]
    exact Overflow.add_mod_eq_iff hn
  | none =>
    rw [store_of_none hfit hn] at h
    cases h

lemma bytes_of_append (hlt : s.length+text.length < 256) (h : append o text s = .ok u t) :
    t.bytes = s.bytes ++ text := by
  simp only [append] at h
  split_ifs at h with hfit
  obtain ⟨t',ht,hb,-⟩ := store_fits (o := o) (ε := PushError) hfit hlt
  rw [ht] at h
  cases h
  exact hb

/-- Behind bytes that are no text nothing becomes visible. -/
lemma asStr_append_iff (hb : t.bytes = s.bytes ++ text) (hv : validUtf8 text = true) :
    t.asStr = s.asStr ++ text ↔ s.Utf8 ∨ text = [] := by
  by_cases hs : s.Utf8
  · have ht : t.Utf8 := by
      rw [Utf8,hb]
      exact validUtf8_append hs hv
    rw [asStr_eq hs,asStr_eq ht,hb]
    exact iff_of_true rfl (.inl hs)
  · have hnil : s.asStr = [] := if_neg hs
    rw [hnil,List.nil_append,or_iff_right hs]
    constructor
    · -- the bytes before the text are not empty, so the text alone cannot be what is visible
      intro h
      by_contra hne
      have hne' : s.bytes ≠ [] := by
        intro hc
        rw [Utf8,hc] at hs
        exact hs validUtf8_nil
      by_cases ht : t.Utf8
      · rw [asStr_eq ht,hb,List.append_left_eq_self] at h
        exact hne' h
      · rw [show t.asStr = [] from if_neg ht] at h
        exact hne h.symm
    · intro h
      have ht : ¬ t.Utf8 := by rwa [Utf8,hb,h,List.append_nil]
      rw [h]
      exact if_neg ht

lemma appendsText_iff (hv : validUtf8 text = true) : AppendsText (append o text) s text ↔
    (s.Accepts o text.length → s.length+text.length ≤ 255 ∧ (s.Utf8 ∨ text = [])) := by
  rw [accepts_iff]
  constructor
  · rintro h ⟨t,ht⟩
    obtain ⟨hstr,hlen⟩ := h t ht
    have hlt := (length_of_append ht).mp hlen
    exact ⟨by omega,(asStr_append_iff (bytes_of_append hlt ht) hv).mp hstr⟩
  · intro h t ht
    obtain ⟨hle,hutf8⟩ := h ⟨t,ht⟩
    have hlt : s.length+text.length < 256 := by omega
    exact ⟨(asStr_append_iff (bytes_of_append hlt ht) hv).mpr hutf8,(length_of_append ht).mpr hlt⟩

end Append

lemma tryFrom_isSome_iff {value : Bytes} :
    (tryFrom value : Option (HeaplessString N)).isSome = true ↔ value.length ≤ N := by
  unfold tryFrom
  split_ifs with h <;> simp [h]

/-- A copied text is visible as a whole exactly when a `u8` counts it. -/
lemma tryFrom_whole_iff {value : Bytes} {s : HeaplessString N} (hv : validUtf8 value = true)
    (h : tryFrom value = some s) :
    (s.asStr = value ∧ s.len = value.length) ↔ value.length ≤ 255 := by
  unfold tryFrom at h
  split_ifs at h with hN
  cases h
  constructor
  · rintro ⟨-,hlen⟩
    have hlt : value.length%256 < 256 := Nat.mod_lt _ (by decide)
    simp only [len] at hlen
    omega
  · intro hle
    have hm : value.length%256 = value.length := Nat.mod_eq_of_lt (by omega)
    simp only [asStr,bytes,len,hm,List.take_left,hv,if_true,and_self]

end HeaplessString

namespace HeaplessVec

lemma set_length (v : HeaplessVec α N) (item : α) : (v.data.set v.length item).length = N := by
  rw [List.length_set,v.data_length]

lemma written_length (v : HeaplessVec α N) (items : List α) :
    (writeFrom v.data v.length items).length = N := by
  rw [writeFrom_length,v.data_length]

/-- `push` in a build `o`. -/
def pushWith (o : Overflow) (item : α) : Proc (HeaplessVec α N) PushError Unit := ⟨fun v =>
  if h : v.length < N then
    match hn : o.add 16 v.length 1 with
    | some n => .ok () {
        length := n
        data := v.data.set v.length item
        data_length := v.set_length item
        length_le := (Overflow.add_le hn).trans h
        length_lt := Overflow.add_lt hn }
    | none => .abort .panic
  else .err .pushError v⟩

/-- `extend_from_slice` in a build `o`. -/
def extendFromSliceWith (o : Overflow) (items : List α) : Proc (HeaplessVec α N) PushError Unit :=
  ⟨fun v =>
    if h : v.length+items.length ≤ N then
      match hn : o.add 16 v.length (items.length%65536) with
      | some n => .ok () {
          length := n
          data := writeFrom v.data v.length items
          data_length := v.written_length items
          length_le := (Overflow.add_le hn).trans
            ((Nat.add_le_add_left (Nat.mod_le _ _) _).trans h)
          length_lt := Overflow.add_lt hn }
      | none => .abort .panic
    else .err .pushError v⟩

lemma pushWith_eq (o : Overflow) (item : α) :
    (pushWith o item : Proc (HeaplessVec α N) PushError Unit) = extendFromSliceWith o [item] := rfl

lemma extendFromSliceWith_checked (items : List α) :
    (extendFromSliceWith .checked items : Proc (HeaplessVec α N) PushError Unit) =
      extendFromSlice items := by
  unfold extendFromSliceWith extendFromSlice
  congr 1
  funext v
  by_cases h : v.length+items.length ≤ N
  · simp only [dif_pos h]
    by_cases h' : v.length+items.length%65536 < 65536
    · have hn : Overflow.checked.add 16 v.length (items.length%65536) =
          some (v.length+items.length%65536) := if_pos h'
      rw [dif_pos h']
      split
      · rename_i m hm
        rw [hn] at hm
        cases hm
        rfl
      · rename_i hnone
        rw [hn] at hnone
        cases hnone
    · have hn : Overflow.checked.add 16 v.length (items.length%65536) = none := if_neg h'
      rw [dif_neg h']
      split
      · rename_i m hm
        rw [hn] at hm
        cases hm
      · rfl
  · simp only [dif_neg h]

lemma pushWith_checked (item : α) :
    (pushWith .checked item : Proc (HeaplessVec α N) PushError Unit) = push item := by
  rw [pushWith_eq,extendFromSliceWith_checked]
  rfl

/-- `n` elements more find room, and the build does not panic at the sum. -/
def Accepts (o : Overflow) (v : HeaplessVec α N) (n : ℕ) : Prop :=
  v.length+n ≤ N ∧ (o = .checked → v.length+n%65536 < 65536)

/-- What is visible after an accepted call is what was visible before, and all of the items behind it. -/
def AppendsItems (p : Proc (HeaplessVec α N) PushError Unit) (v : HeaplessVec α N) (items : List α) :
    Prop :=
  ∀ w, p v = .ok () w → w.asSlice = v.asSlice ++ items ∧ w.len = v.len+items.length

section Extend

variable {v w : HeaplessVec α N} {items : List α} {u : Unit}

lemma extendFromSliceWith_of_some {n : ℕ} (h : v.length+items.length ≤ N)
    (hn : o.add 16 v.length (items.length%65536) = some n) : ∃ w,
      extendFromSliceWith o items v = .ok () w ∧ w.length = n ∧
        w.data = writeFrom v.data v.length items := by
  simp only [extendFromSliceWith,dif_pos h]
  split
  · rename_i m hm
    rw [hn] at hm
    cases hm
    exact ⟨_,rfl,rfl,rfl⟩
  · rename_i hnone
    rw [hn] at hnone
    cases hnone

lemma extendFromSliceWith_of_none (h : v.length+items.length ≤ N)
    (hn : o.add 16 v.length (items.length%65536) = none) :
    extendFromSliceWith o items v = .abort .panic := by
  simp only [extendFromSliceWith,dif_pos h]
  split
  · rename_i m hm
    rw [hn] at hm
    cases hm
  · rfl

lemma accepts_iff : v.Accepts o items.length ↔ ∃ w, extendFromSliceWith o items v = .ok () w := by
  by_cases h : v.length+items.length ≤ N
  · have hsum : (o = .checked → v.length+items.length%65536 < 65536) ↔
        (o.add 16 v.length (items.length%65536)).isSome = true :=
      (Overflow.add_isSome_iff (w := 16)).symm
    rw [Accepts,and_iff_right h,hsum]
    cases hn : o.add 16 v.length (items.length%65536) with
    | some n =>
      obtain ⟨w,hw,-⟩ := extendFromSliceWith_of_some h hn
      exact iff_of_true rfl ⟨w,hw⟩
    | none =>
      rw [extendFromSliceWith_of_none h hn]
      simp
  · have hrefused : extendFromSliceWith o items v = .err .pushError v := dif_neg h
    rw [Accepts,hrefused]
    simp [h]

/-- All of the items are visible exactly when a `u16` counts the new length. -/
lemma extendFromSliceWith_whole_iff (hok : extendFromSliceWith o items v = .ok u w) :
    (w.asSlice = v.asSlice ++ items ∧ w.len = v.len+items.length) ↔
      v.length+items.length ≤ 65535 := by
  obtain ⟨hfit,-⟩ := accepts_iff.mpr ⟨w,hok⟩
  cases hn : o.add 16 v.length (items.length%65536) with
  | none =>
    rw [extendFromSliceWith_of_none hfit hn] at hok
    cases hok
  | some n =>
    obtain ⟨w',hw',hlen,hdata⟩ := extendFromSliceWith_of_some hfit hn
    rw [hw'] at hok
    cases hok
    have hsum : n = v.length+items.length ↔ v.length+items.length < 65536 :=
      Overflow.add_mod_eq_iff hn
    constructor
    · rintro ⟨-,h⟩
      have hlt := hsum.mp (hlen.symm.trans h)
      omega
    · intro hle
      have hn' : w.length = v.length+items.length := by
        rw [hlen]
        exact hsum.mpr (by omega)
      refine ⟨?_,hn'⟩
      rw [asSlice,hdata,hn']
      exact take_writeFrom (by rwa [v.data_length])

lemma appendsItems_iff : AppendsItems (extendFromSliceWith o items) v items ↔
    (v.Accepts o items.length → v.length+items.length ≤ 65535) := by
  rw [accepts_iff]
  constructor
  · rintro h ⟨w,hw⟩
    exact (extendFromSliceWith_whole_iff hw).mp (h w hw)
  · intro h w hw
    exact (extendFromSliceWith_whole_iff hw).mpr (h ⟨w,hw⟩)

lemma collect_whole_iff [Inhabited α] {v : HeaplessVec α N} (h : collect items = some v) :
    (v.asSlice = items ∧ v.len = items.length) ↔ items.length ≤ 65535 := by
  unfold collect at h
  split at h
  · rename_i u w hok
    cases h
    rw [← extendFromSliceWith_checked] at hok
    simpa [len] using extendFromSliceWith_whole_iff hok
  · cases h

end Extend

end HeaplessVec

/-- A field is delimited by its own length. -/
lemma field_append_inj {a b s t : Bytes} (ha : a.length < 65536) (hb : b.length < 65536)
    (h : field a ++ s = field b ++ t) : a = b ∧ s = t := by
  have hr : ∀ c r : Bytes, c.length < 65536 →
      readBinary (field c ++ r) 0 = .ok c (0+(field c).length) := by
    intro c r hc
    exact decides_readBinary.reads ⟨rfl,hc⟩ rfl
  have hread := hr a s ha
  rw [h,hr b t hb,Outcome.ok.injEq] at hread
  obtain ⟨rfl,-⟩ := hread
  exact ⟨rfl,List.append_cancel_left h⟩

namespace PublishPacket

/-- The frame at the start of the slice holds this topic and this payload, a packet identifier of two
bytes or none between them. -/
def Carries (bytes topic payload : Bytes) : Prop :=
  ∃ header k id, FrameAt bytes header k (field topic ++ (id ++ payload)) ∧ topic.length < 65536 ∧
    id.length = if qosOf header = some .atMostOnce then 0 else 2

lemma Carries.unique {bytes topic topic' payload payload' : Bytes} (h : Carries bytes topic payload)
    (h' : Carries bytes topic' payload') : topic' = topic ∧ payload' = payload := by
  obtain ⟨header,k,id,hf,ht,hid⟩ := h
  obtain ⟨header',k',id',hf',ht',hid'⟩ := h'
  obtain ⟨rfl,rfl,hbody⟩ := hf.unique hf'
  obtain ⟨rfl,hrest⟩ := field_append_inj ht ht' hbody
  exact ⟨rfl,(List.append_inj hrest (hid.trans hid'.symm)).2.symm⟩

/-- An accepted frame carries the topic and the payload that were copied. -/
lemma carries_of_decode {w : ℕ} (hw : 32 ≤ w) {bytes : Bytes} {p : PublishPacket T P}
    (h : decode w bytes = .ok p ()) : ∃ topic payload, Carries bytes topic payload ∧
      validUtf8 topic = true ∧ HeaplessString.tryFrom topic = some p.topicName ∧
      HeaplessVec.collect payload = some p.payload := by
  obtain ⟨header,k,body,hf,hheader,head,payload,rfl,hhead,hp⟩ := (decode_eq_ok hw).mp h
  obtain ⟨enc,id,rfl,⟨topic,⟨rfl,hlt,hv⟩,-,ht⟩,hid⟩ := hhead
  rw [List.append_assoc] at hf
  refine ⟨topic,payload,⟨header,k,id,hf,hlt,?_⟩,hv,ht,hp⟩
  have hqos : qosOf header = some p.qos := hheader.2.1
  cases hpid : p.packetId with
  | none =>
    rw [hpid] at hid
    rw [if_pos (by rw [hqos,not_ne_iff.mp hid.1]),hid.2,List.length_nil]
  | some pid =>
    rw [hpid] at hid
    rw [if_neg (by rw [hqos,Option.some.injEq]; exact hid.1),hid.2.1,toBeBytes_length]

/-- The decoder keeps the whole topic and the whole payload of the frame exactly when a `u8` and a `u16`
count them. -/
lemma decode_whole_iff {w : ℕ} (hw : 32 ≤ w) {bytes : Bytes} {p : PublishPacket T P}
    (h : decode w bytes = .ok p ()) : ∃ topic payload,
      (∀ topic' payload', Carries bytes topic' payload' ↔ topic' = topic ∧ payload' = payload) ∧
      ((p.topicName.asStr = topic ∧ p.topicName.len = topic.length) ↔ topic.length ≤ 255) ∧
      ((p.payload.asSlice = payload ∧ p.payload.len = payload.length) ↔
        payload.length ≤ 65535) := by
  obtain ⟨topic,payload,hc,hv,ht,hp⟩ := carries_of_decode hw h
  refine ⟨topic,payload,?_,HeaplessString.tryFrom_whole_iff hv ht,HeaplessVec.collect_whole_iff hp⟩
  intro topic' payload'
  constructor
  · exact hc.unique
  · rintro ⟨rfl,rfl⟩
    exact hc

end PublishPacket

namespace HeaplessString
open HeaplessVec PublishPacket

/-- A container stores all of an accepted input exactly when its length word counts the new length, and
a string shows it only behind text. So the decoder of PUBLISH shortens what the words cannot count. -/
theorem stores_all_iff {w : ℕ} (hw : 32 ≤ w) :
    (∀ value : Str, (∀ s : HeaplessString N, tryFrom value.1 = some s →
        s.asStr = value.1 ∧ s.len = value.1.length) ↔
      (value.1.length ≤ N → value.1.length ≤ 255)) ∧
    (∀ (o : Overflow) (s : HeaplessString N) (ch : Char),
      AppendsText (push o ch) s (String.utf8EncodeChar ch) ↔
        (s.Accepts o (String.utf8EncodeChar ch).length →
          s.length+(String.utf8EncodeChar ch).length ≤ 255 ∧ s.Utf8)) ∧
    (∀ (o : Overflow) (s : HeaplessString N) (text : Str), AppendsText (pushStr o text.1) s text.1 ↔
      (s.Accepts o text.1.length → s.length+text.1.length ≤ 255 ∧ (s.Utf8 ∨ text.1 = []))) ∧
    (∀ (o : Overflow) (v : HeaplessVec α N) (item : α), AppendsItems (pushWith o item) v [item] ↔
      (v.Accepts o 1 → v.length+1 ≤ 65535)) ∧
    (∀ (o : Overflow) (v : HeaplessVec α N) (items : List α),
      AppendsItems (extendFromSliceWith o items) v items ↔
        (v.Accepts o items.length → v.length+items.length ≤ 65535)) ∧
    ∀ (bytes : Bytes) (p : PublishPacket T P), decode w bytes = .ok p () → ∃ topic payload,
      (∀ topic' payload', Carries bytes topic' payload' ↔ topic' = topic ∧ payload' = payload) ∧
      ((p.topicName.asStr = topic ∧ p.topicName.len = topic.length) ↔ topic.length ≤ 255) ∧
      ((p.payload.asSlice = payload ∧ p.payload.len = payload.length) ↔
        payload.length ≤ 65535) := by
  refine ⟨?_,?_,?_,?_,?_,?_⟩
  · intro value
    constructor
    · intro h hN
      obtain ⟨s,hs⟩ := Option.isSome_iff_exists.mp (tryFrom_isSome_iff.mpr hN)
      exact (tryFrom_whole_iff value.2 hs).mp (h s hs)
    · intro h s hs
      have hN : value.1.length ≤ N := tryFrom_isSome_iff.mp (by rw [hs]; rfl)
      exact (tryFrom_whole_iff value.2 hs).mpr (h hN)
  · intro o s ch
    have hne : String.utf8EncodeChar ch ≠ [] := by
      apply List.ne_nil_of_length_pos
      rw [String.length_utf8EncodeChar]
      exact ch.utf8Size_pos
    have happends := appendsText_iff (o := o) (s := s) (Str.ofChar ch).2
    simp only [Str.ofChar,hne,or_false] at happends
    exact happends
  · intro o s text
    exact appendsText_iff text.2
  · intro o v item
    rw [pushWith_eq]
    apply appendsItems_iff
  · intro o v items
    exact appendsItems_iff
  · intro bytes p h
    exact decode_whole_iff hw h

/-- One letter in a capacity of one. -/
theorem stores_all_iff_one :
    (∀ value : Str, (∀ s : HeaplessString 1, tryFrom value.1 = some s →
        s.asStr = value.1 ∧ s.len = value.1.length) ↔
      (value.1.length ≤ 1 → value.1.length ≤ 255)) ∧
    AppendsText (push .checked 'a') (new : HeaplessString 1) (String.utf8EncodeChar 'a') ∧
    AppendsItems (pushWith .checked 0) (.new : HeaplessVec ℕ 1) [0] := by
  obtain ⟨hcopied,hpushed,-,hitem,-⟩ :=
    stores_all_iff (N := 1) (α := ℕ) (T := 1) (P := 1) (le_refl 32)
  refine ⟨hcopied,(hpushed .checked new 'a').mpr ?_,(hitem .checked .new 0).mpr ?_⟩
  · intro _
    decide
  · intro _
    decide

/-- One letter more than a `u8` counts is accepted, and the string is empty. -/
theorem tryFrom_shortens : ¬ ∀ (N : ℕ) (value : Str) (s : HeaplessString N),
    tryFrom value.1 = some s → s.asStr = value.1 ∧ s.len = value.1.length := by
  intro h
  have hlen := Str.letters_length 256
  obtain ⟨s,hs⟩ := Option.isSome_iff_exists.mp
    (tryFrom_isSome_iff (N := 256).mpr hlen.le)
  have hle := (tryFrom_whole_iff (Str.letters 256).2 hs).mp (h 256 _ s hs)
  omega

end HeaplessString

end Picobroker
