import Picobroker.Rust.Word

/-! Reading and writing byte slices through a moving offset. Indexing and slicing panic outside the
slice, as in Rust. -/
namespace Rust

variable {σ ε α β : Type}

/-- `bytes[i]`. -/
def index (bytes : Bytes) (i : ℕ) : Proc σ ε UInt8 := Proc.lift bytes[i]?

/-- `&bytes[start..stop]`. -/
def slice (bytes : Bytes) (start stop : ℕ) : Proc σ ε Bytes :=
  if start ≤ stop ∧ stop ≤ bytes.length then pure ((bytes.take stop).drop start) else Proc.panic

lemma index_eq {bytes : Bytes} {i : ℕ} (h : i < bytes.length) (s : σ) :
    (index bytes i : Proc σ ε UInt8) s = .ok bytes[i] s := by simp [index,h]

@[simp] lemma index_zero (b : UInt8) (rest : Bytes) (s : σ) :
    (index (b::rest) 0 : Proc σ ε UInt8) s = .ok b s := rfl

lemma slice_eq {bytes : Bytes} {start stop : ℕ} (h : start ≤ stop) (h' : stop ≤ bytes.length)
    (s : σ) : (slice bytes start stop : Proc σ ε Bytes) s =
      .ok ((bytes.take stop).drop start) s := by simp [slice,h,h']

lemma slice_panics {bytes : Bytes} {start stop : ℕ} (h : stop < start) (s : σ) :
    (slice bytes start stop : Proc σ ε Bytes) s = .abort .panic := by
  simp [slice,Nat.not_le.mpr h]

lemma drop_length_le {bytes enc rest : Bytes} {o : ℕ} (h : bytes.drop o = enc ++ rest)
    (henc : enc ≠ []) : o + enc.length + rest.length = bytes.length := by
  have hl := congrArg List.length h
  have hp := List.length_pos_iff.mpr henc
  simp only [List.length_drop,List.length_append] at hl
  omega

lemma drop_add_of_drop {bytes enc rest : Bytes} {o : ℕ} (h : bytes.drop o = enc ++ rest) :
    bytes.drop (o + enc.length) = rest := by
  rw [← List.drop_drop,h,List.drop_left]

/-- Behind the first byte and `k` others. -/
lemma drop_one_add (b : UInt8) (bytes : Bytes) (k : ℕ) : (b::bytes).drop (1+k) = bytes.drop k := by
  rw [Nat.add_comm 1 k,List.drop_succ_cons]

lemma slice_drop {bytes enc rest : Bytes} {o : ℕ} (h : bytes.drop o = enc ++ rest)
    (ho : o ≤ bytes.length) (s : σ) :
    (slice bytes o (o + enc.length) : Proc σ ε Bytes) s = .ok enc s := by
  have hl := congrArg List.length h
  simp only [List.length_drop,List.length_append] at hl
  rw [slice_eq (by omega) (by omega),List.drop_take,h,Nat.add_sub_cancel_left,List.take_left]

/-- `buffer[i] = b`. -/
def setByte (i : ℕ) (b : UInt8) : Proc Bytes ε Unit := ⟨fun buffer =>
  if i < buffer.length then .ok () (buffer.set i b) else .abort .panic⟩

/-! ### Readers -/

/-- A call that moves an offset over a byte slice. -/
abbrev Reader (ε α : Type) : Type := Proc ℕ ε α

/-- `r` reads the language `G`: where an encoding stands in the slice it takes exactly that,
whatever follows; what it accepts is an encoding; and from no offset does it panic. -/
structure Reader.Decides (r : Bytes → Reader ε α) (G : Bytes → α → Prop) : Prop where
  reads : ∀ {bytes o enc a rest}, G enc a → bytes.drop o = enc ++ rest →
    r bytes o = .ok a (o+enc.length)
  parses : ∀ {bytes o a o'}, r bytes o = .ok a o' →
    ∃ enc, G enc a ∧ bytes.drop o = enc ++ bytes.drop o' ∧ o' = o+enc.length
  total : ∀ bytes o, (r bytes o).Returns

namespace Reader

/-- An encoding made of two parts, the second of which may depend on what the first one says. -/
def Seq (G : Bytes → α → Prop) (H : α → Bytes → β → Prop) (enc : Bytes) (b : β) : Prop :=
  ∃ e₁ e₂ a, enc = e₁ ++ e₂ ∧ G e₁ a ∧ H a e₂ b

@[simp] lemma seq_check {c : Prop} {H : Unit → Bytes → β → Prop} :
    Seq (fun e (_ : Unit) => e = [] ∧ c) H = fun enc b => c ∧ H () enc b := by
  funext enc b
  apply propext
  constructor
  · rintro ⟨_,e,_,rfl,⟨rfl,hc⟩,hb⟩
    exact ⟨hc,hb⟩
  · rintro ⟨hc,hb⟩
    exact ⟨[],enc,(),rfl,⟨rfl,hc⟩,hb⟩

@[simp] lemma seq_value {P : α → Prop} {H : α → Bytes → β → Prop} :
    Seq (fun e a => e = [] ∧ P a) H = fun enc b => ∃ a, P a ∧ H a enc b := by
  funext enc b
  apply propext
  constructor
  · rintro ⟨_,e,a,rfl,⟨rfl,ha⟩,hb⟩
    exact ⟨a,ha,hb⟩
  · rintro ⟨a,ha,hb⟩
    exact ⟨[],enc,a,rfl,⟨rfl,ha⟩,hb⟩

@[simp] lemma seq_result {G : Bytes → α → Prop} {f : α → β} :
    Seq G (fun a e b => e = [] ∧ b = f a) = fun enc b => ∃ a, G enc a ∧ b = f a := by
  funext enc b
  apply propext
  constructor
  · rintro ⟨e,_,a,rfl,ha,rfl,rfl⟩
    exact ⟨a,by rwa [List.append_nil],rfl⟩
  · rintro ⟨a,ha,rfl⟩
    exact ⟨enc,[],a,(List.append_nil enc).symm,ha,rfl,rfl⟩

lemma seq_iff {G : Bytes → α → Prop} {H : α → Bytes → β → Prop} {enc : Bytes} {b : β} :
    Seq G H enc b ↔ ∃ e₁ e₂ a, enc = e₁ ++ e₂ ∧ G e₁ a ∧ H a e₂ b := Iff.rfl

lemma decides_pure (a : α) :
    Decides (fun _ => (pure a : Reader ε α)) (fun enc b => enc = [] ∧ b = a) where
  reads := by
    rintro _ _ _ _ _ ⟨rfl,rfl⟩ _
    rfl
  parses := by
    intro _ _ _ _ h
    cases h
    exact ⟨[],⟨rfl,rfl⟩,rfl,rfl⟩
  total _ o := Outcome.returns_ok a o

lemma Decides.bind {r : Bytes → Reader ε α} {f : Bytes → α → Reader ε β}
    {G : Bytes → α → Prop} {H : α → Bytes → β → Prop} (hr : Decides r G)
    (hf : ∀ a, Decides (fun bytes => f bytes a) (H a)) :
    Decides (fun bytes => r bytes >>= f bytes) (Seq G H) where
  reads := by
    rintro bytes o _ b rest ⟨e₁,e₂,a,rfl,ha,hb⟩ h
    rw [List.append_assoc] at h
    rw [Proc.bind_apply,hr.reads ha h,Outcome.andThen_ok,(hf a).reads hb (drop_add_of_drop h),
      List.length_append,Nat.add_assoc]
  parses := by
    intro bytes o b o' h
    obtain ⟨a,m,hm,hbm⟩ := Proc.bind_eq_ok.mp h
    obtain ⟨e₁,ha,hd₁,rfl⟩ := hr.parses hm
    obtain ⟨e₂,hb,hd₂,rfl⟩ := (hf a).parses hbm
    refine ⟨e₁ ++ e₂,⟨e₁,e₂,a,rfl,ha,hb⟩,?_,?_⟩
    · rw [hd₁,hd₂,List.append_assoc]
    · rw [List.length_append,Nat.add_assoc]
  total bytes o :=
    Outcome.returns_andThen_iff.mpr ⟨hr.total bytes o,fun a m _ => (hf a).total bytes m⟩

lemma Decides.congr {r : Bytes → Reader ε α} {G H : Bytes → α → Prop} (hr : Decides r G)
    (h : ∀ enc a, H enc a ↔ G enc a) : Decides r H where
  reads ha := hr.reads ((h _ _).mp ha)
  parses ho := by
    obtain ⟨enc,ha,hd⟩ := hr.parses ho
    exact ⟨enc,(h _ _).mpr ha,hd⟩
  total := hr.total

/-- A check reads nothing. -/
lemma decides_failIf (c : Prop) [Decidable c] (e : ε) :
    Decides (fun _ => (Proc.failIf c e : Reader ε Unit)) (fun enc _ => enc = [] ∧ ¬ c) where
  reads := by
    rintro _ o _ _ _ ⟨rfl,hc⟩ _
    exact Proc.failIf_neg hc e o
  parses := by
    intro _ _ _ _ h
    obtain ⟨hc,rfl⟩ := Proc.failIf_eq_ok.mp h
    exact ⟨[],⟨rfl,hc⟩,rfl,rfl⟩
  total _ := Proc.failIf_returns c e

lemma decides_okOr (e : ε) (x : Option α) :
    Decides (fun _ => (Proc.okOr e x : Reader ε α)) (fun enc a => enc = [] ∧ x = some a) where
  reads := by
    rintro _ o _ a _ ⟨rfl,rfl⟩ _
    exact Proc.okOr_some e a o
  parses := by
    intro _ _ _ _ h
    obtain ⟨hx,rfl⟩ := Proc.okOr_eq_ok.mp h
    exact ⟨[],⟨rfl,hx⟩,rfl,rfl⟩
  total _ := Proc.okOr_returns e x

lemma Decides.ite {c : Prop} [Decidable c] {r t : Bytes → Reader ε α} {G H : Bytes → α → Prop}
    (hr : Decides r G) (ht : Decides t H) :
    Decides (fun bytes => if c then r bytes else t bytes)
      (fun enc a => if c then G enc a else H enc a) := by
  by_cases h : c
  · simpa only [if_pos h] using hr
  · simpa only [if_neg h] using ht

end Reader

/-! ### Writers -/

/-- A buffer and the offset of the next byte to write. -/
structure Cursor where
  buffer : Bytes
  offset : ℕ
  deriving DecidableEq, Repr

namespace Cursor

/-- Everything before the offset, then what is still to be overwritten. -/
def at' (done tail : Bytes) : Cursor := ⟨done ++ tail,done.length⟩

/-- `buffer[offset] = b; offset += 1`. -/
def putByte (b : UInt8) : Proc Cursor ε Unit := ⟨fun c =>
  if c.offset < c.buffer.length then .ok () ⟨c.buffer.set c.offset b,c.offset+1⟩
  else .abort .panic⟩

/-- `buffer[offset..offset + src.len()].copy_from_slice(src); offset += src.len()`. -/
def putSlice (src : Bytes) : Proc Cursor ε Unit := ⟨fun c =>
  if c.offset+src.length ≤ c.buffer.length then
    .ok () ⟨c.buffer.take c.offset ++ src ++ c.buffer.drop (c.offset+src.length),
      c.offset+src.length⟩
  else .abort .panic⟩

/-- Given room, the call writes exactly `enc` at the offset, moves past it, and returns `a`. -/
def Writes (p : Proc Cursor ε α) (enc : Bytes) (a : α) : Prop :=
  ∀ done tail : Bytes, enc.length ≤ tail.length →
    p (at' done tail) = .ok a (at' (done ++ enc) (tail.drop enc.length))

lemma writes_pure (a : α) : Writes (pure a : Proc Cursor ε α) [] a := by
  intro done tail _
  simp

lemma Writes.bind {p : Proc Cursor ε α} {f : α → Proc Cursor ε β} {enc enc' : Bytes} {a : α}
    {b : β} (hp : Writes p enc a) (hf : Writes (f a) enc' b) :
    Writes (p >>= f) (enc ++ enc') b := by
  intro done tail h
  rw [List.length_append] at h
  rw [Proc.bind_apply,hp done tail (by omega),Outcome.andThen_ok,
    hf (done ++ enc) (tail.drop enc.length) (by rw [List.length_drop]; omega)]
  rw [List.append_assoc,List.drop_drop,List.length_append]

lemma writes_putByte (b : UInt8) : Writes (putByte b : Proc Cursor ε Unit) [b] () := by
  intro done tail h
  cases tail with
  | nil => simp at h
  | cons t tail => simp [putByte,at']

lemma writes_putSlice (src : Bytes) : Writes (putSlice src : Proc Cursor ε Unit) src () := by
  intro done tail h
  have hroom : done.length+src.length ≤ done.length+tail.length := by omega
  simp [putSlice,at',hroom,List.drop_append]

/-- The call turned the cursor `c` into `c'`: it wrote `enc` where the offset stood, moved past it and
left everything else alone. -/
structure Wrote (c : Cursor) (enc : Bytes) (c' : Cursor) : Prop where
  offset : c'.offset = c.offset+enc.length
  length : c'.buffer.length = c.buffer.length
  drop : c'.buffer.drop c.offset = enc ++ c.buffer.drop c'.offset
  outside : ∀ i, i < c.offset ∨ c'.offset ≤ i → c'.buffer[i]? = c.buffer[i]?

lemma wrote_at' {done tail enc : Bytes} (h : enc.length ≤ tail.length) :
    (at' done tail).Wrote enc (at' (done ++ enc) (tail.drop enc.length)) where
  offset := List.length_append
  length := by
    simp only [at',List.length_append,List.length_drop]
    omega
  drop := by
    have htail : (done ++ tail).drop (done.length+enc.length) = tail.drop enc.length := by
      rw [← List.drop_drop,List.drop_left]
    simp only [at',List.append_assoc,List.drop_left,List.length_append,htail]
  outside := by
    intro i hi
    simp only [at',List.length_append] at hi
    simp only [at']
    obtain hi | hi := hi
    · rw [List.append_assoc,List.getElem?_append_left hi,List.getElem?_append_left hi]
    · have hlen : (done ++ enc).length ≤ i := by rwa [List.length_append]
      rw [List.getElem?_append_right hlen,List.getElem?_append_right (by omega),List.getElem?_drop]
      congr 1
      rw [List.length_append]
      omega

/-- From any cursor with room. -/
lemma Writes.wrote {p : Proc Cursor ε α} {enc : Bytes} {a : α} (hp : Writes p enc a) {c : Cursor}
    (h : c.offset+enc.length ≤ c.buffer.length) : ∃ c', p c = .ok a c' ∧ c.Wrote enc c' := by
  have hle : c.offset ≤ c.buffer.length := by omega
  have hlen : (c.buffer.take c.offset).length = c.offset := by
    rw [List.length_take,Nat.min_eq_left hle]
  have hc : at' (c.buffer.take c.offset) (c.buffer.drop c.offset) = c := by
    rw [at',List.take_append_drop,hlen]
  have hroom : enc.length ≤ (c.buffer.drop c.offset).length := by
    rw [List.length_drop]
    omega
  have hw : (at' (c.buffer.take c.offset) (c.buffer.drop c.offset)).Wrote enc _ := wrote_at' hroom
  have hok := hp (c.buffer.take c.offset) _ hroom
  rw [hc] at hw hok
  exact ⟨_,hok,hw⟩

/-- A check on the remaining room passes when there is room. -/
lemma Writes.of_room {p : Proc Cursor ε α} {enc : Bytes} {a : α} {q : Proc Cursor ε α}
    (hp : Writes p enc a)
    (hq : ∀ c : Cursor, c.offset+enc.length ≤ c.buffer.length → q c = p c) :
    Writes q enc a := by
  intro done tail h
  rw [hq _ (by simp only [at',List.length_append]; omega)]
  exact hp done tail h

/-! ### Without room -/

/-- What the call does without room for `enc`: where the room left is one of `gaps` it panics,
elsewhere it reports an error that satisfies `E`. -/
def Short (p : Proc Cursor ε α) (enc : Bytes) (E : ε → Prop) (gaps : ℕ → Prop) : Prop :=
  ∀ done tail : Bytes, tail.length < enc.length →
    gaps tail.length ∧ p (at' done tail) = .abort .panic ∨
      ¬ gaps tail.length ∧ ∃ e c, p (at' done tail) = .err e c ∧ E e

/-- Every write is preceded by a check. -/
abbrev Checked (p : Proc Cursor ε α) (enc : Bytes) (E : ε → Prop) : Prop :=
  Short p enc E (fun _ => False)

section Short

variable {p : Proc Cursor ε α} {f : α → Proc Cursor ε β} {enc enc' : Bytes} {a : α} {E : ε → Prop}
  {gaps gaps' : ℕ → Prop}

lemma Short.congr (hp : Short p enc E gaps) (h : ∀ n, n < enc.length → (gaps' n ↔ gaps n)) :
    Short p enc E gaps' := by
  intro done tail ht
  rw [h _ ht]
  exact hp done tail ht

/-- The second part starts in what the first one leaves. -/
lemma Short.bind (hw : Writes p enc a) (hp : Short p enc E gaps) (hf : Short (f a) enc' E gaps') :
    Short (p >>= f) (enc ++ enc') E
      (fun n => if n < enc.length then gaps n else gaps' (n-enc.length)) := by
  intro done tail ht
  rw [List.length_append] at ht
  rw [Proc.bind_apply]
  beta_reduce
  by_cases hlt : tail.length < enc.length
  · rw [if_pos hlt]
    obtain ⟨hg,hpanic⟩ | ⟨hg,e,c,herr,he⟩ := hp done tail hlt
    · rw [hpanic]
      exact .inl ⟨hg,rfl⟩
    · rw [herr]
      exact .inr ⟨hg,e,c,rfl,he⟩
  · have hl : (tail.drop enc.length).length = tail.length-enc.length := List.length_drop
    rw [if_neg hlt,hw done tail (Nat.not_lt.mp hlt),Outcome.andThen_ok,← hl]
    exact hf _ _ (by rw [hl]; omega)

lemma Checked.bind (hw : Writes p enc a) (hp : Checked p enc E) (hf : Checked (f a) enc' E) :
    Checked (p >>= f) (enc ++ enc') E :=
  (Short.bind hw hp hf).congr (fun n _ => by split_ifs <;> rfl)

lemma checked_pure (a : α) (E : ε → Prop) : Checked (pure a : Proc Cursor ε α) [] E :=
  fun _ _ h => absurd h (Nat.not_lt_zero _)

/-- A write without a check panics. -/
lemma short_putByte (b : UInt8) (E : ε → Prop) :
    Short (putByte b : Proc Cursor ε Unit) [b] E (fun _ => True) := by
  intro done tail h
  refine .inl ⟨trivial,?_⟩
  have hroom : ¬ done.length < (done ++ tail).length := by
    rw [List.length_append]
    rw [List.length_singleton] at h
    omega
  simp only [putByte,at',if_neg hroom]

lemma short_putSlice (src : Bytes) (E : ε → Prop) :
    Short (putSlice src : Proc Cursor ε Unit) src E (fun _ => True) := by
  intro done tail h
  refine .inl ⟨trivial,?_⟩
  have hroom : ¬ done.length+src.length ≤ (done ++ tail).length := by
    rw [List.length_append]
    omega
  simp only [putSlice,at',if_neg hroom]

/-- A call that begins with a check of the room for everything it writes. -/
lemma checked_of_room {e : Cursor → ε} (he : ∀ c, E (e c))
    (h : ∀ c : Cursor, c.buffer.length < c.offset+enc.length → p c = .err (e c) c) :
    Checked p enc E := by
  intro done tail ht
  refine .inr ⟨not_false,_,_,h _ ?_,he _⟩
  simp only [at',List.length_append]
  omega

end Short

end Cursor

end Rust
