import Picobroker.Rust.Word

/-! UTF-8 text that is joined and cut. What follows a text is text exactly when the whole is, and a
prefix of a text is text exactly when the cut stands in front of a character. -/
namespace Rust

/-- A `&str`. -/
abbrev Str : Type := {bytes : Bytes // validUtf8 bytes = true}

/-- The `&str` that `char::encode_utf8` writes. -/
def Str.ofChar (c : Char) : Str :=
  ⟨String.utf8EncodeChar c,(validUtf8_iff _).mpr ⟨[c],by rw [List.flatMap_singleton]⟩⟩

/-- The letter `a`, `n` times. -/
def Str.letters (n : ℕ) : Str where
  val := List.replicate n 0x61
  property := by
    have ha : String.utf8EncodeChar 'a' = [0x61] := by decide
    rw [validUtf8_iff]
    refine ⟨List.replicate n 'a',?_⟩
    rw [List.flatMap_replicate,ha,List.flatten_replicate_singleton]

lemma Str.letters_length (n : ℕ) : (letters n).1.length = n := List.length_replicate

/-- Position `k` is the end of the text or the start of one of its characters. -/
def IsCharBoundary (text : Bytes) (k : ℕ) : Prop :=
  k = text.length ∨ ∃ b ∈ text[k]?, b.IsUTF8FirstByte

instance (text : Bytes) (k : ℕ) : Decidable (IsCharBoundary text k) :=
  inferInstanceAs (Decidable (_ ∨ _))

lemma validUtf8_iff_isValidUTF8 (bytes : Bytes) :
    validUtf8 bytes = true ↔ bytes.toByteArray.IsValidUTF8 :=
  ByteArray.validateUTF8_eq_true_iff

lemma validUtf8_append {a b : Bytes} (ha : validUtf8 a = true) (hb : validUtf8 b = true) :
    validUtf8 (a ++ b) = true := by
  obtain ⟨cs,rfl⟩ := (validUtf8_iff a).mp ha
  obtain ⟨ds,rfl⟩ := (validUtf8_iff b).mp hb
  rw [← List.flatMap_append]
  exact (validUtf8_iff _).mpr ⟨cs ++ ds,rfl⟩

lemma toByteArray_take (bytes : Bytes) (k : ℕ) :
    (bytes.take k).toByteArray = bytes.toByteArray.extract 0 k := by
  apply ByteArray.ext
  simp

lemma toByteArray_drop (bytes : Bytes) (k : ℕ) :
    (bytes.drop k).toByteArray = bytes.toByteArray.extract k bytes.length := by
  apply ByteArray.ext
  simp

section Cut

variable {text : Bytes} {k : ℕ}

/-- The string with these bytes. -/
def stringOf (h : validUtf8 text = true) : String :=
  ⟨text.toByteArray,(validUtf8_iff_isValidUTF8 text).mp h⟩

lemma isValid_iff_take (h : validUtf8 text = true) (hk : k ≤ text.length) :
    (⟨k⟩ : String.Pos.Raw).IsValid (stringOf h) ↔ validUtf8 (text.take k) = true := by
  have hle : (⟨k⟩ : String.Pos.Raw) ≤ (stringOf h).rawEndPos := by
    simpa [String.Pos.Raw.le_iff,stringOf] using hk
  rw [String.Pos.Raw.isValid_iff_isValidUTF8_extract_zero,and_iff_right hle,
    validUtf8_iff_isValidUTF8,toByteArray_take]
  rfl

lemma lt_rawEndPos_iff (h : validUtf8 text = true) :
    (⟨k⟩ : String.Pos.Raw) < (stringOf h).rawEndPos ↔ k < text.length := by
  simp [String.Pos.Raw.lt_iff,stringOf]

lemma getUTF8Byte_stringOf (h : validUtf8 text = true) (hk : k < text.length) :
    (stringOf h).getUTF8Byte ⟨k⟩ ((lt_rawEndPos_iff h).mpr hk) = text[k] := by
  rw [String.getUTF8Byte_eq_getElem]
  simp [stringOf]

/-- A text is cut into text exactly at the boundaries of its characters. -/
lemma validUtf8_take (h : validUtf8 text = true) (hk : k ≤ text.length) :
    validUtf8 (text.take k) = true ↔ IsCharBoundary text k := by
  rw [← isValid_iff_take h hk,String.Pos.Raw.isValid_iff_isUTF8FirstByte,IsCharBoundary]
  apply or_congr
  · simp [String.Pos.Raw.ext_iff,stringOf]
  · constructor
    · rintro ⟨hlt,hb⟩
      rw [lt_rawEndPos_iff] at hlt
      rw [getUTF8Byte_stringOf h hlt] at hb
      exact ⟨text[k],List.getElem?_eq_getElem hlt,hb⟩
    · rintro ⟨b,hget,hb⟩
      obtain ⟨hlt,rfl⟩ := List.getElem?_eq_some_iff.mp hget
      refine ⟨(lt_rawEndPos_iff h).mpr hlt,?_⟩
      rwa [getUTF8Byte_stringOf h hlt]

lemma validUtf8_drop (h : validUtf8 text = true) (hk : validUtf8 (text.take k) = true)
    (hle : k ≤ text.length) : validUtf8 (text.drop k) = true := by
  have hv := ((isValid_iff_take h hle).mpr hk).isValidUTF8_extract_utf8ByteSize
  rw [validUtf8_iff_isValidUTF8,toByteArray_drop]
  simpa [stringOf] using hv

/-- In front of a text, text and nothing else gives text. -/
lemma validUtf8_append_iff {a b : Bytes} (ha : validUtf8 a = true) :
    validUtf8 (a ++ b) = true ↔ validUtf8 b = true := by
  constructor
  · intro h
    have hd := validUtf8_drop h (by rwa [List.take_left]) (by simp)
    rwa [List.drop_left] at hd
  · exact validUtf8_append ha

end Cut

end Rust
