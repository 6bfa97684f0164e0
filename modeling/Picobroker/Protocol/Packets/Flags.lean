import Picobroker.Protocol.Packets.RoundTrip

/-! The flag byte of CONNECT: which of its rules the decoder enforces. -/
namespace Picobroker
open Rust

variable {T P w : ℕ}

namespace ConnectPacket

/-- The rules of the protocol for the flags of a CONNECT, and for the fields that they announce. -/
structure FollowsFlagRules (p : ConnectPacket T P) : Prop where
  reserved : p.connectFlags.contains .reserved = false
  noWill : p.connectFlags.contains .willFlag = false →
    p.connectFlags.contains .willQos1 = false ∧ p.connectFlags.contains .willQos2 = false ∧
      p.connectFlags.contains .willRetain = false
  willQos : ¬ (p.connectFlags.contains .willQos1 = true ∧ p.connectFlags.contains .willQos2 = true)
  noUsername : p.connectFlags.contains .username = false →
    p.connectFlags.contains .password = false
  willTopic : p.willTopic.isSome = true ↔ p.connectFlags.contains .willFlag = true
  willPayload : p.willPayload.isSome = true ↔ p.connectFlags.contains .willFlag = true
  username : p.username.isSome = true ↔ p.connectFlags.contains .username = true
  password : p.password.isSome = true ↔ p.connectFlags.contains .password = true

/-- The flag byte of a slice: behind the header byte, the length field, the protocol name and its
level. -/
def flagByte (w : ℕ) (bytes : Bytes) : UInt8 :=
  match readVariableLength w bytes.tail with
  | .ok (_,k) _ => bytes.getD (1+k+7) 0
  | _ => 0

/-- The rules that no check looks at: no quality of service and no retain bit without a will, not
both bits of that quality of service, no password bit without the one of the user name. -/
def UncheckedRules (flags : UInt8) : Prop :=
  (flags &&& 0x04 = 0 → flags &&& 0x38 = 0) ∧ flags &&& 0x18 ≠ 0x18 ∧
    (flags &&& 0x80 = 0 → flags &&& 0x40 = 0)

instance (flags : UInt8) : Decidable (UncheckedRules flags) :=
  inferInstanceAs (Decidable (_ ∧ _ ∧ _))

section Rules

variable {bytes : Bytes} {p : ConnectPacket T P}

/-- The bits that the rules name, in terms of the tests of the code. -/
lemma uncheckedRules_iff (flags : ConnectFlags) : UncheckedRules flags.bits ↔
    (flags.contains .willFlag = false → flags.contains .willQos1 = false ∧
      flags.contains .willQos2 = false ∧ flags.contains .willRetain = false) ∧
    ¬ (flags.contains .willQos1 = true ∧ flags.contains .willQos2 = true) ∧
    (flags.contains .username = false → flags.contains .password = false) := by
  have hall : ∀ n : Fin 256, UncheckedRules (UInt8.ofNat n.val) ↔
      ((ConnectFlags.mk (UInt8.ofNat n.val)).contains .willFlag = false →
        (ConnectFlags.mk (UInt8.ofNat n.val)).contains .willQos1 = false ∧
        (ConnectFlags.mk (UInt8.ofNat n.val)).contains .willQos2 = false ∧
        (ConnectFlags.mk (UInt8.ofNat n.val)).contains .willRetain = false) ∧
      ¬ ((ConnectFlags.mk (UInt8.ofNat n.val)).contains .willQos1 = true ∧
        (ConnectFlags.mk (UInt8.ofNat n.val)).contains .willQos2 = true) ∧
      ((ConnectFlags.mk (UInt8.ofNat n.val)).contains .username = false →
        (ConnectFlags.mk (UInt8.ofNat n.val)).contains .password = false) := by
    decide +kernel
  have h := hall ⟨flags.bits.toNat,flags.bits.toNat_lt⟩
  rwa [UInt8.ofNat_toNat] at h

/-- The flags of an accepted packet are the flag byte of its slice. -/
lemma flagByte_of_decode (hw : 32 ≤ w) (h : decode w bytes = .ok p ()) :
    flagByte w bytes = p.connectFlags.bits := by
  obtain ⟨first,k,_,⟨tail,rest,rfl,hk,hd⟩,-,client,will,user,pass,rfl,-⟩ := (decode_eq_ok hw).mp h
  rw [flagByte,List.tail_cons,(readVariableLength_eq_ok hw).mpr hk]
  have hat : (first::tail).getD (1+k+7) 0 = (tail.drop k).getD 7 0 := by
    rw [List.getD_eq_getElem?_getD,List.getD_eq_getElem?_getD,List.getElem?_drop,
      show 1+k+7 = k+7+1 by omega,List.getElem?_cons_succ]
  simp only
  rw [hat,hd]
  rfl

lemma WillField.isSome {present : Prop} {enc : Bytes}
    {x : Option (TopicName T) × Option (HeaplessVec UInt8 P)} (h : WillField present enc x) :
    (x.1.isSome = true ↔ present) ∧ (x.2.isSome = true ↔ present) := by
  obtain ⟨_ | t,_ | v⟩ := x
  · simp [h.1]
  · exact h.elim
  · exact h.elim
  · simp [h.1]

/-- Of the rules for the flags of a CONNECT the decoder enforces the reserved bit and the presence of
the announced fields; an accepted packet follows all of them exactly when its flag byte respects the
others by itself. -/
theorem followsFlagRules_iff (hw : 32 ≤ w) (h : decode w bytes = .ok p ()) :
    p.FollowsFlagRules ↔ UncheckedRules (flagByte w bytes) := by
  obtain ⟨_,_,_,-,-,client,will,user,pass,-,hreserved,-,hwill,huser,hpass⟩ := (decode_eq_ok hw).mp h
  rw [flagByte_of_decode hw h,uncheckedRules_iff]
  constructor
  · intro hr
    exact ⟨hr.noWill,hr.willQos,hr.noUsername⟩
  · rintro ⟨hnoWill,hqos,hnoUser⟩
    exact {
      reserved := hreserved
      noWill := hnoWill
      willQos := hqos
      noUsername := hnoUser
      willTopic := hwill.isSome.1
      willPayload := hwill.isSome.2
      username := huser.isSome_iff
      password := hpass.isSome_iff }

/-- A CONNECT of the client `abc` that only asks for a clean session. -/
theorem followsFlagRules_clean : ∃ p : ConnectPacket 30 128,
    decode 64 [0x10,0x0F,0x00,0x04,0x4D,0x51,0x54,0x54,0x04,0x02,0x00,0x3C,0x00,0x03,0x61,0x62,0x63] =
      .ok p () ∧ p.FollowsFlagRules := by
  have hd : decode 64 [0x10,0x0F,0x00,0x04,0x4D,0x51,0x54,0x54,0x04,0x02,0x00,0x3C,0x00,0x03,0x61,
      0x62,0x63] = .ok (⟨⟨0x02⟩,60,(HeaplessString.tryFrom [0x61,0x62,0x63]).getD .new,none,none,none,
        none⟩ : ConnectPacket 30 128) () := by decide
  exact ⟨_,hd,(followsFlagRules_iff (by decide) hd).mpr (by decide)⟩

/-- The same CONNECT with the retain bit of a will that it does not have. -/
theorem willRetain_accepted : ¬ ∀ (bytes : Bytes) (p : ConnectPacket 30 128),
    decode 64 bytes = .ok p () → p.FollowsFlagRules := by
  intro h
  have hd : decode 64 [0x10,0x0F,0x00,0x04,0x4D,0x51,0x54,0x54,0x04,0x22,0x00,0x3C,0x00,0x03,0x61,
      0x62,0x63] = .ok (⟨⟨0x22⟩,60,(HeaplessString.tryFrom [0x61,0x62,0x63]).getD .new,none,none,none,
        none⟩ : ConnectPacket 30 128) () := by decide
  have hretain := ((h _ _ hd).noWill (by decide)).2.2
  revert hretain
  decide

end Rules

end ConnectPacket

end Picobroker
