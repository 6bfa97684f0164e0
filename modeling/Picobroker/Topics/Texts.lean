import Picobroker.Protocol.Strings
import Picobroker.Topics.Relation

/-! Filters by their text. The registry compares whole strings, the unused bytes included. These are
zero in every string that was built by calls, so that it compares texts. -/
namespace Picobroker
open Rust

variable {N T M B : ℕ}

namespace HeaplessString

variable {s t : HeaplessString N}

/-- Some calls build the string from a new one. -/
def Built (s : HeaplessString N) : Prop := ∃ o, Reachable (next o) new s

lemma next_blank {o : Overflow} {c : Call} (hN : N ≤ 255) (hs : s.Blank)
    (h : next o s c = some t) : t.Blank := by
  cases effect_of_next hN h with
  | kept hw => exact hs
  | built hw text hbytes hblank => exact hblank
  | appended hw text hbytes hpadding => exact hs.of_drop hpadding
  | wrote text hw hbytes hpadding => exact hs.of_drop hpadding

lemma Built.blank (hN : N ≤ 255) (h : s.Built) : s.Blank := by
  obtain ⟨o,hr⟩ := h
  exact hr.invariant (fun _ _ _ => next_blank hN) blank_new

lemma padding_length (s : HeaplessString N) : s.padding.length = N-s.length := by
  rw [padding,List.length_drop,s.data_length]

/-- Behind the stored bytes there are as many zeros as the capacity leaves. -/
lemma Blank.padding_eq (h : s.Blank) : s.padding = List.replicate (N-s.length) 0 :=
  List.eq_replicate_iff.mpr ⟨s.padding_length,h⟩

lemma Blank.eq_iff_bytes (hs : s.Blank) (ht : t.Blank) : s = t ↔ s.bytes = t.bytes := by
  constructor
  · intro h
    rw [h]
  · intro h
    have hlen : s.length = t.length := by rw [← s.bytes_length,h,t.bytes_length]
    have hdata : s.data = t.data := by
      rw [← s.bytes_append_padding,← t.bytes_append_padding,h,hs.padding_eq,ht.padding_eq,hlen]
    cases s
    cases t
    simp_all

lemma Built.eq_iff_bytes (hN : N ≤ 255) (hs : s.Built) (ht : t.Built) :
    s = t ↔ s.bytes = t.bytes := (hs.blank hN).eq_iff_bytes (ht.blank hN)

end HeaplessString

namespace TopicRegistry

open HeaplessString

variable {registry : TopicRegistry T M B} {sessionId : ℕ} {filter : TopicName T}

/-- The sessions with the texts of the filters they subscribe to. -/
def subscriptions (registry : TopicRegistry T M B) : Finset (ℕ × Bytes) :=
  registry.relation.image (Prod.map id bytes)

/-- All filters of the registry were built by calls. -/
def FiltersBuilt (registry : TopicRegistry T M B) : Prop := ∀ x ∈ registry.relation, x.2.Built

/-- The filter that a call names was built by calls. -/
def Call.FilterBuilt : Call T → Prop
  | .subscribe _ filter => filter.Built
  | .unsubscribe _ filter => filter.Built
  | _ => True

lemma filtersBuilt_new : (new : TopicRegistry T M B).FiltersBuilt := by
  intro x hx
  cases hx

lemma FiltersBuilt.next {call : Call T} {registry' : TopicRegistry T M B} (hw : registry.WellFormed)
    (h : registry.FiltersBuilt) (hc : call.FilterBuilt) (hn : registry.next call = some registry') :
    registry'.FiltersBuilt := by
  cases call with
  | subscribe sessionId filter =>
    change (registry.subscribe sessionId filter).state? = some registry' at hn
    cases ho : registry.subscribe sessionId filter with
    | ok u t =>
      rw [ho] at hn
      cases hn
      intro x hx
      rw [relation_subscribe ho,Finset.mem_insert] at hx
      obtain rfl | hx := hx
      · exact hc
      · exact h x hx
    | err error t =>
      rw [ho] at hn
      cases hn
      rw [(subscribe_err ho).1]
      exact h
    | abort why =>
      rw [ho] at hn
      cases hn
  | unsubscribe sessionId filter =>
    cases hn
    intro x hx
    rw [hw.relation_unsubscribe] at hx
    exact h x (Finset.mem_of_mem_erase hx)
  | unregisterAll sessionId =>
    cases hn
    intro x hx
    rw [(hw.relation_unregisterAll sessionId).1] at hx
    exact h x (Finset.mem_of_mem_filter x hx)
  | clearAll =>
    cases hn
    intro x hx
    rw [relation_clearAll] at hx
    cases hx

lemma filtersBuilt_of_run {h : List (TopicRegistry T M B × Call T)} (hr : Run next new h registry)
    (hc : ∀ e ∈ h, e.2.FilterBuilt) : registry.WellFormed ∧ registry.FiltersBuilt :=
  hr.invariant_of_mem (I := fun registry => registry.WellFormed ∧ registry.FiltersBuilt)
    (fun _ _ _ hI hc hn => ⟨hI.1.next hn,hI.2.next hI.1 hc hn⟩) ⟨wellFormed_new,filtersBuilt_new⟩ hc

/-- An entry is inhabited, so its filter is in the relation. -/
lemma FiltersBuilt.topicName (h : registry.FiltersBuilt) (hw : registry.WellFormed)
    {entry : TopicEntry T B} (he : entry ∈ registry.topics.asSlice) : entry.topicName.Built := by
  obtain ⟨sessionId,hs⟩ := List.exists_mem_of_ne_nil _ (hw.nonempty entry he)
  exact h (sessionId,entry.topicName) (mem_relation.mpr ⟨entry,he,rfl,hs⟩)

lemma FiltersBuilt.mem_subscriptions (hT : T ≤ 255) (h : registry.FiltersBuilt)
    (hf : filter.Built) : (sessionId,filter.bytes) ∈ registry.subscriptions ↔
      (sessionId,filter) ∈ registry.relation := by
  rw [subscriptions,Finset.mem_image]
  constructor
  · rintro ⟨⟨s,f⟩,hx,heq⟩
    obtain ⟨hs,hb⟩ := Prod.ext_iff.mp heq
    have hfilter : f = filter := ((h _ hx).eq_iff_bytes hT hf).mpr hb
    rwa [← hfilter,← show s = sessionId from hs]
  · intro hx
    exact ⟨_,hx,rfl⟩

/-- A filter of the registry is found by its text: at most one entry has the text, and the calls act on
the set of pairs of a session and a text. -/
structure ByText (registry : TopicRegistry T M B) (filter : TopicName T) : Prop where
  compares : ∀ entry ∈ registry.topics.asSlice,
    (entry.topicName == filter) = true ↔ entry.topicName.bytes = filter.bytes
  distinct : (registry.topics.asSlice.map (·.topicName.bytes)).Nodup
  subscribe_ok : ∀ sessionId registry', registry.subscribe sessionId filter = .ok () registry' →
    registry'.subscriptions = insert (sessionId,filter.bytes) registry.subscriptions
  unsubscribe_fst : ∀ sessionId, (registry.unsubscribe sessionId filter).1 = true ↔
    (sessionId,filter.bytes) ∈ registry.subscriptions
  unsubscribe_snd : ∀ sessionId, (registry.unsubscribe sessionId filter).2.subscriptions =
    registry.subscriptions.erase (sessionId,filter.bytes)

lemma FiltersBuilt.distinct (hT : T ≤ 255) (h : registry.FiltersBuilt) (hw : registry.WellFormed) :
    (registry.topics.asSlice.map (·.topicName.bytes)).Nodup := by
  have hmap : registry.topics.asSlice.map (·.topicName.bytes) =
      (registry.topics.asSlice.map (·.topicName)).map bytes := by
    rw [List.map_map]
    rfl
  rw [hmap]
  apply List.Nodup.map_on _ hw.distinct
  intro f hf g hg hb
  obtain ⟨e,he,rfl⟩ := List.mem_map.mp hf
  obtain ⟨e',he',rfl⟩ := List.mem_map.mp hg
  exact ((h.topicName hw he).eq_iff_bytes hT (h.topicName hw he')).mpr hb

lemma FiltersBuilt.injOn (hT : T ≤ 255) (h : registry.FiltersBuilt) :
    Set.InjOn (Prod.map id bytes) (registry.relation : Set (ℕ × TopicName T)) := by
  intro x hx y hy heq
  obtain ⟨hs,hb⟩ := Prod.ext_iff.mp heq
  exact Prod.ext hs (((h x hx).eq_iff_bytes hT (h y hy)).mpr hb)

lemma FiltersBuilt.subscriptions_unsubscribe (hT : T ≤ 255) (h : registry.FiltersBuilt)
    (hw : registry.WellFormed) (hf : filter.Built) (sessionId : ℕ) :
    (registry.unsubscribe sessionId filter).2.subscriptions =
      registry.subscriptions.erase (sessionId,filter.bytes) := by
  rw [subscriptions,hw.relation_unsubscribe]
  by_cases hmem : (sessionId,filter) ∈ registry.relation
  · rw [Finset.erase_eq,Finset.image_sdiff_of_injOn (h.injOn hT) (Finset.singleton_subset_iff.mpr hmem),
      Finset.image_singleton,Finset.erase_eq]
    rfl
  · have hmem' := (h.mem_subscriptions hT hf).not.mpr hmem
    rw [Finset.erase_eq_of_notMem hmem,Finset.erase_eq_of_notMem hmem']
    rfl

lemma FiltersBuilt.byText (hT : T ≤ 255) (h : registry.FiltersBuilt) (hw : registry.WellFormed)
    (hf : filter.Built) : registry.ByText filter where
  compares entry he := by
    rw [beq_iff_eq]
    exact (h.topicName hw he).eq_iff_bytes hT hf
  distinct := h.distinct hT hw
  subscribe_ok sessionId registry' hok := by
    rw [subscriptions,relation_subscribe hok,Finset.image_insert]
    rfl
  unsubscribe_fst sessionId := by
    rw [hw.unsubscribe_fst,h.mem_subscriptions hT hf]
  unsubscribe_snd := h.subscriptions_unsubscribe hT hw hf

end TopicRegistry

namespace HeaplessString

/-- Strings that were built by calls are equal exactly when they hold the same bytes, whatever the calls
were. In a registry that only saw such filters each of them is found by its text. -/
theorem equality_iff_bytes (hN : N ≤ 255) :
    (∀ s t : HeaplessString N, s.Built → t.Built → ((s == t) = true ↔ s.bytes = t.bytes)) ∧
    ∀ (registry : TopicRegistry N M B) (h : List (TopicRegistry N M B × TopicRegistry.Call N)),
      Run TopicRegistry.next .new h registry → (∀ e ∈ h, e.2.FilterBuilt) →
        ∀ filter : TopicName N, filter.Built → registry.ByText filter := by
  constructor
  · intro s t hs ht
    rw [beq_iff_eq]
    exact hs.eq_iff_bytes hN ht
  · intro registry h hr hc filter hf
    obtain ⟨hw,hb⟩ := TopicRegistry.filtersBuilt_of_run hr hc
    exact hb.byText hN hw hf

/-- The letter `a`, copied, and written over a longer text that was cleared away. -/
def copied : HeaplessString 1 :=
  (exec (next .checked) new [.tryFrom (.ofChar 'a')]).get (by decide)

def rewritten : HeaplessString 1 :=
  (exec (next .checked) new [.writeStr accented,.clear,.writeChar 'a']).get (by decide)

lemma built_of_exec {o : Overflow} {calls : List Call} {s : HeaplessString N}
    (h : exec (next o) new calls = some s) : s.Built := ⟨o,reachable_of_exec h⟩

/-- Session 1 subscribes to the one and is found under the other. -/
def joined : TopicRegistry 1 1 1 :=
  (TopicRegistry.next .new (.subscribe 1 rewritten)).get (by decide)

theorem equality_iff_bytes_rewritten : ((copied == rewritten) = true ↔ copied.bytes = rewritten.bytes) ∧
    joined.ByText copied := by
  have hcopied : copied.Built := built_of_exec (Option.some_get (by decide)).symm
  have hrewritten : rewritten.Built := built_of_exec (Option.some_get (by decide)).symm
  refine ⟨(equality_iff_bytes (M := 1) (B := 1) (by decide)).1 _ _ hcopied hrewritten,?_⟩
  apply (equality_iff_bytes (by decide)).2 joined [(.new,.subscribe 1 rewritten)]
  · exact .cons (Option.some_get (by decide)).symm (.nil joined)
  · intro e he
    rw [List.mem_singleton] at he
    rw [he]
    exact hrewritten
  · exact hcopied

end HeaplessString

end Picobroker
