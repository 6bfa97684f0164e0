import Picobroker.Topics.Matching
import Picobroker.Protocol.Heapless
import Picobroker.Protocol.Basic
import Picobroker.Rust.Runs

/-! The topic registry: a bounded table of filters, each with its bounded list of subscribers. -/
namespace Picobroker
open Rust

variable {T M B : ℕ}

/-- `TopicEntry<MAX_TOPIC_NAME_LENGTH, MAX_SUBSCRIBERS_PER_TOPIC>`. -/
structure TopicEntry (T B : ℕ) where
  topicName : TopicName T
  subscribers : HeaplessVec ℕ B
  deriving DecidableEq, Repr

namespace TopicEntry

def new (topicName : TopicName T) : TopicEntry T B := ⟨topicName,.new⟩

@[simp] lemma new_topicName (topicName : TopicName T) :
    (new topicName : TopicEntry T B).topicName = topicName := rfl
@[simp] lemma new_subscribers (topicName : TopicName T) :
    (new topicName : TopicEntry T B).subscribers = .new := rfl

instance : Inhabited (TopicEntry T B) := ⟨new default⟩

def isEmpty (entry : TopicEntry T B) : Bool := entry.subscribers.isEmpty

def addSubscriber (sessionId : ℕ) : Proc (TopicEntry T B) BrokerError Unit := do
  let entry ← Proc.get
  if sessionId ∈ entry.subscribers.asSlice then pure ()
  else
    let current := entry.subscribers.len
    Proc.zoom subscribers (fun subscribers entry => { entry with subscribers })
      ((HeaplessVec.push sessionId).mapErr (fun _ => .maxSubscribersPerTopicReached current B))

def removeSubscriber (sessionId : ℕ) (entry : TopicEntry T B) : Bool × TopicEntry T B :=
  let r := entry.subscribers.removeFirst (· == sessionId)
  (r.1,{ entry with subscribers := r.2 })

/-- What adding a subscriber can do. -/
lemma addSubscriber_cases (sessionId : ℕ) (entry : TopicEntry T B) :
    (sessionId ∈ entry.subscribers.asSlice ∧ addSubscriber sessionId entry = .ok () entry) ∨
    (sessionId ∉ entry.subscribers.asSlice ∧ B ≤ entry.subscribers.length ∧
      addSubscriber sessionId entry =
        .err (.maxSubscribersPerTopicReached entry.subscribers.length B) entry) ∨
    (entry.subscribers.length = 65535 ∧ 65535 < B ∧
      addSubscriber sessionId entry = .abort .panic) ∨
    (sessionId ∉ entry.subscribers.asSlice ∧ entry.subscribers.HasRoom ∧ ∃ subscribers,
      subscribers.asSlice = entry.subscribers.asSlice ++ [sessionId] ∧
      addSubscriber sessionId entry = .ok () ⟨entry.topicName,subscribers⟩) := by
  unfold addSubscriber
  by_cases h : sessionId ∈ entry.subscribers.asSlice
  · exact .inl ⟨h,by simp [h]⟩
  · right
    obtain ⟨hB,hp⟩ | ⟨hB,hl,hp⟩ | ⟨hB,hl,w,hp,hw⟩ :=
      HeaplessVec.push_cases entry.subscribers sessionId
    · exact .inl ⟨h,hB,by simp [h,hp,HeaplessVec.len]⟩
    · exact .inr (.inl ⟨hl,by omega,by simp [h,hp]⟩)
    · exact .inr (.inr ⟨h,⟨hB,hl⟩,w,hw,by simp [h,hp]⟩)

@[simp] lemma removeSubscriber_fst (sessionId : ℕ) (entry : TopicEntry T B) :
    (entry.removeSubscriber sessionId).1 = entry.subscribers.asSlice.elem sessionId := by
  rw [removeSubscriber,HeaplessVec.removeFirst_fst,List.elem_eq_contains,List.contains_eq_any_beq]
  congr 1
  funext x
  exact Bool.beq_comm

@[simp] lemma removeSubscriber_topicName (sessionId : ℕ) (entry : TopicEntry T B) :
    (entry.removeSubscriber sessionId).2.topicName = entry.topicName := rfl

@[simp] lemma removeSubscriber_subscribers (sessionId : ℕ) (entry : TopicEntry T B) :
    (entry.removeSubscriber sessionId).2.subscribers.asSlice =
      entry.subscribers.asSlice.erase sessionId := by
  rw [removeSubscriber,HeaplessVec.asSlice_removeFirst,List.erase_eq_eraseP]
  congr 1
  funext x
  exact Bool.beq_comm

end TopicEntry

/-- `TopicRegistry<MAX_TOPIC_NAME_LENGTH, MAX_TOPICS, MAX_SUBSCRIBERS_PER_TOPIC>`. -/
structure TopicRegistry (T M B : ℕ) where
  topics : HeaplessVec (TopicEntry T B) M
  deriving DecidableEq, Repr

namespace TopicRegistry

def new : TopicRegistry T M B := ⟨.new⟩

/-- The `else` branch of `subscribe`: the filter gets an entry of its own. -/
def addEntry (sessionId : ℕ) (filter : TopicName T) :
    Proc (HeaplessVec (TopicEntry T B) M) BrokerError Unit := do
  let current := (← Proc.get).len
  Proc.failIf (M ≤ current) (.maxTopicsReached current M)
  let newEntry ← Proc.onLocal (TopicEntry.addSubscriber sessionId) (TopicEntry.new filter)
  (HeaplessVec.push newEntry).mapErr (fun _ => .bufferFull)

def subscribe (sessionId : ℕ) (filter : TopicName T) :
    Proc (TopicRegistry T M B) BrokerError Unit :=
  Proc.zoom topics (fun topics _ => ⟨topics⟩)
    (HeaplessVec.findMut (·.topicName == filter) (TopicEntry.addSubscriber sessionId)
      (addEntry sessionId filter))

/-- The inner loop of `get_subscribers`, on one subscriber. -/
def collectSubscriber (subId : ℕ) : Proc (HeaplessVec ℕ B) BrokerError Unit := do
  let subscribers ← Proc.get
  if subId ∈ subscribers.asSlice then pure () else Proc.discard (HeaplessVec.push subId)

/-- The outer loop of `get_subscribers`, on one entry. -/
def collectEntry (publishedTopic : Bytes) (entry : TopicEntry T B) :
    Proc (HeaplessVec ℕ B) BrokerError Unit :=
  if topicMatches publishedTopic entry.topicName.asStr then
    Proc.forEach collectSubscriber entry.subscribers.asSlice
  else pure ()

/-- No result when the length of the collected vector overflows. -/
def getSubscribers (registry : TopicRegistry T M B) (topic : TopicName T) :
    Option (HeaplessVec ℕ B) :=
  (Proc.forEach (collectEntry topic.asStr) registry.topics.asSlice .new).state?

def unsubscribe (sessionId : ℕ) (filter : TopicName T) (registry : TopicRegistry T M B) :
    Bool × TopicRegistry T M B :=
  match registry.topics.asSlice.findFinIdx? (·.topicName == filter) with
  | some idx =>
    let r := registry.topics.asSlice[idx].removeSubscriber sessionId
    let topics := registry.topics.store idx r.2
    (r.1,⟨if r.2.isEmpty then
        topics.remove idx (idx.isLt.trans_eq registry.topics.asSlice_length)
      else topics⟩)
  | none => (false,registry)

/-- The number of entries that lost the session. -/
def unregisterAll (sessionId : ℕ) (registry : TopicRegistry T M B) : ℕ × TopicRegistry T M B :=
  let r := registry.topics.iterMut (TopicEntry.removeSubscriber sessionId)
  (r.1.count true,⟨r.2.retain (fun entry => !entry.isEmpty)⟩)

def topicCount (registry : TopicRegistry T M B) : ℕ := registry.topics.len

def subscriptionCount (registry : TopicRegistry T M B) : ℕ :=
  (registry.topics.asSlice.map (·.subscribers.len)).sum

def clearAll (registry : TopicRegistry T M B) : TopicRegistry T M B := ⟨registry.topics.clear⟩

/-- What adding an entry can do. -/
lemma addEntry_cases (sessionId : ℕ) (filter : TopicName T)
    (topics : HeaplessVec (TopicEntry T B) M) :
    (M ≤ topics.length ∧
      addEntry sessionId filter topics = .err (.maxTopicsReached topics.length M) topics) ∨
    (B = 0 ∧ addEntry sessionId filter topics = .err (.maxSubscribersPerTopicReached 0 B) topics) ∨
    (topics.length = 65535 ∧ 65535 < M ∧ addEntry sessionId filter topics = .abort .panic) ∨
    (topics.HasRoom ∧ 0 < B ∧ ∃ subscribers topics', subscribers.asSlice = [sessionId] ∧
      topics'.asSlice = topics.asSlice ++ [⟨filter,subscribers⟩] ∧
      addEntry sessionId filter topics = .ok () topics') := by
  by_cases hM : M ≤ topics.length
  · exact .inl ⟨hM,by simp [addEntry,HeaplessVec.len,hM]⟩
  right
  obtain ⟨hs,-⟩ | ⟨-,hB,ha⟩ | ⟨hl,-⟩ | ⟨-,⟨hB,-⟩,w,hw,ha⟩ :=
    TopicEntry.addSubscriber_cases (B := B) sessionId (TopicEntry.new filter)
  · simp at hs
  · exact .inl ⟨by simpa using hB,by simp [addEntry,HeaplessVec.len,hM,Proc.onLocal_err ha]⟩
  · simp at hl
  right
  obtain ⟨hM',-⟩ | ⟨hM',hl,hp⟩ | ⟨hM',hl,topics',hp,ht⟩ :=
    HeaplessVec.push_cases topics ⟨filter,w⟩
  · exact absurd hM' hM
  · refine .inl ⟨hl,by omega,?_⟩
    simp [addEntry,HeaplessVec.len,hM,Proc.onLocal_ok ha,hp]
  · refine .inr ⟨⟨hM',hl⟩,hB,w,topics',by simpa using hw,ht,?_⟩
    simp [addEntry,HeaplessVec.len,hM,Proc.onLocal_ok ha,hp]

/-- What subscribing can do. -/
inductive Subscribes (sessionId : ℕ) (filter : TopicName T) (registry : TopicRegistry T M B) :
    Outcome (TopicRegistry T M B) BrokerError Unit → Prop
  | already {entry} (mem : entry ∈ registry.topics.asSlice) (name : entry.topicName = filter)
      (listed : sessionId ∈ entry.subscribers.asSlice) : Subscribes sessionId filter registry (.ok () registry)
  | entryFull {entry} (mem : entry ∈ registry.topics.asSlice) (name : entry.topicName = filter)
      (unlisted : sessionId ∉ entry.subscribers.asSlice) (full : B ≤ entry.subscribers.length) :
      Subscribes sessionId filter registry
        (.err (.maxSubscribersPerTopicReached entry.subscribers.length B) registry)
  | entryOverflow {entry} (mem : entry ∈ registry.topics.asSlice) (name : entry.topicName = filter)
      (length : entry.subscribers.length = 65535) (capacity : 65535 < B) :
      Subscribes sessionId filter registry (.abort .panic)
  | joined {pre entry post subscribers} {registry' : TopicRegistry T M B}
      (split : registry.topics.asSlice = pre ++ entry::post) (name : entry.topicName = filter)
      (unlisted : sessionId ∉ entry.subscribers.asSlice) (room : entry.subscribers.HasRoom)
      (subscribers_eq : subscribers.asSlice = entry.subscribers.asSlice ++ [sessionId])
      (topics_eq : registry'.topics.asSlice = pre ++ ⟨filter,subscribers⟩::post) :
      Subscribes sessionId filter registry (.ok () registry')
  | tableFull (absent : ∀ e ∈ registry.topics.asSlice, e.topicName ≠ filter)
      (full : M ≤ registry.topics.length) :
      Subscribes sessionId filter registry (.err (.maxTopicsReached registry.topics.length M) registry)
  | noSubscribers (absent : ∀ e ∈ registry.topics.asSlice, e.topicName ≠ filter) (capacity : B = 0) :
      Subscribes sessionId filter registry (.err (.maxSubscribersPerTopicReached 0 B) registry)
  | tableOverflow (absent : ∀ e ∈ registry.topics.asSlice, e.topicName ≠ filter)
      (length : registry.topics.length = 65535) (capacity : 65535 < M) :
      Subscribes sessionId filter registry (.abort .panic)
  | added {subscribers} {registry' : TopicRegistry T M B}
      (absent : ∀ e ∈ registry.topics.asSlice, e.topicName ≠ filter)
      (room : registry.topics.HasRoom) (capacity : 0 < B)
      (subscribers_eq : subscribers.asSlice = [sessionId])
      (topics_eq : registry'.topics.asSlice = registry.topics.asSlice ++ [⟨filter,subscribers⟩]) :
      Subscribes sessionId filter registry (.ok () registry')

lemma subscribe_spec (sessionId : ℕ) (filter : TopicName T) (registry : TopicRegistry T M B) :
    Subscribes sessionId filter registry (subscribe sessionId filter registry) := by
  obtain ⟨hno,hf⟩ | ⟨pre,entry,post,hv,-,hp,hself,hset,hf⟩ := HeaplessVec.findMut_cases
    (·.topicName == filter) (TopicEntry.addSubscriber sessionId) (addEntry sessionId filter)
    registry.topics
  · have habsent : ∀ e ∈ registry.topics.asSlice, e.topicName ≠ filter := by
      intro e he
      simpa using hno e he
    rw [subscribe,Proc.zoom_apply,hf]
    obtain ⟨hM,ha⟩ | ⟨hB,ha⟩ | ⟨hl,hM,ha⟩ | ⟨hM,hB,w,topics,hw,ht,ha⟩ :=
      addEntry_cases sessionId filter registry.topics
    · rw [ha]
      exact .tableFull habsent hM
    · rw [ha]
      exact .noSubscribers habsent hB
    · rw [ha]
      exact .tableOverflow habsent hl hM
    · rw [ha]
      exact .added habsent hM hB hw ht
  · have hmem : entry ∈ registry.topics.asSlice := by simp [hv]
    have hname : entry.topicName = filter := by simpa using hp
    rw [subscribe,Proc.zoom_apply,hf,Outcome.mapState_mapState]
    obtain ⟨hs,ha⟩ | ⟨hs,hB,ha⟩ | ⟨hl,hB,ha⟩ | ⟨hs,hB,w,hw,ha⟩ :=
      TopicEntry.addSubscriber_cases sessionId entry
    · rw [ha,Outcome.mapState_ok,Function.comp_apply,hself]
      exact .already hmem hname hs
    · rw [ha,Outcome.mapState_err,Function.comp_apply,hself]
      exact .entryFull hmem hname hs hB
    · rw [ha]
      exact .entryOverflow hmem hname hl hB
    · rw [ha,hname]
      exact .joined hv hname hs hB hw (hset _)

/-- Every list of subscribers satisfies `P`. -/
def EveryEntry (P : List ℕ → Prop) (registry : TopicRegistry T M B) : Prop :=
  ∀ entry ∈ registry.topics.asSlice, P entry.subscribers.asSlice

/-- No two entries have the same filter. -/
def Distinct (registry : TopicRegistry T M B) : Prop :=
  (registry.topics.asSlice.map (·.topicName)).Nodup

variable {sessionId : ℕ} {filter : TopicName T} {registry : TopicRegistry T M B}

lemma everyEntry_new (P : List ℕ → Prop) : EveryEntry P (new : TopicRegistry T M B) := by
  intro entry he
  cases he

lemma distinct_new : Distinct (new : TopicRegistry T M B) := List.nodup_nil

/-- A property of subscriber lists that holds of a single subscriber and survives a new one holds of
every entry after subscribing. -/
lemma subscribe_everyEntry {P : List ℕ → Prop} (hone : P [sessionId])
    (hadd : ∀ l, P l → sessionId ∉ l → P (l ++ [sessionId])) (h : EveryEntry P registry) :
    (subscribe sessionId filter registry).Leaves (EveryEntry P) := by
  have hs := subscribe_spec sessionId filter registry
  generalize subscribe sessionId filter registry = o at hs ⊢
  cases hs with
  | already => exact Outcome.leaves_ok.mpr h
  | entryFull => exact Outcome.leaves_err.mpr h
  | entryOverflow => exact Outcome.leaves_abort _ _
  | @joined pre entry post w _ hv hname hn _ hw ht =>
    rw [Outcome.leaves_ok]
    intro e he
    rw [EveryEntry,hv] at h
    rw [ht,List.mem_append,List.mem_cons] at he
    obtain he | he | he := he
    · exact h e (by simp [he])
    · rw [he,hw]
      exact hadd _ (h entry (by simp)) hn
    · exact h e (by simp [he])
  | tableFull => exact Outcome.leaves_err.mpr h
  | noSubscribers => exact Outcome.leaves_err.mpr h
  | tableOverflow => exact Outcome.leaves_abort _ _
  | added _ _ _ hw ht =>
    rw [Outcome.leaves_ok]
    intro e he
    rw [ht,List.mem_append,List.mem_singleton] at he
    obtain he | he := he
    · exact h e he
    · rw [he,hw]
      exact hone

lemma subscribe_distinct (h : Distinct registry) :
    (subscribe sessionId filter registry).Leaves Distinct := by
  have hs := subscribe_spec sessionId filter registry
  generalize subscribe sessionId filter registry = o at hs ⊢
  cases hs with
  | already => exact Outcome.leaves_ok.mpr h
  | entryFull => exact Outcome.leaves_err.mpr h
  | entryOverflow => exact Outcome.leaves_abort _ _
  | joined hv hname _ _ _ ht =>
    rw [Outcome.leaves_ok,Distinct,ht]
    rw [Distinct,hv] at h
    simpa [hname] using h
  | tableFull => exact Outcome.leaves_err.mpr h
  | noSubscribers => exact Outcome.leaves_err.mpr h
  | tableOverflow => exact Outcome.leaves_abort _ _
  | added habsent _ _ _ ht =>
    rw [Outcome.leaves_ok,Distinct,ht,List.map_append,List.nodup_append]
    refine ⟨h,List.nodup_singleton _,?_⟩
    intro a ha b hb
    obtain ⟨e,he,rfl⟩ := List.mem_map.mp ha
    rw [List.map_singleton,List.mem_singleton] at hb
    rw [hb]
    exact habsent e he

/-- A refused subscription changes nothing. Either the table of filters is full, or the entry it would
go to is. -/
lemma subscribe_err {registry' : TopicRegistry T M B} {error : BrokerError}
    (h : subscribe sessionId filter registry = .err error registry') :
    registry' = registry ∧ ((∃ current, error = .maxTopicsReached current M) ∨
      ∃ current, error = .maxSubscribersPerTopicReached current B ∧ (B = 0 ∨
        ∃ entry ∈ registry.topics.asSlice, sessionId ∉ entry.subscribers.asSlice ∧
          B ≤ entry.subscribers.length)) := by
  have hs := subscribe_spec sessionId filter registry
  rw [h] at hs
  cases hs with
  | entryFull mem _ unlisted full => exact ⟨rfl,.inr ⟨_,rfl,.inr ⟨_,mem,unlisted,full⟩⟩⟩
  | tableFull => exact ⟨rfl,.inl ⟨_,rfl⟩⟩
  | noSubscribers _ capacity => exact ⟨rfl,.inr ⟨_,rfl,.inl capacity⟩⟩

lemma subscribe_returns (hM : M ≤ 65535) (hB : B ≤ 65535) :
    (subscribe sessionId filter registry).Returns := by
  have hs := subscribe_spec sessionId filter registry
  intro why hw
  rw [hw] at hs
  cases hs with
  | entryOverflow _ _ _ capacity => omega
  | tableOverflow _ _ capacity => omega

/-- There is room for a new subscription of the session under the filter. -/
def Accepts (registry : TopicRegistry T M B) (sessionId : ℕ) (filter : TopicName T) : Prop :=
  (∃ entry ∈ registry.topics.asSlice, entry.topicName = filter ∧
    sessionId ∉ entry.subscribers.asSlice ∧ entry.subscribers.HasRoom) ∨
  ((∀ entry ∈ registry.topics.asSlice, entry.topicName ≠ filter) ∧ registry.topics.HasRoom ∧ 0 < B)

instance : Decidable (registry.Accepts sessionId filter) :=
  inferInstanceAs (Decidable ((∃ _ ∈ _, _) ∨ _))

/-- What is accepted under the filter of an entry goes to that entry: no other has its name. -/
lemma Accepts.of_name (hacc : registry.Accepts sessionId filter) (hd : Distinct registry)
    {entry : TopicEntry T B} (hmem : entry ∈ registry.topics.asSlice)
    (hname : entry.topicName = filter) :
    sessionId ∉ entry.subscribers.asSlice ∧ entry.subscribers.HasRoom := by
  obtain ⟨entry',hmem',hname',hn,hroom⟩ | ⟨habsent,-⟩ := hacc
  · have heq : entry = entry' := List.inj_on_of_nodup_map hd hmem hmem' (hname.trans hname'.symm)
    rw [heq]
    exact ⟨hn,hroom⟩
  · exact absurd hname (habsent entry hmem)

lemma Accepts.of_absent (hacc : registry.Accepts sessionId filter)
    (habsent : ∀ entry ∈ registry.topics.asSlice, entry.topicName ≠ filter) :
    registry.topics.HasRoom ∧ 0 < B := by
  obtain ⟨entry,hmem,hname,-⟩ | ⟨-,h⟩ := hacc
  · exact absurd hname (habsent entry hmem)
  · exact h

/-- Subscribing changes the registry exactly when there is room for something new. -/
lemma subscribe_changes_iff (hd : Distinct registry) :
    (∃ registry', subscribe sessionId filter registry = .ok () registry' ∧ registry' ≠ registry) ↔
      registry.Accepts sessionId filter := by
  have hs := subscribe_spec sessionId filter registry
  constructor
  · intro ⟨registry',hok,hne⟩
    rw [hok] at hs
    cases hs with
    | already => exact absurd rfl hne
    | @joined pre entry post _ _ split name unlisted room _ _ =>
      exact .inl ⟨entry,by simp [split],name,unlisted,room⟩
    | added absent room capacity _ _ => exact .inr ⟨absent,room,capacity⟩
  · intro hacc
    generalize subscribe sessionId filter registry = o at hs ⊢
    cases hs with
    | already mem name listed => exact absurd listed (hacc.of_name hd mem name).1
    | entryFull mem name _ full => exact absurd (hacc.of_name hd mem name).2.1 (by omega)
    | entryOverflow mem name length _ => exact absurd (hacc.of_name hd mem name).2.2 (by omega)
    | @joined pre entry post w r' hv hname hn hroom hw ht =>
      refine ⟨r',rfl,?_⟩
      intro heq
      rw [heq,hv,List.append_cancel_left_eq,List.cons.injEq] at ht
      rw [ht.1] at hn
      simp [hw] at hn
    | tableFull absent full => exact absurd (hacc.of_absent absent).1.1 (by omega)
    | noSubscribers absent capacity => exact absurd (hacc.of_absent absent).2 (by omega)
    | tableOverflow absent length _ => exact absurd (hacc.of_absent absent).1.2 (by omega)
    | @added w r' absent hroom capacity _ ht =>
      refine ⟨r',rfl,?_⟩
      intro heq
      simp [heq] at ht

/-- Unregistering takes the session out of every entry and drops the entries that lose their last
subscriber. -/
lemma unregisterAll_asSlice (sessionId : ℕ) (registry : TopicRegistry T M B) :
    (registry.unregisterAll sessionId).2.topics.asSlice =
      (registry.topics.asSlice.map (fun e => (e.removeSubscriber sessionId).2)).filter
        (fun e => !e.isEmpty) := by
  rw [unregisterAll,HeaplessVec.asSlice_retain,HeaplessVec.asSlice_iterMut]

lemma unregisterAll_everyEntry {P Q : List ℕ → Prop} (herase : ∀ l, P l → Q (l.erase sessionId))
    (h : EveryEntry P registry) : EveryEntry Q (registry.unregisterAll sessionId).2 := by
  intro e he
  rw [unregisterAll_asSlice] at he
  obtain ⟨e,he',rfl⟩ := List.mem_map.mp (List.mem_of_mem_filter he)
  rw [TopicEntry.removeSubscriber_subscribers]
  exact herase _ (h e he')

lemma unregisterAll_distinct (h : Distinct registry) :
    Distinct (registry.unregisterAll sessionId).2 := by
  rw [Distinct,unregisterAll_asSlice]
  refine List.Nodup.sublist (List.Sublist.map _ List.filter_sublist) ?_
  rw [List.map_map]
  exact h

/-- Filters are pairwise distinct, no entry is empty and no entry lists a session twice. -/
structure WellFormed (registry : TopicRegistry T M B) : Prop where
  distinct : registry.Distinct
  nodup : registry.EveryEntry List.Nodup
  nonempty : registry.EveryEntry (· ≠ [])

lemma wellFormed_new : WellFormed (new : TopicRegistry T M B) :=
  ⟨distinct_new,everyEntry_new _,everyEntry_new _⟩

lemma WellFormed.subscribe (h : registry.WellFormed) (sessionId : ℕ) (filter : TopicName T) :
    (subscribe sessionId filter registry).Leaves WellFormed := by
  have hnodup : ∀ l : List ℕ, l.Nodup → sessionId ∉ l → (l ++ [sessionId]).Nodup := by
    intro l hl hs
    rw [List.nodup_append]
    refine ⟨hl,List.nodup_singleton _,?_⟩
    intro a ha b hb hab
    rw [List.mem_singleton] at hb
    apply hs
    rw [← hb,← hab]
    exact ha
  have hd : (TopicRegistry.subscribe sessionId filter registry).Leaves Distinct :=
    subscribe_distinct h.distinct
  have hn : (TopicRegistry.subscribe sessionId filter registry).Leaves (EveryEntry List.Nodup) :=
    subscribe_everyEntry (List.nodup_singleton _) hnodup h.nodup
  have he : (TopicRegistry.subscribe sessionId filter registry).Leaves (EveryEntry (· ≠ [])) :=
    subscribe_everyEntry (List.cons_ne_nil _ _)
      (fun l _ _ => List.append_ne_nil_of_right_ne_nil l (List.cons_ne_nil _ _)) h.nonempty
  exact (hd.and (hn.and he)).imp (fun r hr => ⟨hr.1,hr.2.1,hr.2.2⟩)

lemma isEmpty_iff (entry : TopicEntry T B) :
    entry.isEmpty = true ↔ entry.subscribers.asSlice = [] := by
  rw [TopicEntry.isEmpty,HeaplessVec.isEmpty,beq_iff_eq,← HeaplessVec.asSlice_length,
    List.length_eq_zero_iff]

lemma WellFormed.unregisterAll (h : registry.WellFormed) (sessionId : ℕ) :
    (registry.unregisterAll sessionId).2.WellFormed := by
  refine ⟨unregisterAll_distinct h.distinct,
    unregisterAll_everyEntry (fun l hl => hl.erase sessionId) h.nodup,?_⟩
  intro e he
  rw [unregisterAll_asSlice] at he
  have hne := List.of_mem_filter he
  rw [Bool.not_eq_true',← Bool.not_eq_true,isEmpty_iff] at hne
  exact hne

end TopicRegistry

end Picobroker
