import Picobroker.Protocol.Vectors
import Picobroker.Topics.Settled
import Picobroker.Session.Session

/-! The derived equality of the values that hold vectors. It compares whole backing arrays, so that it
is equality of what can be seen only where nothing was left behind the contents. -/
namespace Picobroker
open Rust Rust.BoundedList HeaplessVec

variable {α κ : Type} {N T M B P Q : ℕ}

namespace Session

variable {session session' : Session T P Q}

/-- The same metadata and the same packets in the queues. -/
structure SameVisible (session session' : Session T P Q) : Prop where
  sessionId : session.sessionId = session'.sessionId
  clientId : session.clientId = session'.clientId
  state : session.state = session'.state
  keepAliveSecs : session.keepAliveSecs = session'.keepAliveSecs
  lastActivity : session.lastActivity = session'.lastActivity
  rxQueue : session.rxQueue.asSlice = session'.rxQueue.asSlice
  txQueue : session.txQueue.asSlice = session'.txQueue.asSlice

/-- The queues were reached by calls that leave nothing behind. -/
structure ReachedSettled (κ : Type) (session : Session T P Q) : Prop where
  rxQueue : HeaplessVec.ReachedSettled κ session.rxQueue
  txQueue : HeaplessVec.ReachedSettled κ session.txQueue

lemma ReachedSettled.eq_iff_sameVisible (hQ : Q ≤ 65535) (h : session.ReachedSettled κ)
    (h' : session'.ReachedSettled κ) : session = session' ↔ session.SameVisible session' := by
  constructor
  · intro heq
    subst heq
    constructor <;> rfl
  · rintro ⟨h₁,h₂,h₃,h₄,h₅,hrx,htx⟩
    have hrx := (eq_iff_asSlice (h.rxQueue.tidy hQ) (h'.rxQueue.tidy hQ)).mpr hrx
    have htx := (eq_iff_asSlice (h.txQueue.tidy hQ) (h'.txQueue.tidy hQ)).mpr htx
    cases session
    cases session'
    simp_all

end Session

namespace HeaplessVec

/-- In a run of calls on a vector every state equals exactly the settled vectors with the same contents
when every call settles, and not otherwise. Where all calls settle, topic registries are equal exactly when
they have the same entries, and sessions when they show the same. -/
theorem equality_iff_settled [Inhabited α] [DecidableEq α] (hN : N ≤ 65535) {v : HeaplessVec α N}
    {h : List (HeaplessVec α N × Call α κ)} (hr : Run next new h v) :
    ((∀ u ∈ visited h v, ∀ w : HeaplessVec α N, ReachedSettled κ w →
        ((u == w) = true ↔ u.asSlice = w.asSlice)) ↔ ∀ e ∈ h, e.1.Settles e.2) ∧
    (∀ registry registry' : TopicRegistry T M B, registry.ReachedSettled → registry'.ReachedSettled →
      ((registry == registry') = true ↔ registry.groups = registry'.groups)) ∧
    ∀ session session' : Session T P N, session.ReachedSettled κ → session'.ReachedSettled κ →
      ((session == session') = true ↔ session.SameVisible session') := by
  simp only [beq_iff_eq]
  refine ⟨visited_eq_iff hN hr,?_,?_⟩
  · intro registry registry' h h'
    exact h.tidy.eq_iff_groups h'.tidy
  · intro session session' h h'
    exact h.eq_iff_sameVisible hN h'

/-- An element is pushed and popped, and one is pushed and cleared away. -/
def poppedCalls : List (Call ℕ Unit) := [.push 1,.pop]
def clearedCalls : List (Call ℕ Unit) := [.push 1,.clear]

def popped : HeaplessVec ℕ 1 := (exec next new poppedCalls).get (by decide)
def cleared : HeaplessVec ℕ 1 := (exec next new clearedCalls).get (by decide)

/-- `pop` puts the default into the slot, and the vector is as good as new. -/
theorem equality_iff_settled_popped :
    ((∀ u ∈ visited (trace next new poppedCalls) popped, ∀ w : HeaplessVec ℕ 1,
        ReachedSettled Unit w → ((u == w) = true ↔ u.asSlice = w.asSlice)) ↔
      ∀ e ∈ trace next (new : HeaplessVec ℕ 1) poppedCalls, e.1.Settles e.2) ∧
    (∀ registry registry' : TopicRegistry 1 1 1, registry.ReachedSettled → registry'.ReachedSettled →
      ((registry == registry') = true ↔ registry.groups = registry'.groups)) ∧
    ∀ session session' : Session 1 1 1, session.ReachedSettled Unit → session'.ReachedSettled Unit →
      ((session == session') = true ↔ session.SameVisible session') :=
  equality_iff_settled (by decide) (run_trace (Option.some_get (by decide)).symm)

/-- Session 1 subscribes to `a` and unsubscribes again. -/
def returnedCalls : List (TopicRegistry.Call 1) :=
  [.subscribe 1 ((HeaplessString.tryFrom [0x61]).getD .new),
    .unsubscribe 1 ((HeaplessString.tryFrom [0x61]).getD .new)]

def returned : TopicRegistry 1 1 1 := (exec TopicRegistry.next .new returnedCalls).get (by decide)

/-- `clear` leaves the element in its slot, and `unsubscribe` removes an entry that stays in its own. -/
theorem same_contents_unequal :
    (¬ ∀ v w : HeaplessVec ℕ 1, Reachable (next (κ := Unit)) new v →
      Reachable (next (κ := Unit)) new w → ((v == w) = true ↔ v.asSlice = w.asSlice)) ∧
    ¬ ∀ registry registry' : TopicRegistry 1 1 1, Reachable TopicRegistry.next .new registry →
      Reachable TopicRegistry.next .new registry' → registry.groups = registry'.groups →
        (registry == registry') = true := by
  constructor
  · intro h
    have hexec : exec next new clearedCalls = some cleared := (Option.some_get (by decide)).symm
    have hc := reachable_of_exec hexec
    have heq := (h cleared new hc (.refl next new)).mpr (by decide)
    exact absurd heq (by decide)
  · intro h
    have hexec : exec TopicRegistry.next .new returnedCalls = some returned :=
      (Option.some_get (by decide)).symm
    have hr := reachable_of_exec hexec
    have heq := h returned .new hr (.refl TopicRegistry.next .new) (by decide)
    exact absurd heq (by decide)

end HeaplessVec

end Picobroker
