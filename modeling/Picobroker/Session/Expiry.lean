import Picobroker.Session.Refinement

/-! Which sessions are reported as expired. The half of an odd keep-alive is cut off while it is still
counted in seconds. -/
namespace Picobroker
open Rust

variable {T P Q S : ℕ}

namespace ExpirationInfo

/-- More than one and a half keep-alive periods have passed, unless keep-alive is off. -/
def Overdue (info : ExpirationInfo) : Prop :=
  info.keepAliveSecs ≠ 0 ∧
    3*info.keepAliveSecs.toNat*1000000000 < 2*(info.currentTime-info.lastActivity)

/-- The keep-alive is odd, and the time passed is in the last half second of one and a half
periods. -/
def InHalfSecond (info : ExpirationInfo) : Prop :=
  info.keepAliveSecs.toNat % 2 = 1 ∧
    (3*info.keepAliveSecs.toNat-1)*1000000000 < 2*(info.currentTime-info.lastActivity) ∧
    2*(info.currentTime-info.lastActivity) ≤ 3*info.keepAliveSecs.toNat*1000000000

instance (info : ExpirationInfo) : Decidable info.Overdue := inferInstanceAs (Decidable (_ ∧ _))
instance (info : ExpirationInfo) : Decidable info.InHalfSecond :=
  inferInstanceAs (Decidable (_ ∧ _ ∧ _))

lemma isExpired_eq (info : ExpirationInfo) : info.isExpired = true ↔ info.keepAliveSecs ≠ 0 ∧
    info.keepAliveSecs.toNat*3/2*1000000000 < info.currentTime-info.lastActivity := by
  by_cases h : info.keepAliveSecs = 0
  · simp [isExpired,h]
  · simp [isExpired,h]

/-- In the half second that is cut off, and only there, a session expires too early. -/
lemma isExpired_iff (info : ExpirationInfo) :
    info.isExpired = true ↔ info.Overdue ∨ info.InHalfSecond := by
  rw [isExpired_eq,Overdue,InHalfSecond,ne_eq,← UInt16.toNat_inj]
  simp only [UInt16.toNat_zero]
  omega

lemma InHalfSecond.not_overdue {info : ExpirationInfo} (h : info.InHalfSecond) :
    ¬ info.Overdue := fun hover => absurd hover.2 (not_lt_of_ge h.2.2)

end ExpirationInfo

namespace SessionRegistry

variable {registry : SessionRegistry T P Q S}

/-- Some entry of the listing names the session. -/
def Reported (registry : SessionRegistry T P Q S) (currentTime sessionId : ℕ) : Prop :=
  ∃ info, some info ∈ registry.getExpiredSessions currentTime ∧ info.sessionId = sessionId

lemma WellFormed.reported_iff (h : registry.WellFormed) (currentTime : ℕ) {session : Session T P Q}
    (hs : session ∈ registry.all) : registry.Reported currentTime session.sessionId ↔
      (session.expirationInfo currentTime).isExpired = true := by
  have hlist : ∀ info, some info ∈ registry.getExpiredSessions currentTime ↔
      ∃ id ∈ registry.toMap.ids, ((registry.toMap.profile id).map
        (·.expirationInfo id currentTime)).filter (·.isExpired) = some info := by
    intro info
    rw [← List.reduceOption_mem_iff,h.shows.getExpiredSessions_eq,List.mem_filterMap]
  constructor
  · rintro ⟨info,hinfo,hid⟩
    obtain ⟨id,-,hsel⟩ := (hlist info).mp hinfo
    obtain ⟨hmap,hexp⟩ := Option.filter_eq_some_iff.mp hsel
    obtain ⟨profile,hp,rfl⟩ := Option.map_eq_some_iff.mp hmap
    obtain rfl : id = session.sessionId := hid
    rw [h.shows.profile_eq hs] at hp
    cases hp
    exact hexp
  · intro hexp
    refine ⟨session.expirationInfo currentTime,(hlist _).mpr ?_,rfl⟩
    refine ⟨session.sessionId,List.mem_map_of_mem hs,?_⟩
    rw [h.shows.profile_eq hs,Option.map_some]
    exact Option.filter_eq_some_iff.mpr ⟨rfl,hexp⟩

/-- A session is reported exactly when one and a half keep-alive periods have passed since its last
activity, unless its keep-alive is odd and it is in the half second before. There it is reported too
early. -/
theorem reported_overdue_iff (h : Reachable next new registry) (currentTime : ℕ)
    (session : Session T P Q) (hs : session ∈ registry.all) :
    (registry.Reported currentTime session.sessionId ↔
      (session.expirationInfo currentTime).Overdue) ↔
    ¬ (session.expirationInfo currentTime).InHalfSecond := by
  rw [(wellFormed_of_reachable h).reported_iff currentTime hs,ExpirationInfo.isExpired_iff]
  constructor
  · intro hiff hhalf
    exact hhalf.not_overdue (hiff.mp (.inr hhalf))
  · intro hhalf
    rw [or_iff_left hhalf]

/-- One session of keep-alive 61 joins at time 0. -/
def joinCalls : List (Call 1 1) := [.registerNewSession 1 61 0]

def joined : SessionRegistry 1 1 1 1 := (exec next new joinCalls).get (by decide)

/-- After 92 seconds it is reported, and 91.5 seconds are one and a half periods. -/
theorem reported_overdue_joined :
    (joined.Reported 92000000000 1 ↔ ((Session.new 1 61 0 : Session 1 1 1).expirationInfo
      92000000000).Overdue) ↔
    ¬ ((Session.new 1 61 0 : Session 1 1 1).expirationInfo 92000000000).InHalfSecond :=
  reported_overdue_iff (reachable_of_exec (Option.some_get (by decide)).symm) 92000000000
    (Session.new 1 61 0) (by decide)

/-- After 91.2 seconds it is reported although one and a half periods have not passed. -/
theorem reported_too_early : ¬ ∀ (T P Q S : ℕ) (registry : SessionRegistry T P Q S),
    Reachable next new registry → ∀ currentTime, ∀ session ∈ registry.all,
      (registry.Reported currentTime session.sessionId ↔ session.keepAliveSecs ≠ 0 ∧
        3*session.keepAliveSecs.toNat*1000000000 < 2*(currentTime-session.lastActivity)) := by
  intro h
  have hiff := h 1 1 1 1 joined (reachable_of_exec (Option.some_get (by decide)).symm) 91200000000
    (Session.new 1 61 0) (by decide)
  have hreported : joined.Reported 91200000000 1 :=
    ⟨(Session.new 1 61 0 : Session 1 1 1).expirationInfo 91200000000,by decide,rfl⟩
  have hover := hiff.mp hreported
  revert hover
  decide

end SessionRegistry

end Picobroker
