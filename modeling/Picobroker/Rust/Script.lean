import Picobroker.Rust.Outcome

/-! A list of calls made one after the other with the reply to each, and two systems whose replies
agree because each call of the one is the same call of the other on what can be seen of the state. -/
namespace Rust

variable {σ τ ε ε' α γ ρ : Type}

/-- A call whose refusal is an answer like any other. -/
def Proc.attempt (p : Proc σ ε α) : Proc σ ε' (Except ε α) := ⟨fun s =>
  match p s with
  | .ok a t => .ok (.ok a) t
  | .err e t => .ok (.error e) t
  | .abort w => .abort w⟩

section Replies

variable {p : Proc σ ε α} {s t : σ}

lemma Proc.attempt_ok {a : α} (h : p s = .ok a t) :
    (p.attempt : Proc σ ε' (Except ε α)) s = .ok (.ok a) t := by simp only [attempt,h]
lemma Proc.attempt_err {e : ε} (h : p s = .err e t) :
    (p.attempt : Proc σ ε' (Except ε α)) s = .ok (.error e) t := by simp only [attempt,h]
lemma Proc.attempt_abort {w : Abort} (h : p s = .abort w) :
    (p.attempt : Proc σ ε' (Except ε α)) s = .abort w := by simp only [attempt,h]

lemma Proc.discard_ok {a : α} (h : p s = .ok a t) :
    (p.discard : Proc σ ε' Unit) s = .ok () t := by simp only [discard,h]
lemma Proc.discard_err {e : ε} (h : p s = .err e t) :
    (p.discard : Proc σ ε' Unit) s = .ok () t := by simp only [discard,h]

/-- Neither changes what the call leaves behind. -/
lemma Proc.attempt_leaves {I : σ → Prop} (h : (p s).Leaves I) :
    ((p.attempt : Proc σ ε' (Except ε α)) s).Leaves I := by
  cases hr : p s with
  | ok a t =>
    rw [hr,Outcome.leaves_ok] at h
    rw [attempt_ok hr,Outcome.leaves_ok]
    exact h
  | err e t =>
    rw [hr,Outcome.leaves_err] at h
    rw [attempt_err hr,Outcome.leaves_ok]
    exact h
  | abort w =>
    rw [attempt_abort hr]
    exact Outcome.leaves_abort I w

lemma Proc.discard_leaves {I : σ → Prop} (h : (p s).Leaves I) :
    ((p.discard : Proc σ ε' Unit) s).Leaves I := by
  cases hr : p s with
  | ok a t =>
    rw [hr,Outcome.leaves_ok] at h
    rw [discard_ok hr,Outcome.leaves_ok]
    exact h
  | err e t =>
    rw [hr,Outcome.leaves_err] at h
    rw [discard_err hr,Outcome.leaves_ok]
    exact h
  | abort w =>
    simp only [discard,hr]
    exact Outcome.leaves_abort I w

end Replies

/-- Make the calls one after the other and collect the replies. -/
def script (call : γ → Proc σ ε ρ) : List γ → Proc σ ε' (List (Except ε ρ))
  | [] => pure []
  | c::calls => do
    let reply ← (call c).attempt
    let replies ← script call calls
    pure (reply::replies)

section Simulation

variable {view : σ → τ}

lemma Proc.attempt_mapState {p : Proc σ ε α} {q : Proc τ ε α} {s : σ}
    (h : (p s).mapState view = q (view s)) :
    ((p.attempt : Proc σ ε' (Except ε α)) s).mapState view = q.attempt (view s) := by
  simp only [attempt]
  rw [← h]
  cases p s <;> rfl

/-- Calls that agree through `view` agree one after the other. -/
lemma Proc.bind_mapState {β : Type} {p : Proc σ ε α} {q : Proc τ ε α} {f : α → Proc σ ε β}
    {g : α → Proc τ ε β} {s : σ} (hp : (p s).mapState view = q (view s))
    (hf : ∀ a t, (f a t).mapState view = g a (view t)) :
    ((p >>= f) s).mapState view = (q >>= g) (view s) := by
  rw [bind_apply,bind_apply,← hp]
  cases p s with
  | ok a t => exact hf a t
  | err e t => rfl
  | abort w => rfl

/-- A system that answers every call as another one does on its view answers every list of calls as
that one does, and leaves the same view. -/
theorem script_mapState {call : γ → Proc σ ε ρ} {call' : γ → Proc τ ε ρ}
    (step : ∀ c s, (call c s).mapState view = call' c (view s)) (calls : List γ) (s : σ) :
    ((script call calls : Proc σ ε' _) s).mapState view = script call' calls (view s) := by
  induction calls generalizing s with
  | nil => rfl
  | cons c calls ih =>
    apply Proc.bind_mapState (Proc.attempt_mapState (step c s))
    intro reply t
    apply Proc.bind_mapState (ih t)
    intro replies u
    rfl

end Simulation

/-- The first turn of a loop that is followed by something else. -/
lemma Proc.forEach_cons_bind {ι : Type} (body : ι → Proc σ ε Unit) (x : ι) (xs : List ι)
    (next : Unit → Proc σ ε α) (s : σ) : (forEach body (x::xs) >>= next) s =
      (body x s).andThen (fun _ => forEach body xs >>= next) := by
  rw [bind_apply,forEach_cons]
  cases body x s <;> rfl

/-- The same call `n` times. -/
def Proc.times (p : Proc σ ε α) : ℕ → Proc σ ε (List α)
  | 0 => pure []
  | n+1 => do
    let x ← p
    let xs ← times p n
    pure (x::xs)

lemma Proc.times_mapState {view : σ → τ} {p : Proc σ ε α} {q : Proc τ ε α}
    (step : ∀ s, (p s).mapState view = q (view s)) (n : ℕ) (s : σ) :
    (p.times n s).mapState view = q.times n (view s) := by
  induction n generalizing s with
  | zero => rfl
  | succ n ih =>
    apply bind_mapState (step s)
    intro x t
    apply bind_mapState (ih t)
    intro xs u
    rfl

section Returns

variable {call : γ → Proc σ ε ρ} {c : γ} {calls : List γ} {s : σ}

lemma Proc.attempt_returns {p : Proc σ ε α} :
    ((p.attempt : Proc σ ε' (Except ε α)) s).Returns ↔ (p s).Returns := by
  simp only [attempt]
  cases p s <;> simp

lemma script_cons_returns : ((script call (c::calls) : Proc σ ε' _) s).Returns ↔
    (call c s).Returns ∧ ∀ reply t, ((call c).attempt : Proc σ ε' _) s = .ok reply t →
      ((script call calls : Proc σ ε' _) t).Returns := by
  rw [script,Proc.bind_apply,Outcome.returns_andThen_iff,Proc.attempt_returns]
  simp [Outcome.returns_andThen_iff]

lemma script_cons_eq_ok {rs : List (Except ε ρ)} {t : σ} :
    (script call (c::calls) : Proc σ ε' _) s = .ok rs t ↔ ∃ reply replies u, rs = reply::replies ∧
      ((call c).attempt : Proc σ ε' _) s = .ok reply u ∧
        (script call calls : Proc σ ε' _) u = .ok replies t := by
  rw [script,Proc.bind_eq_ok]
  constructor
  · rintro ⟨reply,u,hc,h⟩
    obtain ⟨replies,v,hs,h⟩ := Proc.bind_eq_ok.mp h
    cases h
    exact ⟨reply,replies,u,rfl,hc,hs⟩
  · rintro ⟨reply,replies,u,rfl,hc,hs⟩
    exact ⟨reply,u,hc,Proc.bind_eq_ok.mpr ⟨replies,t,hs,rfl⟩⟩

/-- A list of calls gets its replies unless one of them ends without a result in the state it finds. -/
theorem script_returns_iff : ((script call calls : Proc σ ε' _) s).Returns ↔
    ∀ pre c post, calls = pre ++ c::post → ∀ replies t,
      (script call pre : Proc σ ε' _) s = .ok replies t → (call c t).Returns := by
  induction calls generalizing s with
  | nil => simp [script]
  | cons c calls ih =>
    rw [script_cons_returns]
    constructor
    · rintro ⟨hc,hall⟩ pre c' post hsplit replies t hpre
      cases pre with
      | nil =>
        cases hsplit
        cases hpre
        exact hc
      | cons d pre =>
        obtain ⟨rfl,rfl⟩ := List.cons.inj hsplit
        obtain ⟨reply,replies,u,-,hu,hs⟩ := script_cons_eq_ok.mp hpre
        exact ih.mp (hall reply u hu) pre c' post rfl replies t hs
    · intro hall
      refine ⟨hall [] c calls rfl [] s rfl,?_⟩
      intro reply u hu
      apply ih.mpr
      intro pre c' post hsplit replies t hpre
      exact hall (c::pre) c' post (by rw [hsplit,List.cons_append]) (reply::replies) t
        (script_cons_eq_ok.mpr ⟨reply,replies,u,rfl,hu,hpre⟩)

end Returns

end Rust
