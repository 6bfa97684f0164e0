import Mathlib

/-! Calls of a Rust program over a mutable state. A call ends in `Ok` or `Err`, in both cases
together with the state it leaves behind, or it gives no result at all. -/
namespace Rust

/-- Why a call gives no result: the code panicked, or the model's bound on a loop ran out. -/
inductive Abort
  | panic
  | outOfFuel
  deriving DecidableEq, Repr

/-- How a call ends. What was written before an `Err` stays written. -/
inductive Outcome (σ ε α : Type) where
  | ok (value : α) (state : σ)
  | err (error : ε) (state : σ)
  | abort (why : Abort)
  deriving DecidableEq, Repr

/-- A fallible call that borrows a state of type `σ` mutably. -/
structure Proc (σ ε α : Type) where
  run : σ → Outcome σ ε α

instance {σ ε α : Type} : CoeFun (Proc σ ε α) (fun _ => σ → Outcome σ ε α) := ⟨Proc.run⟩

variable {σ τ ε ε' α β ι : Type}

namespace Outcome

/-- The `?` operator: continue after `Ok`, leave the function after `Err`. -/
def andThen : Outcome σ ε α → (α → Proc σ ε β) → Outcome σ ε β
  | .ok a s,f => f a s
  | .err e s,_ => .err e s
  | .abort w,_ => .abort w

@[simp] lemma andThen_ok (a : α) (s : σ) (f : α → Proc σ ε β) :
    (ok a s : Outcome σ ε α).andThen f = f a s := rfl
@[simp] lemma andThen_err (e : ε) (s : σ) (f : α → Proc σ ε β) :
    (err e s : Outcome σ ε α).andThen f = .err e s := rfl
@[simp] lemma andThen_abort (w : Abort) (f : α → Proc σ ε β) :
    (abort w : Outcome σ ε α).andThen f = .abort w := rfl

lemma andThen_eq_ok {o : Outcome σ ε α} {f : α → Proc σ ε β} {b : β} {t : σ} :
    o.andThen f = .ok b t ↔ ∃ a s, o = .ok a s ∧ f a s = .ok b t := by
  cases o <;> simp

/-- `map_err`. -/
def mapErr (f : ε → ε') : Outcome σ ε α → Outcome σ ε' α
  | .ok a s => .ok a s
  | .err e s => .err (f e) s
  | .abort w => .abort w

@[simp] lemma mapErr_ok (f : ε → ε') (a : α) (s : σ) :
    (ok a s : Outcome σ ε α).mapErr f = .ok a s := rfl
@[simp] lemma mapErr_err (f : ε → ε') (e : ε) (s : σ) :
    (err e s : Outcome σ ε α).mapErr f = .err (f e) s := rfl
@[simp] lemma mapErr_abort (f : ε → ε') (w : Abort) :
    (abort w : Outcome σ ε α).mapErr f = .abort w := rfl

/-- Put the state a call leaves behind back into a larger one. -/
def mapState (g : σ → τ) : Outcome σ ε α → Outcome τ ε α
  | .ok a s => .ok a (g s)
  | .err e s => .err e (g s)
  | .abort w => .abort w

@[simp] lemma mapState_ok (g : σ → τ) (a : α) (s : σ) :
    (ok a s : Outcome σ ε α).mapState g = .ok a (g s) := rfl
@[simp] lemma mapState_err (g : σ → τ) (e : ε) (s : σ) :
    (err e s : Outcome σ ε α).mapState g = .err e (g s) := rfl
@[simp] lemma mapState_abort (g : σ → τ) (w : Abort) :
    (abort w : Outcome σ ε α).mapState g = .abort w := rfl

lemma mapState_mapState {ρ : Type} (g : σ → τ) (h : τ → ρ) (o : Outcome σ ε α) :
    (o.mapState g).mapState h = o.mapState (h ∘ g) := by cases o <;> rfl

/-- The state left behind, when there is one. -/
def state? : Outcome σ ε α → Option σ
  | .ok _ s => some s
  | .err _ s => some s
  | .abort _ => none

@[simp] lemma state?_ok (a : α) (s : σ) : (ok a s : Outcome σ ε α).state? = some s := rfl
@[simp] lemma state?_err (e : ε) (s : σ) : (err e s : Outcome σ ε α).state? = some s := rfl
@[simp] lemma state?_abort (w : Abort) : (abort w : Outcome σ ε α).state? = none := rfl

/-- The call ends in `Ok` or `Err`: no panic, and every loop ends. -/
def Returns (o : Outcome σ ε α) : Prop := ∀ w, o ≠ .abort w

instance (o : Outcome σ ε α) : Decidable o.Returns :=
  match o with
  | .ok _ _ => .isTrue (fun _ h => by cases h)
  | .err _ _ => .isTrue (fun _ h => by cases h)
  | .abort w => .isFalse (fun h => h w rfl)

@[simp] lemma returns_ok (a : α) (s : σ) : (ok a s : Outcome σ ε α).Returns := by simp [Returns]
@[simp] lemma returns_err (e : ε) (s : σ) : (err e s : Outcome σ ε α).Returns := by simp [Returns]
@[simp] lemma not_returns_abort (w : Abort) : ¬ (abort w : Outcome σ ε α).Returns := by
  simp [Returns]

lemma returns_andThen_iff {o : Outcome σ ε α} {f : α → Proc σ ε β} :
    (o.andThen f).Returns ↔ o.Returns ∧ ∀ a s, o = .ok a s → (f a s).Returns := by
  cases o <;> simp

@[simp] lemma returns_mapErr {f : ε → ε'} {o : Outcome σ ε α} :
    (o.mapErr f).Returns ↔ o.Returns := by cases o <;> simp
@[simp] lemma returns_mapState {g : σ → τ} {o : Outcome σ ε α} :
    (o.mapState g).Returns ↔ o.Returns := by cases o <;> simp

/-- Where the other call returns, this one ends as it does. -/
def Replaces (o' o : Outcome σ ε α) : Prop := o.Returns → o' = o

lemma Replaces.refl (o : Outcome σ ε α) : o.Replaces o := fun _ => rfl

/-- Whether a call ended in `Ok` can be read off. -/
instance (o : Outcome σ ε Unit) : Decidable (∃ s, o = .ok () s) :=
  match o with
  | .ok _ s => .isTrue ⟨s,rfl⟩
  | .err _ _ => .isFalse (fun ⟨_,h⟩ => by cases h)
  | .abort _ => .isFalse (fun ⟨_,h⟩ => by cases h)

/-- Whether the call ended in `Ok`. -/
def isOk : Outcome σ ε α → Bool
  | .ok _ _ => true
  | _ => false

/-- Whatever the result, the state left behind satisfies `I`. -/
def Leaves (I : σ → Prop) (o : Outcome σ ε α) : Prop := ∀ s, o.state? = some s → I s

@[simp] lemma leaves_ok {I : σ → Prop} {a : α} {s : σ} :
    (ok a s : Outcome σ ε α).Leaves I ↔ I s := by simp [Leaves]
@[simp] lemma leaves_err {I : σ → Prop} {e : ε} {s : σ} :
    (err e s : Outcome σ ε α).Leaves I ↔ I s := by simp [Leaves]
@[simp] lemma leaves_abort (I : σ → Prop) (w : Abort) :
    (abort w : Outcome σ ε α).Leaves I := by simp [Leaves]

lemma Leaves.andThen {I : σ → Prop} {o : Outcome σ ε α} {f : α → Proc σ ε β}
    (ho : o.Leaves I) (hf : ∀ a s, o = .ok a s → I s → (f a s).Leaves I) :
    (o.andThen f).Leaves I := by
  cases o with
  | ok a s => exact hf a s rfl (leaves_ok.mp ho)
  | err e s => exact leaves_err.mpr (leaves_err.mp ho)
  | abort w => exact leaves_abort I w

lemma Leaves.and {I J : σ → Prop} {o : Outcome σ ε α} (hI : o.Leaves I) (hJ : o.Leaves J) :
    o.Leaves (fun s => I s ∧ J s) :=
  fun s hs => ⟨hI s hs,hJ s hs⟩

lemma Leaves.imp {I J : σ → Prop} {o : Outcome σ ε α} (ho : o.Leaves I) (h : ∀ s, I s → J s) :
    o.Leaves J :=
  fun s hs => h s (ho s hs)

lemma Leaves.mapState {I : σ → Prop} {J : τ → Prop} {o : Outcome σ ε α} {g : σ → τ}
    (ho : o.Leaves I) (hg : ∀ s, I s → J (g s)) : (o.mapState g).Leaves J := by
  cases o with
  | ok a s => exact leaves_ok.mpr (hg s (leaves_ok.mp ho))
  | err e s => exact leaves_err.mpr (hg s (leaves_err.mp ho))
  | abort w => exact leaves_abort J w

/-- A statement about the errors of a call says something only of a call that fails. -/
lemma forall_err {E : ε → σ → Prop} {e : ε} {s : σ} :
    (∀ e' s', (err e s : Outcome σ ε α) = .err e' s' → E e' s') ↔ E e s := by
  simp

lemma forall_err_ok {E : ε → σ → Prop} {a : α} {s : σ} :
    (∀ e' s', (ok a s : Outcome σ ε α) = .err e' s' → E e' s') ↔ True := by
  simp

lemma forall_err_abort {E : ε → σ → Prop} {w : Abort} :
    (∀ e' s', (abort w : Outcome σ ε α) = .err e' s' → E e' s') ↔ True := by
  simp

end Outcome

namespace Proc

instance : Monad (Proc σ ε) where
  pure a := ⟨fun s => .ok a s⟩
  bind p f := ⟨fun s => (p s).andThen f⟩

@[simp] lemma pure_apply (a : α) (s : σ) : (pure a : Proc σ ε α) s = .ok a s := rfl
@[simp] lemma bind_apply (p : Proc σ ε α) (f : α → Proc σ ε β) (s : σ) :
    (p >>= f) s = (p s).andThen f := rfl

lemma bind_eq_ok {p : Proc σ ε α} {f : α → Proc σ ε β} {s t : σ} {b : β} :
    (p >>= f) s = .ok b t ↔ ∃ a u, p s = .ok a u ∧ f a u = .ok b t :=
  Outcome.andThen_eq_ok

lemma returns_bind {p : Proc σ ε α} {f : α → Proc σ ε β} {s : σ} (hp : (p s).Returns)
    (hf : ∀ a t, p s = .ok a t → (f a t).Returns) : ((p >>= f) s).Returns :=
  Outcome.returns_andThen_iff.mpr ⟨hp,hf⟩

lemma replaces_bind {p p' : Proc σ ε α} {f f' : α → Proc σ ε β} {s : σ}
    (hp : (p' s).Replaces (p s)) (hf : ∀ a t, (f' a t).Replaces (f a t)) :
    ((p' >>= f') s).Replaces ((p >>= f) s) := by
  intro h
  rw [bind_apply,Outcome.returns_andThen_iff] at h
  rw [bind_apply,bind_apply,hp h.1]
  cases hr : p s with
  | ok a t => exact hf a t (h.2 a t hr)
  | err e t => rfl
  | abort w => rfl

/-- `return Err(e)`. -/
def fail (e : ε) : Proc σ ε α := ⟨fun s => .err e s⟩

@[simp] lemma fail_apply (e : ε) (s : σ) : (fail e : Proc σ ε α) s = .err e s := rfl

/-- A panic. -/
def panic : Proc σ ε α := ⟨fun _ => .abort .panic⟩

@[simp] lemma panic_apply (s : σ) : (panic : Proc σ ε α) s = .abort .panic := rfl

/-- `if c { return Err(e) }`. -/
def failIf (c : Prop) [Decidable c] (e : ε) : Proc σ ε Unit :=
  ⟨fun s => if c then .err e s else .ok () s⟩

@[simp] lemma failIf_pos {c : Prop} [Decidable c] (h : c) (e : ε) (s : σ) :
    (failIf c e : Proc σ ε Unit) s = .err e s := if_pos h
@[simp] lemma failIf_neg {c : Prop} [Decidable c] (h : ¬ c) (e : ε) (s : σ) :
    (failIf c e : Proc σ ε Unit) s = .ok () s := if_neg h
lemma failIf_eq_ok {c : Prop} [Decidable c] {e : ε} {s t : σ} {u : Unit} :
    (failIf c e : Proc σ ε Unit) s = .ok u t ↔ ¬ c ∧ s = t := by
  by_cases h : c <;> simp [h]
lemma failIf_returns (c : Prop) [Decidable c] (e : ε) (s : σ) :
    ((failIf c e : Proc σ ε Unit) s).Returns := by
  by_cases h : c <;> simp [h]

/-- Read the state. -/
def get : Proc σ ε σ := ⟨fun s => .ok s s⟩

@[simp] lemma get_apply (s : σ) : (get : Proc σ ε σ) s = .ok s s := rfl

/-- Overwrite part of the state. -/
def modify (f : σ → σ) : Proc σ ε Unit := ⟨fun s => .ok () (f s)⟩

@[simp] lemma modify_apply (f : σ → σ) (s : σ) :
    (modify f : Proc σ ε Unit) s = .ok () (f s) := rfl

/-- The value of an expression that cannot fail but may panic. -/
def lift : Option α → Proc σ ε α
  | some a => ⟨fun s => .ok a s⟩
  | none => ⟨fun _ => .abort .panic⟩

@[simp] lemma lift_some (a : α) (s : σ) : (lift (some a) : Proc σ ε α) s = .ok a s := rfl
@[simp] lemma lift_none (s : σ) : (lift none : Proc σ ε α) s = .abort .panic := rfl

/-- A call that does not touch the state. -/
def call (o : Outcome Unit ε α) : Proc σ ε α := ⟨fun s => o.mapState (fun _ => s)⟩

@[simp] lemma call_apply (o : Outcome Unit ε α) (s : σ) :
    (call o : Proc σ ε α) s = o.mapState (fun _ => s) := rfl
lemma call_eq_ok {o : Outcome Unit ε α} {s t : σ} {a : α} :
    (call o : Proc σ ε α) s = .ok a t ↔ o = .ok a () ∧ s = t := by
  cases o <;> simp

/-- Run the call from `s` and keep only its result. -/
def eval (p : Proc σ ε α) (s : σ) : Outcome Unit ε α := (p s).mapState (fun _ => ())

lemma eval_eq_ok {p : Proc σ ε α} {s : σ} {a : α} {u : Unit} :
    p.eval s = .ok a u ↔ ∃ t, p s = .ok a t := by
  rw [eval]
  cases p s <;> simp
lemma eval_returns {p : Proc σ ε α} {s : σ} : (p.eval s).Returns ↔ (p s).Returns :=
  Outcome.returns_mapState

/-- Unwrap a value, returning `Err` when it is missing. -/
def okOr (e : ε) : Option α → Proc σ ε α
  | some a => ⟨fun s => .ok a s⟩
  | none => ⟨fun s => .err e s⟩

@[simp] lemma okOr_some (e : ε) (a : α) (s : σ) :
    (okOr e (some a) : Proc σ ε α) s = .ok a s := rfl
@[simp] lemma okOr_none (e : ε) (s : σ) :
    (okOr e none : Proc σ ε α) s = .err e s := rfl
lemma okOr_eq_ok {e : ε} {o : Option α} {a : α} {s t : σ} :
    (okOr e o : Proc σ ε α) s = .ok a t ↔ o = some a ∧ s = t := by
  cases o <;> simp
lemma okOr_returns (e : ε) (o : Option α) (s : σ) : ((okOr e o : Proc σ ε α) s).Returns := by
  cases o <;> simp

/-- `map_err`. -/
def mapErr (f : ε → ε') (p : Proc σ ε α) : Proc σ ε' α := ⟨fun s => (p s).mapErr f⟩

@[simp] lemma mapErr_apply (f : ε → ε') (p : Proc σ ε α) (s : σ) :
    p.mapErr f s = (p s).mapErr f := rfl

/-- `let _ = call`: the result is thrown away, what the call wrote is kept. -/
def discard (p : Proc σ ε α) : Proc σ ε' Unit := ⟨fun s =>
  match p s with
  | .ok _ t => .ok () t
  | .err _ t => .ok () t
  | .abort w => .abort w⟩

/-- A call on one field of the state. -/
def zoom (view : σ → τ) (put : τ → σ → σ) (p : Proc τ ε α) : Proc σ ε α :=
  ⟨fun s => (p (view s)).mapState (fun t => put t s)⟩

@[simp] lemma zoom_apply (view : σ → τ) (put : τ → σ → σ) (p : Proc τ ε α) (s : σ) :
    zoom view put p s = (p (view s)).mapState (fun t => put t s) := rfl

/-- A call on a local variable. After `Err` the function returns and the variable is gone. -/
def onLocal (p : Proc τ ε Unit) (t : τ) : Proc σ ε τ := ⟨fun s =>
  match p t with
  | .ok _ t' => .ok t' s
  | .err e _ => .err e s
  | .abort w => .abort w⟩

lemma onLocal_ok {p : Proc τ ε Unit} {t t' : τ} {u : Unit} (h : p t = .ok u t') (s : σ) :
    onLocal p t s = .ok t' s := by simp only [onLocal,h]
lemma onLocal_err {p : Proc τ ε Unit} {t t' : τ} {e : ε} (h : p t = .err e t') (s : σ) :
    onLocal p t s = .err e s := by simp only [onLocal,h]

/-- `for x in xs { body(x)?; }`. -/
def forEach (body : ι → Proc σ ε Unit) : List ι → Proc σ ε Unit
  | [] => pure ()
  | x::xs => body x >>= fun _ => forEach body xs

@[simp] lemma forEach_nil (body : ι → Proc σ ε Unit) (s : σ) :
    forEach body [] s = .ok () s := rfl
lemma forEach_cons (body : ι → Proc σ ε Unit) (x : ι) (xs : List ι) (s : σ) :
    forEach body (x::xs) s = (body x s).andThen (fun _ => forEach body xs) := rfl

lemma forEach_append (body : ι → Proc σ ε Unit) (xs ys : List ι) (s : σ) :
    forEach body (xs ++ ys) s = (forEach body xs s).andThen (fun _ => forEach body ys) := by
  induction xs generalizing s with
  | nil => rfl
  | cons x xs ih =>
    rw [List.cons_append,forEach_cons,forEach_cons]
    cases body x s with
    | ok u t => exact ih t
    | err e t => rfl
    | abort w => rfl

/-- `I` survives the call, also when it returns an error. -/
def Keeps (I : σ → Prop) (p : Proc σ ε α) : Prop := ∀ s, I s → (p s).Leaves I

section Keeps

variable {I : σ → Prop}

lemma keeps_pure (a : α) : Keeps I (pure a : Proc σ ε α) := fun _ h => Outcome.leaves_ok.mpr h

lemma Keeps.bind {p : Proc σ ε α} {f : α → Proc σ ε β} (hp : Keeps I p) (hf : ∀ a, Keeps I (f a)) :
    Keeps I (p >>= f) :=
  fun s h => (hp s h).andThen (fun a t _ ht => hf a t ht)

lemma keeps_forEach {body : ι → Proc σ ε Unit} {xs : List ι} (h : ∀ x ∈ xs, Keeps I (body x)) :
    Keeps I (forEach body xs) := by
  induction xs with
  | nil => exact keeps_pure ()
  | cons x xs ih =>
    exact (h x (by simp)).bind (fun _ => ih (fun y hy => h y (by simp [hy])))

/-- A loop that fails does so in one of its turns. -/
lemma forEach_err {body : ι → Proc σ ε Unit} {xs : List ι} (h : ∀ x ∈ xs, Keeps I (body x))
    {s t : σ} {e : ε} (hs : I s) (he : forEach body xs s = .err e t) :
    ∃ x ∈ xs, ∃ u, I u ∧ body x u = .err e t := by
  induction xs generalizing s with
  | nil => cases he
  | cons x xs ih =>
    have hk := h x List.mem_cons_self s hs
    rw [forEach_cons] at he
    cases hb : body x s with
    | ok a u =>
      rw [hb,Outcome.leaves_ok] at hk
      rw [hb,Outcome.andThen_ok] at he
      obtain ⟨y,hy,v,hv,hbody⟩ := ih (fun y hy => h y (List.mem_cons_of_mem x hy)) hk he
      exact ⟨y,List.mem_cons_of_mem x hy,v,hv,hbody⟩
    | err e' u =>
      rw [hb] at he
      exact ⟨x,List.mem_cons_self,s,hs,hb.trans he⟩
    | abort w =>
      rw [hb] at he
      cases he

/-- A loop without a result has none in one of its turns. -/
lemma forEach_abort {body : ι → Proc σ ε Unit} {xs : List ι} (h : ∀ x ∈ xs, Keeps I (body x))
    {s : σ} {w : Abort} (hs : I s) (ha : forEach body xs s = .abort w) :
    ∃ x ∈ xs, ∃ u, I u ∧ body x u = .abort w := by
  induction xs generalizing s with
  | nil => cases ha
  | cons x xs ih =>
    have hk := h x List.mem_cons_self s hs
    rw [forEach_cons] at ha
    cases hb : body x s with
    | ok a u =>
      rw [hb,Outcome.leaves_ok] at hk
      rw [hb,Outcome.andThen_ok] at ha
      obtain ⟨y,hy,v,hv,hbody⟩ := ih (fun y hy => h y (List.mem_cons_of_mem x hy)) hk ha
      exact ⟨y,List.mem_cons_of_mem x hy,v,hv,hbody⟩
    | err e' u =>
      rw [hb] at ha
      cases ha
    | abort w' =>
      rw [hb] at ha
      exact ⟨x,List.mem_cons_self,s,hs,hb.trans ha⟩

lemma Keeps.mapErr {p : Proc σ ε α} (hp : Keeps I p) (f : ε → ε') : Keeps I (p.mapErr f) := by
  intro s h
  have hs := hp s h
  rw [mapErr_apply]
  cases hq : p s with
  | ok a t => rw [hq] at hs; exact hs
  | err e t => rw [hq] at hs; exact Outcome.leaves_err.mpr (Outcome.leaves_err.mp hs)
  | abort w => exact Outcome.leaves_abort I w

lemma Keeps.zoom {J : τ → Prop} {view : σ → τ} {put : τ → σ → σ} {p : Proc τ ε α} (hp : Keeps J p)
    (hview : ∀ s, I s → J (view s)) (hput : ∀ s t, I s → J t → I (put t s)) :
    Keeps I (zoom view put p) := by
  intro s h
  rw [zoom_apply]
  exact (hp (view s) (hview s h)).mapState (fun t ht => hput s t h ht)

end Keeps

end Proc

end Rust
