import Picobroker.Rust.Outcome

/-! Two calls that end alike: with the same result, and in related states. -/
namespace Rust

variable {σ ε α β ι : Type} {R : σ → σ → Prop}

/-- The same result, and related states where there are any. -/
inductive Outcome.Alike (R : σ → σ → Prop) : Outcome σ ε α → Outcome σ ε α → Prop
  | ok (a : α) {s s' : σ} (h : R s s') : Alike R (.ok a s) (.ok a s')
  | err (e : ε) {s s' : σ} (h : R s s') : Alike R (.err e s) (.err e s')
  | abort (w : Abort) : Alike R (.abort w) (.abort w)

namespace Outcome

lemma Alike.imp {R' : σ → σ → Prop} {o o' : Outcome σ ε α} (h : o.Alike R o')
    (hR : ∀ s s', R s s' → R' s s') : o.Alike R' o' := by
  cases h with
  | ok a h => exact .ok a (hR _ _ h)
  | err e h => exact .err e (hR _ _ h)
  | abort w => exact .abort w

/-- Continuing alike after calls that end alike. -/
lemma Alike.andThen {o o' : Outcome σ ε α} {f : α → Proc σ ε β} (h : o.Alike R o')
    (hf : ∀ a s s', R s s' → (f a s).Alike R (f a s')) : (o.andThen f).Alike R (o'.andThen f) := by
  cases h with
  | ok a h => exact hf a _ _ h
  | err e h => exact .err e h
  | abort w => exact .abort w

end Outcome

/-- A loop whose turns end alike. -/
lemma Proc.forEach_alike {body : ι → Proc σ ε Unit} {xs : List ι} {s s' : σ}
    (hbody : ∀ x ∈ xs, ∀ s s', R s s' → (body x s).Alike R (body x s')) (h : R s s') :
    (forEach body xs s).Alike R (forEach body xs s') := by
  induction xs generalizing s s' with
  | nil => exact .ok () h
  | cons x xs ih =>
    apply (hbody x List.mem_cons_self s s' h).andThen
    intro _ t t' ht
    exact ih (fun y hy => hbody y (List.mem_cons_of_mem x hy)) ht

end Rust
