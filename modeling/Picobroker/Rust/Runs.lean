import Picobroker.Rust.Outcome

/-! Runs of a system whose calls are deterministic, and of the loops inside a call. -/
namespace Rust

variable {σ ε α γ ι : Type}

/-- A run: each call together with the state it found, and the state after the last one. -/
inductive Run (next : σ → α → Option σ) : σ → List (σ × α) → σ → Prop
  | nil (s : σ) : Run next s [] s
  | cons {s t u : σ} {a : α} {h : List (σ × α)} (head : next s a = some t)
      (tail : Run next t h u) : Run next s ((s,a)::h) u

/-- Some run leads here. -/
def Reachable (next : σ → α → Option σ) (init s : σ) : Prop := ∃ h, Run next init h s

/-- Make the calls one after the other. -/
def exec (next : σ → α → Option σ) : σ → List α → Option σ
  | s,[] => some s
  | s,a::calls => (next s a).bind (fun t => exec next t calls)

section Run

variable {next : σ → α → Option σ} {s t u : σ} {h : List (σ × α)}

lemma Run.append {h' : List (σ × α)} (hr : Run next s h t) (hr' : Run next t h' u) :
    Run next s (h ++ h') u := by
  induction hr with
  | nil => exact hr'
  | cons head _ ih => exact .cons head (ih hr')

lemma Reachable.refl (next : σ → α → Option σ) (s : σ) : Reachable next s s := ⟨[],.nil s⟩

/-- The calls with the states they find. -/
def trace (next : σ → α → Option σ) : σ → List α → List (σ × α)
  | _,[] => []
  | s,a::calls => (s,a) :: (next s a).elim [] (fun t => trace next t calls)

lemma run_trace {calls : List α} (h : exec next s calls = some t) :
    Run next s (trace next s calls) t := by
  induction calls generalizing s with
  | nil =>
    cases h
    exact .nil _
  | cons a calls ih =>
    obtain ⟨u,hu,ht⟩ := Option.bind_eq_some_iff.mp h
    rw [trace,hu,Option.elim_some]
    exact .cons hu (ih ht)

lemma reachable_of_exec {calls : List α} (h : exec next s calls = some t) : Reachable next s t :=
  ⟨trace next s calls,run_trace h⟩

lemma Reachable.run (hr : Reachable next s t) (h' : Run next t h u) : Reachable next s u := by
  obtain ⟨h₀,hr⟩ := hr
  exact ⟨h₀ ++ h,hr.append h'⟩

lemma Reachable.step {a : α} (hr : Reachable next s t) (ha : next t a = some u) :
    Reachable next s u := hr.run (.cons ha (.nil u))

variable {I : σ → Prop}

/-- What every call preserves holds at the end of a run. -/
lemma Run.invariant (step : ∀ s a t, I s → next s a = some t → I t) (hr : Run next s h t)
    (hs : I s) : I t := by
  induction hr with
  | nil => exact hs
  | cons head _ ih => exact ih (step _ _ _ hs head)

/-- What every call preserves holds whenever a call starts. -/
lemma Run.invariant_mem (step : ∀ s a t, I s → next s a = some t → I t) (hr : Run next s h t)
    (hs : I s) : ∀ e ∈ h, I e.1 := by
  induction hr with
  | nil =>
    intro e he
    cases he
  | cons head _ ih =>
    intro e he
    rw [List.mem_cons] at he
    obtain he | he := he
    · rw [he]
      exact hs
    · exact ih (step _ _ _ hs head) e he

lemma Reachable.invariant (step : ∀ s a t, I s → next s a = some t → I t)
    (hr : Reachable next s t) (hs : I s) : I t := by
  obtain ⟨h,hr⟩ := hr
  exact hr.invariant step hs

/-- The states of a run, the last one included. -/
def visited (h : List (σ × α)) (t : σ) : List σ := h.map Prod.fst ++ [t]

/-- Where a call keeps `I` exactly when it is good, all states of a run satisfy `I` exactly when all its
calls are good. -/
lemma Run.visited_iff {ok : σ → α → Prop}
    (step : ∀ s a t, I s → next s a = some t → (I t ↔ ok s a)) (hr : Run next s h t) (hs : I s) :
    (∀ u ∈ visited h t, I u) ↔ ∀ e ∈ h, ok e.1 e.2 := by
  induction hr with
  | nil s => simp [visited,hs]
  | @cons s t u a h head tail ih =>
    have hstep := step s a t hs head
    rw [List.forall_mem_cons,visited,List.map_cons,List.cons_append,List.forall_mem_cons,
      and_iff_right hs]
    constructor
    · intro hall
      have ht : I t := by
        cases tail with
        | nil => exact hall t (by simp)
        | cons _ _ => exact hall t (by simp)
      exact ⟨hstep.mp ht,(ih ht).mp hall⟩
    · rintro ⟨hok,hall⟩
      exact (ih (hstep.mpr hok)).mpr hall

/-- Accounting over a run. If every call puts `enter` at the back of a queue and takes `leave` off its
front, then so does the run with all that its calls put and take. -/
lemma Run.accounting {queue : σ → List γ} {enter leave : σ → α → List γ} {ok : σ → α → Prop}
    (keep : ∀ s a t, I s → next s a = some t → I t)
    (step : ∀ s a t, I s → ok s a → next s a = some t →
      queue s ++ enter s a = leave s a ++ queue t)
    (hr : Run next s h t) (hs : I s) (hok : ∀ e ∈ h, ok e.1 e.2) :
    queue s ++ h.flatMap (fun e => enter e.1 e.2) =
      h.flatMap (fun e => leave e.1 e.2) ++ queue t := by
  induction hr with
  | nil => simp
  | @cons s t u a h head tail ih =>
    have h₁ := step s a t hs (hok _ List.mem_cons_self) head
    have h₂ := ih (keep s a t hs head) (fun e he => hok e (List.mem_cons_of_mem _ he))
    rw [List.flatMap_cons,List.flatMap_cons,← List.append_assoc,h₁,List.append_assoc,h₂,
      List.append_assoc]

/-- What one call can gain and none can lose holds after a run exactly when it held before or some
call gained it. -/
lemma Run.gains {H : σ → Prop} {gain ok : σ → α → Prop}
    (keep : ∀ s a t, I s → next s a = some t → I t)
    (step : ∀ s a t, I s → ok s a → next s a = some t → (H t ↔ H s ∨ gain s a))
    (hr : Run next s h t) (hs : I s) (hok : ∀ e ∈ h, ok e.1 e.2) :
    H t ↔ H s ∨ ∃ e ∈ h, gain e.1 e.2 := by
  induction hr with
  | nil => simp
  | @cons s t u a h head tail ih =>
    rw [ih (keep s a t hs head) (fun e he => hok e (List.mem_cons_of_mem _ he)),
      step s a t hs (hok _ List.mem_cons_self) head,or_assoc]
    simp only [List.mem_cons,exists_eq_or_imp]

/-- What every call of the run preserves holds at its end. -/
lemma Run.invariant_of_mem {ok : σ → α → Prop}
    (step : ∀ s a t, I s → ok s a → next s a = some t → I t) (hr : Run next s h t) (hs : I s)
    (hok : ∀ e ∈ h, ok e.1 e.2) : I t := by
  induction hr with
  | nil => exact hs
  | @cons s t u a h head tail ih =>
    exact ih (step s a t hs (hok _ List.mem_cons_self) head)
      (fun e he => hok e (List.mem_cons_of_mem _ he))

/-- What holds of the empty history and is carried on by every call holds of the history of a run and
the state at its end. -/
lemma Run.history {H : List (σ × α) → σ → Prop} (start : H [] s)
    (step : ∀ h t a u, Run next s h t → H h t → next t a = some u → H (h ++ [(t,a)]) u)
    (hr : Run next s h t) : H h t := by
  have hrest : ∀ {t u : σ} {h' : List (σ × α)}, Run next t h' u →
      ∀ h, Run next s h t → H h t → H (h ++ h') u := by
    intro t u h' hr'
    induction hr' with
    | nil =>
      intro h _ ht
      rwa [List.append_nil]
    | @cons t v u a h' head _ ih =>
      intro h hst ht
      have hlast := ih (h ++ [(t,a)]) (hst.append (.cons head (.nil v))) (step h t a v hst ht head)
      rwa [List.append_assoc] at hlast
  simpa using hrest hr [] (.nil s) start

/-- Every bad call is followed by a good one. -/
def Mended (bad good : σ × α → Prop) (h : List (σ × α)) : Prop :=
  ∀ pre e post, h = pre ++ e::post → bad e → ∃ e' ∈ post, good e'

lemma mended_of_forall_not {bad good : σ × α → Prop} (h' : ∀ e ∈ h, ¬ bad e) : Mended bad good h := by
  rintro pre e post rfl hbad
  exact absurd hbad (h' e (List.mem_append_right _ List.mem_cons_self))

/-- The last call is good, or it is not bad and the calls before it are mended. -/
lemma Mended.of_concat {bad good : σ × α → Prop} {e : σ × α} (hm : Mended bad good (h ++ [e])) :
    good e ∨ ¬ bad e ∧ Mended bad good h := by
  by_cases hgood : good e
  · exact .inl hgood
  · refine .inr ⟨?_,?_⟩
    · intro hbad
      obtain ⟨e',he',-⟩ := hm h e [] rfl hbad
      cases he'
    · rintro pre e' post rfl hbad
      obtain ⟨e'',he'',hg⟩ := hm pre e' (post ++ [e]) (by simp) hbad
      obtain hmem | hmem := List.mem_append.mp he''
      · exact ⟨e'',hmem,hg⟩
      · rw [List.mem_singleton.mp hmem] at hg
        exact absurd hg hgood

end Run

namespace Proc

variable {body : ι → Proc σ ε Unit} {xs : List ι} {s t : σ} {u : Unit}

/-- The turns that `for x in xs { body(x)?; }` takes, each with the state it found. The turn that
fails is the last. -/
def turns (body : ι → Proc σ ε Unit) : List ι → σ → List (σ × ι)
  | [],_ => []
  | x::xs,s => (s,x) :: match body x s with
    | .ok _ t => turns body xs t
    | _ => []

@[simp] lemma turns_nil (body : ι → Proc σ ε Unit) (s : σ) : turns body [] s = [] := rfl

lemma turns_cons_ok {x : ι} (h : body x s = .ok u t) :
    turns body (x::xs) s = (s,x) :: turns body xs t := by rw [turns,h]

/-- What every turn preserves holds whenever a turn starts. -/
lemma mem_turns {I : σ → Prop} (step : ∀ x ∈ xs, Keeps I (body x)) (hs : I s) {v : σ × ι}
    (hv : v ∈ turns body xs s) : I v.1 ∧ v.2 ∈ xs := by
  induction xs generalizing s with
  | nil => cases hv
  | cons x xs ih =>
    rw [turns,List.mem_cons] at hv
    obtain hv | hv := hv
    · rw [hv]
      exact ⟨hs,List.mem_cons_self⟩
    · cases hb : body x s with
      | ok u t =>
        have ht : I t := by
          have hk := step x List.mem_cons_self s hs
          rw [hb] at hk
          exact Outcome.leaves_ok.mp hk
        rw [hb] at hv
        obtain ⟨h₁,h₂⟩ := ih (fun y hy => step y (List.mem_cons_of_mem x hy)) ht hv
        exact ⟨h₁,List.mem_cons_of_mem x h₂⟩
      | err e t => rw [hb] at hv; cases hv
      | abort w => rw [hb] at hv; cases hv

/-- After a loop that ran to its end, every element had its turn. -/
lemma turns_map_snd (h : forEach body xs s = .ok u t) :
    (turns body xs s).map Prod.snd = xs := by
  induction xs generalizing s with
  | nil => rfl
  | cons x xs ih =>
    rw [forEach_cons,Outcome.andThen_eq_ok] at h
    obtain ⟨v,s',hb,h⟩ := h
    rw [turns_cons_ok hb,List.map_cons,ih h]

/-- Accounting over a loop: what each turn appends is appended in the order of the turns. -/
lemma forEach_appends {I : σ → Prop} {queue : σ → List γ} {enter : σ × ι → List γ}
    (step : ∀ x ∈ xs, ∀ s t u, I s → body x s = .ok u t → I t ∧ queue t = queue s ++ enter (s,x))
    (hs : I s) (h : forEach body xs s = .ok u t) :
    queue t = queue s ++ (turns body xs s).flatMap enter := by
  induction xs generalizing s with
  | nil =>
    rw [forEach_nil] at h
    cases h
    simp
  | cons x xs ih =>
    rw [forEach_cons,Outcome.andThen_eq_ok] at h
    obtain ⟨v,s',hb,h⟩ := h
    obtain ⟨hI,hq⟩ := step x List.mem_cons_self s s' v hs hb
    rw [turns_cons_ok hb,List.flatMap_cons,
      ih (fun y hy => step y (List.mem_cons_of_mem x hy)) hI h,hq,List.append_assoc]

/-- What a turn can gain and none can lose holds after a loop that ran to its end exactly when it held
before or some turn gained it. -/
lemma forEach_gains {I H : σ → Prop} {gain : σ × ι → Prop}
    (step : ∀ x ∈ xs, ∀ s t u, I s → body x s = .ok u t →
      I t ∧ (H t ↔ H s ∨ gain (s,x)))
    (hs : I s) (h : forEach body xs s = .ok u t) :
    H t ↔ H s ∨ ∃ v ∈ turns body xs s, gain v := by
  induction xs generalizing s with
  | nil =>
    rw [forEach_nil] at h
    cases h
    simp
  | cons x xs ih =>
    rw [forEach_cons,Outcome.andThen_eq_ok] at h
    obtain ⟨v,s',hb,h⟩ := h
    obtain ⟨hI,hgain⟩ := step x List.mem_cons_self s s' v hs hb
    rw [turns_cons_ok hb,ih (fun y hy => step y (List.mem_cons_of_mem x hy)) hI h,hgain,or_assoc]
    simp only [List.mem_cons,exists_eq_or_imp]

/-- What every turn that is taken preserves holds after the loop, also after one that failed. -/
lemma forEach_leaves_of_turns {I : σ → Prop}
    (step : ∀ v ∈ turns body xs s, I v.1 → (body v.2 v.1).Leaves I) (hs : I s) :
    (forEach body xs s).Leaves I := by
  induction xs generalizing s with
  | nil => exact Outcome.leaves_ok.mpr hs
  | cons x xs ih =>
    have hx := step (s,x) List.mem_cons_self hs
    rw [forEach_cons]
    apply hx.andThen
    intro u t hb ht
    apply ih _ ht
    intro v hv
    apply step
    rw [turns_cons_ok hb]
    exact List.mem_cons_of_mem _ hv

end Proc

end Rust
