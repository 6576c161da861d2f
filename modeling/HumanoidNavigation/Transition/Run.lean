import Mathlib.Data.List.Induction
import Mathlib.Data.Option.Basic
import Mathlib.Tactic.Common

/-!
# Runs of a partial step function

A component that reacts to events is a partial function `step : σ → ε → Option σ`: the value
`none` means that the event cannot happen in that state, or that handling it ends the
component. `Run step s₀ es s` says that the events `es` lead from `s₀` to `s`. The list grows
at its end, so an induction on a run is an induction on its history.

`Always` states a condition on every step of a run, `Occurs` that some step of the run has a
property and `Since` what held from such a step on; `along` computes a history variable, which
each step updates. The induction rules are `Run.invariant`, `forall_prefix_iff_always` and
`iff_always`, with `forall_prefix_iff_throughout` and `iff_throughout` for conditions on the
history.
-/

namespace Transition

variable {σ ε : Type*}

/-- The events `es` lead from `s₀` to the state in the last argument. -/
inductive Run (step : σ → ε → Option σ) (s₀ : σ) : List ε → σ → Prop where
  | nil : Run step s₀ [] s₀
  | snoc {es : List ε} {s t : σ} {e : ε} (h : Run step s₀ es s) (he : step s e = some t) :
      Run step s₀ (es ++ [e]) t

variable {step : σ → ε → Option σ} {s₀ s t u : σ} {es fs : List ε} {e : ε}

/-- Execute a list of events. -/
def exec (step : σ → ε → Option σ) : σ → List ε → Option σ
  | s, [] => some s
  | s, e :: es => (step s e).bind fun t => exec step t es

/-! ### Decomposing a run -/

@[simp] lemma run_nil_iff : Run step s₀ [] s ↔ s = s₀ := by
  constructor
  · intro h
    generalize hes : ([] : List ε) = es at h
    cases h with
    | nil => rfl
    | snoc h he => simp at hes
  · rintro rfl
    exact Run.nil

lemma run_snoc_iff :
    Run step s₀ (es ++ [e]) t ↔ ∃ s, Run step s₀ es s ∧ step s e = some t := by
  constructor
  · intro h
    generalize hes : es ++ [e] = fs at h
    cases h with
    | nil => simp at hes
    | snoc h he =>
      obtain ⟨rfl, heq⟩ := List.append_inj' hes rfl
      cases heq
      exact ⟨_, h, he⟩
  · rintro ⟨s, h, he⟩
    exact h.snoc he

/-- A run splits at every point of its history. -/
lemma run_append_iff :
    Run step s₀ (es ++ fs) t ↔ ∃ s, Run step s₀ es s ∧ Run step s fs t := by
  induction fs using List.reverseRecOn generalizing t with
  | nil => simp
  | append_singleton fs e ih =>
    rw [← List.append_assoc, run_snoc_iff]
    constructor
    · rintro ⟨u, hu, he⟩
      obtain ⟨s, hs, hsu⟩ := ih.mp hu
      exact ⟨s, hs, hsu.snoc he⟩
    · rintro ⟨s, hs, hst⟩
      obtain ⟨u, hsu, he⟩ := run_snoc_iff.mp hst
      exact ⟨u, ih.mpr ⟨s, hs, hsu⟩, he⟩

/-- Events determine the state they lead to. -/
lemma Run.unique (hs : Run step s₀ es s) (ht : Run step s₀ es t) : s = t := by
  induction hs generalizing t with
  | nil => exact (run_nil_iff.mp ht).symm
  | snoc h he ih =>
    obtain ⟨u, hu, hue⟩ := run_snoc_iff.mp ht
    rw [← ih hu, he] at hue
    exact Option.some.inj hue

lemma run_cons_iff :
    Run step s₀ (e :: es) t ↔ ∃ s, step s₀ e = some s ∧ Run step s es t := by
  rw [← List.singleton_append, run_append_iff, ← List.nil_append [e]]
  simp only [run_snoc_iff, run_nil_iff, exists_eq_left]

/-- Executing the events decides whether there is a run. -/
lemma run_iff_exec : Run step s₀ es t ↔ exec step s₀ es = some t := by
  induction es generalizing s₀ with
  | nil => simp [exec, eq_comm]
  | cons e es ih => simp [exec, run_cons_iff, Option.bind_eq_some_iff, ih]

/-- A run that is found by executing its events. -/
lemma exists_run (step : σ → ε → Option σ) (s₀ : σ) (es : List ε) (p : σ → Prop) [DecidablePred p]
    (h : (exec step s₀ es).any (fun t => decide (p t)) = true) : ∃ t, Run step s₀ es t ∧ p t := by
  cases ht : exec step s₀ es with
  | none => simp [ht] at h
  | some t => exact ⟨t, run_iff_exec.mpr ht, by simpa [ht] using h⟩

/-! ### Conditions on the steps of a run -/

/-- Every step that the events `es` take from `s₀` meets `P`, a condition on the state before
the step and on the event. -/
def Always (step : σ → ε → Option σ) (s₀ : σ) (P : σ → ε → Prop) (es : List ε) : Prop :=
  ∀ ⦃pre e post s⦄, es = pre ++ e :: post → Run step s₀ pre s → P s e

variable {P : σ → ε → Prop}

@[simp] lemma always_nil : Always step s₀ P [] := by
  intro pre e post s h
  simp at h

lemma Always.of_append (h : Always step s₀ P (es ++ fs)) : Always step s₀ P es := by
  intro pre e post s hes hs
  exact h (by rw [hes, List.append_assoc, List.cons_append]) hs

lemma Always.last (h : Always step s₀ P (es ++ [e])) (hs : Run step s₀ es s) : P s e :=
  h rfl hs

lemma Always.snoc (h : Always step s₀ P es) (hlast : ∀ s, Run step s₀ es s → P s e) :
    Always step s₀ P (es ++ [e]) := by
  intro pre f post s hes hs
  rcases List.eq_nil_or_concat post with rfl | ⟨post, g, rfl⟩
  · obtain ⟨rfl, heq⟩ := List.append_inj' hes rfl
    cases heq
    exact hlast s hs
  · rw [List.concat_eq_append, ← List.cons_append, ← List.append_assoc] at hes
    obtain ⟨rfl, -⟩ := List.append_inj' hes rfl
    exact h rfl hs

lemma Always.cons (h : P s e) (hes : ∀ t, step s e = some t → Always step t P es) :
    Always step s P (e :: es) := by
  intro pre f post u heq hu
  cases pre with
  | nil =>
    obtain ⟨rfl, -⟩ := List.cons.inj heq
    obtain rfl := run_nil_iff.mp hu
    exact h
  | cons g pre =>
    obtain ⟨rfl, hsplit⟩ := List.cons.inj heq
    obtain ⟨t, ht, hrun⟩ := run_cons_iff.mp hu
    exact hes t ht hsplit hrun

lemma Always.of_cons (h : Always step s P (e :: es)) (he : step s e = some t) :
    Always step t P es := by
  rintro before f after u rfl hu
  exact @h (e :: before) f after u rfl (run_cons_iff.mpr ⟨t, he, hu⟩)

lemma Always.and {P' : σ → ε → Prop} (h : Always step s₀ P es) (h' : Always step s₀ P' es) :
    Always step s₀ (fun s e => P s e ∧ P' s e) es :=
  fun _ _ _ _ hes hs => ⟨h hes hs, h' hes hs⟩

/-- A condition on the events alone. -/
lemma always_of_forall_mem {p : ε → Prop} (h : ∀ e ∈ es, p e) :
    Always step s₀ (fun _ e => p e) es := by
  rintro pre e post s rfl -
  exact h e (by simp)

/-- Execute a list of events and check the condition at every step. -/
def execAlways (step : σ → ε → Option σ) (P : σ → ε → Prop) [∀ s e, Decidable (P s e)] :
    σ → List ε → Bool
  | _, [] => true
  | s, e :: es => decide (P s e) && (step s e).all fun t => execAlways step P t es

lemma always_of_execAlways [∀ s e, Decidable (P s e)] (h : execAlways step P s es = true) :
    Always step s P es := by
  induction es generalizing s with
  | nil => exact always_nil
  | cons e es ih =>
    simp only [execAlways, Bool.and_eq_true, decide_eq_true_eq, Option.all_eq_true] at h
    exact Always.cons h.1 fun t ht => ih (h.2 t ht)

/-- As `Always`, for a condition on the history before the step as well. -/
def Throughout (step : σ → ε → Option σ) (s₀ : σ) (P : List ε → σ → ε → Prop) (es : List ε) :
    Prop :=
  ∀ ⦃pre e post s⦄, es = pre ++ e :: post → Run step s₀ pre s → P pre s e

@[simp] lemma throughout_nil {P : List ε → σ → ε → Prop} : Throughout step s₀ P [] := by
  intro pre e post s h
  simp at h

lemma throughout_snoc_iff {P : List ε → σ → ε → Prop} (hs : Run step s₀ es s) :
    Throughout step s₀ P (es ++ [e]) ↔ Throughout step s₀ P es ∧ P es s e := by
  constructor
  · intro h
    refine ⟨fun pre f post t hes ht => ?_, h rfl hs⟩
    exact h (by rw [hes, List.append_assoc, List.cons_append]) ht
  · rintro ⟨h, hlast⟩ pre f post t hes ht
    rcases List.eq_nil_or_concat post with rfl | ⟨post, g, rfl⟩
    · obtain ⟨rfl, heq⟩ := List.append_inj' hes rfl
      cases heq
      exact hs.unique ht ▸ hlast
    · rw [List.concat_eq_append, ← List.cons_append, ← List.append_assoc] at hes
      obtain ⟨rfl, -⟩ := List.append_inj' hes rfl
      exact h rfl ht

/-- Some step of the run has the property `Q` of the state before it, its event and the state
after it. -/
def Occurs (step : σ → ε → Option σ) (s₀ : σ) (Q : σ → ε → σ → Prop) (es : List ε) : Prop :=
  ∃ pre e post s t, es = pre ++ e :: post ∧ Run step s₀ pre s ∧ step s e = some t ∧ Q s e t

variable {Q : σ → ε → σ → Prop}

lemma Occurs.append (h : Occurs step s₀ Q es) (fs : List ε) : Occurs step s₀ Q (es ++ fs) := by
  obtain ⟨pre, e, post, s, t, rfl, hs, he, hq⟩ := h
  exact ⟨pre, e, post ++ fs, s, t, by simp, hs, he, hq⟩

lemma occurs_last (hs : Run step s₀ es s) (he : step s e = some t) (hq : Q s e t) :
    Occurs step s₀ Q (es ++ [e]) :=
  ⟨es, e, [], s, t, rfl, hs, he, hq⟩

@[simp] lemma not_occurs_nil : ¬Occurs step s₀ Q [] := by
  rintro ⟨pre, e, post, s, t, hes, -⟩
  simp at hes

lemma occurs_snoc_iff (hs : Run step s₀ es s) (he : step s e = some t) :
    Occurs step s₀ Q (es ++ [e]) ↔ Occurs step s₀ Q es ∨ Q s e t := by
  constructor
  · rintro ⟨pre, f, post, u, v, hes, hu, hf, hq⟩
    rcases List.eq_nil_or_concat post with rfl | ⟨post, g, rfl⟩
    · obtain ⟨rfl, heq⟩ := List.append_inj' hes rfl
      cases heq
      obtain rfl := hs.unique hu
      rw [he] at hf
      exact Or.inr (Option.some.inj hf ▸ hq)
    · rw [List.concat_eq_append, ← List.cons_append, ← List.append_assoc] at hes
      obtain ⟨rfl, -⟩ := List.append_inj' hes rfl
      exact Or.inl ⟨pre, f, post, u, v, rfl, hu, hf, hq⟩
  · rintro (h | hq)
    · exact h.append [e]
    · exact occurs_last hs he hq

/-- Some step of the run has the property `Q`, and every later step has the property `R`. -/
def Since (step : σ → ε → Option σ) (s₀ : σ) (Q : σ → ε → σ → Prop) (R : σ → ε → Prop)
    (es : List ε) : Prop :=
  ∃ pre e post s t, es = pre ++ e :: post ∧ Run step s₀ pre s ∧ step s e = some t ∧ Q s e t ∧
    ∀ ⦃mid f post' u⦄, post = mid ++ f :: post' → Run step s₀ (pre ++ e :: mid) u → R u f

variable {R : σ → ε → Prop}

@[simp] lemma not_since_nil : ¬Since step s₀ Q R [] := by
  rintro ⟨pre, e, post, s, t, hes, -⟩
  simp at hes

/-- Either the last step has the property `Q`, or it continues what held before it. -/
lemma since_snoc_iff (hs : Run step s₀ es s) (he : step s e = some t) :
    Since step s₀ Q R (es ++ [e]) ↔ Q s e t ∨ Since step s₀ Q R es ∧ R s e := by
  constructor
  · rintro ⟨pre, f, post, u, v, hes, hu, hf, hq, hr⟩
    rcases List.eq_nil_or_concat post with rfl | ⟨post, g, rfl⟩
    · obtain ⟨rfl, heq⟩ := List.append_inj' hes rfl
      cases heq
      obtain rfl := hs.unique hu
      rw [he] at hf
      exact Or.inl (Option.some.inj hf ▸ hq)
    · rw [List.concat_eq_append, ← List.cons_append, ← List.append_assoc] at hes
      obtain ⟨rfl, heq⟩ := List.append_inj' hes rfl
      cases heq
      refine Or.inr ⟨⟨pre, f, post, u, v, rfl, hu, hf, hq, ?_⟩, hr List.concat_eq_append hs⟩
      rintro mid g post' x rfl hx
      exact @hr mid g (post' ++ [e]) x (by simp) hx
  · rintro (hq | ⟨⟨pre, f, post, u, v, rfl, hu, hf, hq, hr⟩, hlast⟩)
    · refine ⟨es, e, [], s, t, rfl, hs, he, hq, ?_⟩
      intro mid f post' u hmid
      simp at hmid
    · refine ⟨pre, f, post ++ [e], u, v, by simp, hu, hf, hq, ?_⟩
      intro mid g post' x hmid hx
      rcases List.eq_nil_or_concat post' with rfl | ⟨post', k, rfl⟩
      · obtain ⟨rfl, heq⟩ := List.append_inj' hmid rfl
        cases heq
        obtain rfl := hs.unique hx
        exact hlast
      · rw [List.concat_eq_append, ← List.cons_append, ← List.append_assoc] at hmid
        obtain ⟨rfl, -⟩ := List.append_inj' hmid rfl
        exact hr rfl hx

/-! ### History variables -/

/-- The value of a history variable after the events: it starts as `a`, and a step from `s` with
the event `e` to `t` replaces it by `f s a e t`. -/
def along {α : Type*} (step : σ → ε → Option σ) (f : σ → α → ε → σ → α) : σ → α → List ε → α
  | _, a, [] => a
  | s, a, e :: es =>
    match step s e with
    | some t => along step f t (f s a e t) es
    | none => a

variable {α : Type*} {f : σ → α → ε → σ → α} {a : α}

@[simp] lemma along_nil : along step f s a [] = a := rfl

lemma along_cons (he : step s e = some t) :
    along step f s a (e :: es) = along step f t (f s a e t) es := by
  rw [along, he]

lemma along_snoc (hs : Run step s₀ es s) (he : step s e = some t) :
    along step f s₀ a (es ++ [e]) = f s (along step f s₀ a es) e t := by
  induction es generalizing s₀ a with
  | nil =>
    obtain rfl := run_nil_iff.mp hs
    rw [List.nil_append, along_cons he, along_nil, along_nil]
  | cons g es ih =>
    obtain ⟨u, hu, hrun⟩ := run_cons_iff.mp hs
    rw [List.cons_append, along_cons hu, along_cons hu, ih hrun]

/-! ### Induction rules -/

/-- What holds at the start and is kept by every step that meets `P` holds at the end of every
run whose steps all meet `P`. -/
theorem Run.invariant {I : List ε → σ → Prop} (hinit : I [] s₀)
    (hstep : ∀ es s e t, Run step s₀ es s → P s e → I es s → step s e = some t → I (es ++ [e]) t)
    (hrun : Run step s₀ es t) (hP : Always step s₀ P es) : I es t := by
  induction hrun with
  | nil => exact hinit
  | snoc h he ih => exact hstep _ _ _ _ h (hP.last h) (ih hP.of_append) he

/-- The unconditional rule, for a property of the state alone. -/
theorem Run.invariant_state {I : σ → Prop} (hinit : I s₀)
    (hstep : ∀ s e t, I s → step s e = some t → I t) (hrun : Run step s₀ es t) : I t :=
  hrun.invariant (P := fun _ _ => True) (I := fun _ s => I s) hinit
    (fun _ s e t _ _ hs he => hstep s e t hs he) (fun _ _ _ _ _ _ => trivial)

/-- The rule for a condition on the events. -/
theorem Run.invariant_of_events {I : σ → Prop} {p : ε → Prop} (hinit : I s₀)
    (hstep : ∀ s e t, I s → p e → step s e = some t → I t) (hrun : Run step s₀ es t)
    (hp : ∀ e ∈ es, p e) : I t :=
  hrun.invariant (P := fun _ e => p e) (I := fun _ s => I s) hinit
    (fun _ s e t _ hpe hs he => hstep s e t hs hpe he) (always_of_forall_mem hp)

/-- When `P` says exactly which steps of a run keep `G`, the run stays in `G` if and only if all
of its steps meet `P`. -/
theorem forall_prefix_iff_always_of_run {G : σ → Prop} (hG : G s₀)
    (hiff : ∀ pre e post s t, es = pre ++ e :: post → Run step s₀ pre s → G s →
      step s e = some t → (G t ↔ P s e)) (hrun : Run step s₀ es t) :
    (∀ pre post s, es = pre ++ post → Run step s₀ pre s → G s) ↔ Always step s₀ P es := by
  constructor
  · intro hgood pre e post s hes hs
    obtain ⟨u, hu, hut⟩ := run_append_iff.mp (hes ▸ hrun)
    obtain ⟨v, hv, -⟩ := run_cons_iff.mp hut
    obtain rfl := hu.unique hs
    refine (hiff pre e post _ v hes hu (hgood pre _ _ hes hu) hv).mp ?_
    exact hgood (pre ++ [e]) post v (by simp [hes]) (hu.snoc hv)
  · intro hP pre post s hes hs
    induction hs generalizing post with
    | nil => exact hG
    | @snoc pre s u e h he ih =>
      rw [List.append_assoc] at hes
      exact (hiff pre e post s u hes h (ih _ hes) he).mpr (hP hes h)

/-- The same for a condition that is exact in every state that satisfies the invariant `I`, which
needs no condition. -/
theorem forall_prefix_iff_always {I G : σ → Prop} (hI : I s₀)
    (hIstep : ∀ s e t, I s → step s e = some t → I t) (hG : G s₀)
    (hiff : ∀ s e t, I s → G s → step s e = some t → (G t ↔ P s e)) (hrun : Run step s₀ es t) :
    (∀ pre post s, es = pre ++ post → Run step s₀ pre s → G s) ↔ Always step s₀ P es :=
  forall_prefix_iff_always_of_run hG
    (fun _ _ _ _ _ _ hs hg he => hiff _ _ _ (hs.invariant_state hI hIstep) hg he) hrun

/-- When a step keeps `G` if and only if it meets `P`, and never restores it, `G` holds at the end
of a run if and only if all of its steps meet `P`. The invariant `I` needs no condition. -/
theorem iff_always {I G : σ → Prop} (hI : I s₀) (hIstep : ∀ s e t, I s → step s e = some t → I t)
    (hG : G s₀) (hiff : ∀ s e t, I s → step s e = some t → (G t ↔ G s ∧ P s e))
    (hrun : Run step s₀ es t) : G t ↔ Always step s₀ P es := by
  induction hrun with
  | nil => exact iff_of_true hG always_nil
  | snoc h he ih =>
    rw [hiff _ _ _ (h.invariant_state hI hIstep) he, ih]
    constructor
    · rintro ⟨hP, hlast⟩
      exact hP.snoc fun s hs => h.unique hs ▸ hlast
    · exact fun hP => ⟨hP.of_append, hP.last h⟩

/-- The rule `iff_always` for a condition on the history. -/
theorem iff_throughout {P : List ε → σ → ε → Prop} {G : σ → Prop} (hG : G s₀)
    (hiff : ∀ es s e t, Run step s₀ es s → step s e = some t → (G t ↔ G s ∧ P es s e))
    (hrun : Run step s₀ es t) : G t ↔ Throughout step s₀ P es := by
  induction hrun with
  | nil => exact iff_of_true hG throughout_nil
  | snoc h he ih => rw [hiff _ _ _ _ h he, ih, throughout_snoc_iff h]

/-- The rule `forall_prefix_iff_always_of_run` for a condition on the history. The invariant `I`
is on the history as well and is needed only as long as the run is in `G`. -/
theorem forall_prefix_iff_throughout {P : List ε → σ → ε → Prop} {G : σ → Prop}
    {I : List ε → σ → Prop} (hI : I [] s₀) (hG : G s₀)
    (hIstep : ∀ pre e post s t, es = pre ++ e :: post → Run step s₀ pre s → I pre s → G s →
      step s e = some t → G t → I (pre ++ [e]) t)
    (hiff : ∀ pre e post s t, es = pre ++ e :: post → Run step s₀ pre s → I pre s → G s →
      step s e = some t → (G t ↔ P pre s e)) (hrun : Run step s₀ es t) :
    (∀ pre post s, es = pre ++ post → Run step s₀ pre s → G s) ↔ Throughout step s₀ P es := by
  constructor
  · intro hgood
    have inv : ∀ pre post s, es = pre ++ post → Run step s₀ pre s → I pre s := by
      intro pre post s hes hs
      induction hs generalizing post with
      | nil => exact hI
      | @snoc pre s u e h he ih =>
        have hes' : es = pre ++ e :: post := by rw [hes, List.append_assoc, List.singleton_append]
        exact hIstep pre e post s u hes' h (ih _ hes') (hgood pre _ s hes' h) he
          (hgood _ post u hes (h.snoc he))
    intro pre e post s hes hs
    obtain ⟨u, hu, hut⟩ := run_append_iff.mp (hes ▸ hrun)
    obtain ⟨v, hv, -⟩ := run_cons_iff.mp hut
    obtain rfl := hu.unique hs
    refine (hiff pre e post _ v hes hu (inv pre _ _ hes hu) (hgood pre _ _ hes hu) hv).mp ?_
    exact hgood (pre ++ [e]) post v (by simp [hes]) (hu.snoc hv)
  · intro hP
    have good : ∀ pre post s, es = pre ++ post → Run step s₀ pre s → I pre s ∧ G s := by
      intro pre post s hes hs
      induction hs generalizing post with
      | nil => exact ⟨hI, hG⟩
      | @snoc pre s u e h he ih =>
        rw [List.append_assoc] at hes
        obtain ⟨hi, hg⟩ := ih _ hes
        have hg' := (hiff pre e post s u hes h hi hg he).mpr (hP hes h)
        exact ⟨hIstep pre e post s u hes h hi hg he hg', hg'⟩
    exact fun pre post s hes hs => (good pre post s hes hs).2

end Transition
