import HumanoidNavigation.Transition.Run

/-!
# Rebuilding an object behind a log

A thread rebuilds an object while another one, the main thread, goes on changing it. The rebuild
starts from a copy. From then on the main thread logs the operations that it applies and the thread
applies them again to the new object, until none is left and the new object takes the place of the
old one.

What the object shows is then what the main thread has made of it, `invisible`, as long as no
operation has waited for the lock since before the replacement and gets it after. Such an operation
stays in the log, and the next rebuild applies it a second time, `applied_twice`.
-/

namespace Shadow

open Transition

variable {σ ρ ω τ V : Type*}

/-- What the two threads do with an object. -/
structure Object (σ ρ ω τ : Type*) where
  /-- a rebuild may be asked for -/
  wanted : σ → Bool
  /-- the copy, and what it leaves of the object -/
  copy : σ → σ × ρ
  build : ρ → Option σ
  /-- an operation of the main thread -/
  operate : ω → σ → Option σ
  /-- the same operation, as the thread applies it -/
  replay : ω → σ → Option σ
  /-- a call of the main thread that shows something of the object -/
  look : τ → σ → σ

inductive Phase (σ ρ ω : Type*) where
  | idle
  | copied (raw : ρ)
  /-- the new object, and the operation that has been taken from the log for it -/
  | built (new : σ) (popped : Option ω)
  | replaced

structure State (σ ρ ω : Type*) where
  object : σ
  /-- a rebuild of the object is asked for or going on -/
  requested : Bool
  /-- operations are logged -/
  recording : Bool
  log : List ω
  /-- the operation with which the main thread waits for the lock -/
  waiting : Option ω
  phase : Phase σ ρ ω

def State.init (object : σ) : State σ ρ ω := ⟨object, false, false, [], none, .idle⟩

inductive Event (ω τ : Type*) where
  | request
  /-- the request goes to another object -/
  | withdraw
  /-- an operation that has seen no request -/
  | operate (o : ω)
  /-- an operation that has seen the request and waits for the lock -/
  | await (o : ω)
  /-- the operation that has waited is applied under the lock -/
  | locked
  | look (q : τ)
  | start
  | build
  | pop
  | replay
  | replace
  /-- the end of the recording, some time after the replacement -/
  | clear

/-- The state after an event, if the threads can get to it. -/
def step (b : Object σ ρ ω τ) (s : State σ ρ ω) : Event ω τ → Option (State σ ρ ω)
  | .request =>
    match s.waiting, s.phase with
    | none, .idle => if b.wanted s.object then some { s with requested := true } else none
    | _, _ => none
  | .withdraw =>
    match s.waiting, s.phase with
    | none, .idle => some { s with requested := false }
    | _, _ => none
  | .operate o =>
    match s.waiting, s.requested with
    | none, false => (b.operate o s.object).map fun object => { s with object }
    | _, _ => none
  | .await o =>
    match s.waiting, s.requested with
    | none, true => some { s with waiting := some o }
    | _, _ => none
  | .locked =>
    match s.waiting with
    | some o => (b.operate o s.object).map fun object =>
      { s with
        object
        waiting := none
        log := if s.recording then s.log ++ [o] else s.log }
    | none => none
  | .look q =>
    match s.waiting with
    | none => some { s with object := b.look q s.object }
    | some _ => none
  | .start =>
    match s.phase, s.requested with
    | .idle, true => some { s with
      object := (b.copy s.object).1
      recording := true
      phase := .copied (b.copy s.object).2 }
    | _, _ => none
  | .build =>
    match s.phase with
    | .copied raw => (b.build raw).map fun new => { s with phase := .built new none }
    | _ => none
  | .pop =>
    match s.phase, s.log with
    | .built new none, o :: log => some { s with log, phase := .built new (some o) }
    | _, _ => none
  | .replay =>
    match s.phase with
    | .built new (some o) => (b.replay o new).map fun new => { s with phase := .built new none }
    | _ => none
  | .replace =>
    match s.phase, s.log with
    | .built new none, [] => some { s with object := new, requested := false, phase := .replaced }
    | _, _ => none
  | .clear =>
    match s.phase with
    | .replaced => some { s with recording := false, phase := .idle }
    | _ => none

/-- The operations that the main thread has begun. -/
def operations (es : List (Event ω τ)) : List ω :=
  es.filterMap fun
    | .operate o => some o
    | .await o => some o
    | _ => none

@[simp] lemma operations_append (es fs : List (Event ω τ)) :
    operations (es ++ fs) = operations es ++ operations fs := by
  simp [operations]

/-! ### What the object shows -/

/-- What a list of operations makes of a view. -/
def after (act : ω → V → V) (os : List ω) (v : V) : V := os.foldl (fun v o => act o v) v

variable {act : ω → V → V} {os : List ω} {o : ω} {v : V}

@[simp] lemma after_nil : after act [] v = v := rfl

@[simp] lemma after_cons : after act (o :: os) v = after act os (act o v) := rfl

lemma after_append (os os' : List ω) (v : V) :
    after act (os ++ os') v = after act os' (after act os v) := List.foldl_append

@[simp] lemma after_concat : after act (os ++ [o]) v = act o (after act os v) := by
  simp [after]

/-- The functions of an object keep `I`, and on what `view` shows of it the operations with `p` act
as `act` does and the others not at all. -/
structure Lawful (b : Object σ ρ ω τ) (I : σ → Prop) (p : ω → Prop) (view : σ → V)
    (act : ω → V → V) : Prop where
  copy : ∀ {s}, I s → I (b.copy s).1 ∧ view (b.copy s).1 = view s
  build : ∀ {s new}, I s → b.build (b.copy s).2 = some new → I new ∧ view new = view s
  operate : ∀ {o s t}, I s → p o → b.operate o s = some t → I t ∧ view t = act o (view s)
  replay : ∀ {o s t}, I s → p o → b.replay o s = some t → I t ∧ view t = act o (view s)
  look : ∀ {q s}, I s → I (b.look q s) ∧ view (b.look q s) = view s

/-- The object is what the log makes of the copy or of the new object. -/
structure Inv (b : Object σ ρ ω τ) (I : σ → Prop) (p : ω → Prop) (view : σ → V)
    (act : ω → V → V) (s : State σ ρ ω) : Prop where
  object : I s.object
  waiting : ∀ o ∈ s.waiting, p o
  log : ∀ o ∈ s.log, p o
  phase : match s.phase with
    | .idle => s.recording = false ∧ s.log = []
    | .copied raw => s.recording = true ∧ s.requested = true ∧ ∀ new, b.build raw = some new →
        I new ∧ view s.object = after act s.log (view new)
    | .built new popped => s.recording = true ∧ s.requested = true ∧ (∀ o ∈ popped, p o) ∧ I new ∧
        view s.object = after act (popped.toList ++ s.log) (view new)
    | .replaced => s.recording = true ∧ s.log = []

/-- No operation gets the lock between the replacement and the end of the recording. -/
def Timely (s : State σ ρ ω) : Event ω τ → Prop
  | .locked =>
    match s.phase with
    | .replaced => False
    | _ => True
  | _ => True

variable {b : Object σ ρ ω τ} {I : σ → Prop} {p : ω → Prop} {view : σ → V} {s t : State σ ρ ω}
  {e : Event ω τ} {es : List (Event ω τ)} {x : σ}

lemma timely_of_ne_locked (h : ∀ e ∈ es, e ≠ .locked) : Always (step b) s Timely es := by
  rintro pre e post t rfl -
  cases e with
  | locked => exact absurd rfl (h _ (by simp))
  | _ => trivial

/-- An operation of the main thread that is logged if the thread is at the object. -/
lemma Inv.operate (h : Lawful b I p view act) (hs : Inv b I p view act s)
    (hp : p o) (hphase : s.phase ≠ .replaced) {object : σ}
    (ho : b.operate o s.object = some object) :
    Inv b I p view act
      { s with
        object
        waiting := none
        log := if s.recording then s.log ++ [o] else s.log } := by
  obtain ⟨hI, hview⟩ := h.operate hs.object hp ho
  obtain ⟨-, -, hlog, hph⟩ := hs
  have hlog' : ∀ o' ∈ (if s.recording then s.log ++ [o] else s.log), p o' := by
    intro o' ho'
    split_ifs at ho'
    · rcases List.mem_append.mp ho' with ho' | ho'
      · exact hlog o' ho'
      · rw [List.mem_singleton.mp ho']
        exact hp
    · exact hlog o' ho'
  refine ⟨hI, by simp, hlog', ?_⟩
  cases hcase : s.phase with
  | idle =>
    simp only [hcase] at hph
    simpa [hph.1] using hph.2
  | copied raw =>
    simp only [hcase] at hph
    obtain ⟨hrec, hreq, hbuild⟩ := hph
    refine ⟨hrec, hreq, fun new hnew => ?_⟩
    obtain ⟨hInew, hviewnew⟩ := hbuild new hnew
    refine ⟨hInew, ?_⟩
    simp only [hrec, if_true, after_concat]
    rw [hview, hviewnew]
  | built new popped =>
    simp only [hcase] at hph
    obtain ⟨hrec, hreq, hpopped, hInew, hviewnew⟩ := hph
    refine ⟨hrec, hreq, hpopped, hInew, ?_⟩
    simp only [hrec, if_true]
    rw [← List.append_assoc, after_concat, hview, hviewnew]
  | replaced => exact absurd hcase hphase

/-- A step keeps the invariant, and on the view it acts as the operation that it completes. -/
lemma inv_step (h : Lawful b I p view act) (hs : Inv b I p view act s)
    (hp : ∀ o ∈ operations [e], p o) (htimely : Timely s e) (he : step b s e = some t) :
    Inv b I p view act t ∧ after act t.waiting.toList (view t.object) =
      after act (s.waiting.toList ++ operations [e]) (view s.object) := by
  obtain ⟨object, requested, recording, log, waiting, phase⟩ := s
  have hobject := hs.object
  have hphase := hs.phase
  cases e with
  | request =>
    cases waiting <;> cases phase <;>
      simp only [step, reduceCtorEq, Option.ite_none_right_eq_some, Option.some.injEq] at he
    obtain ⟨-, rfl⟩ := he
    exact ⟨⟨hobject, hs.waiting, hs.log, hphase⟩, rfl⟩
  | withdraw =>
    cases waiting <;> cases phase <;> simp only [step, reduceCtorEq, Option.some.injEq] at he
    subst he
    exact ⟨⟨hobject, hs.waiting, hs.log, hphase⟩, rfl⟩
  | operate o =>
    cases waiting <;> cases requested <;>
      simp only [step, reduceCtorEq, Option.map_eq_some_iff] at he
    obtain ⟨object', ho, rfl⟩ := he
    have hpo : p o := hp o (by simp [operations])
    obtain ⟨hI, hview⟩ := h.operate hobject hpo ho
    refine ⟨⟨hI, hs.waiting, hs.log, ?_⟩, hview⟩
    cases phase with
    | idle => exact hphase
    | copied raw => simp at hphase
    | built new popped => simp at hphase
    | replaced => exact hphase
  | await o =>
    cases waiting <;> cases requested <;> simp only [step, reduceCtorEq, Option.some.injEq] at he
    subst he
    exact ⟨⟨hobject, by simpa using hp o (by simp [operations]), hs.log, hphase⟩, rfl⟩
  | locked =>
    cases waiting with
    | none => simp [step] at he
    | some o =>
      simp only [step, Option.map_eq_some_iff] at he
      obtain ⟨object', ho, rfl⟩ := he
      have hpo : p o := hs.waiting o rfl
      refine ⟨hs.operate h hpo (fun hcase => ?_) ho, ?_⟩
      · obtain rfl : phase = .replaced := hcase
        exact htimely
      · exact (h.operate hobject hpo ho).2
  | look q =>
    cases waiting <;> simp only [step, reduceCtorEq, Option.some.injEq] at he
    subst he
    obtain ⟨hI, hview⟩ := h.look (q := q) hobject
    refine ⟨⟨hI, hs.waiting, hs.log, ?_⟩, hview⟩
    cases phase with
    | idle => exact hphase
    | copied raw => simpa [hview] using hphase
    | built new popped => simpa [hview] using hphase
    | replaced => exact hphase
  | start =>
    cases phase <;> cases requested <;> simp only [step, reduceCtorEq, Option.some.injEq] at he
    subst he
    obtain ⟨hI, hview⟩ := h.copy hobject
    obtain ⟨-, hnil⟩ := hphase
    have hnil : log = [] := hnil
    refine ⟨⟨hI, hs.waiting, hs.log, rfl, rfl, fun new hnew => ?_⟩, ?_⟩
    · obtain ⟨hInew, hviewnew⟩ := h.build hobject hnew
      exact ⟨hInew, by simp [hnil, hview, hviewnew]⟩
    · simp [operations, hview]
  | build =>
    cases phase <;> simp only [step, reduceCtorEq, Option.map_eq_some_iff] at he
    obtain ⟨new, hnew, rfl⟩ := he
    obtain ⟨hrec, hreq, hbuild⟩ := hphase
    obtain ⟨hInew, hviewnew⟩ := hbuild new hnew
    exact ⟨⟨hobject, hs.waiting, hs.log, hrec, hreq, by simp, hInew, hviewnew⟩,
      by simp [operations]⟩
  | pop =>
    obtain _ | _ | ⟨new, _ | _⟩ | _ := phase <;> obtain _ | ⟨o, log⟩ := log <;>
      simp only [step, reduceCtorEq, Option.some.injEq] at he
    subst he
    obtain ⟨hrec, hreq, -, hInew, hviewnew⟩ := hphase
    have hlog := hs.log
    exact ⟨⟨hobject, hs.waiting, fun o' ho' => hlog o' (List.mem_cons_of_mem _ ho'), hrec, hreq,
      by simpa using hlog o List.mem_cons_self, hInew, hviewnew⟩, by simp [operations]⟩
  | replay =>
    obtain _ | _ | ⟨new, _ | o⟩ | _ := phase <;>
      simp only [step, reduceCtorEq, Option.map_eq_some_iff] at he
    obtain ⟨new', hnew', rfl⟩ := he
    obtain ⟨hrec, hreq, hpopped, hInew, hviewnew⟩ := hphase
    obtain ⟨hInew', hviewnew'⟩ := h.replay hInew (hpopped o rfl) hnew'
    refine ⟨⟨hobject, hs.waiting, hs.log, hrec, hreq, by simp, hInew', ?_⟩, by simp [operations]⟩
    rw [hviewnew']
    exact hviewnew
  | replace =>
    obtain _ | _ | ⟨new, _ | _⟩ | _ := phase <;> obtain _ | _ := log <;>
      simp only [step, reduceCtorEq, Option.some.injEq] at he
    subst he
    obtain ⟨hrec, -, -, hInew, hviewnew⟩ := hphase
    refine ⟨⟨hInew, hs.waiting, hs.log, hrec, rfl⟩, ?_⟩
    have hviewnew : view object = view new := hviewnew
    simp [operations, hviewnew]
  | clear =>
    cases phase <;> simp only [step, reduceCtorEq, Option.some.injEq] at he
    subst he
    exact ⟨⟨hobject, hs.waiting, hs.log, rfl, hphase.2⟩, by simp [operations]⟩

/-- In every run in which no operation is late, the object shows what the operations that the main
thread has begun make of it, apart from the one that is waiting. -/
theorem invisible (h : Lawful b I p view act) (hx : I x) (hrun : Run (step b) (.init x) es s)
    (hp : ∀ o ∈ operations es, p o) (htimely : Always (step b) (.init x) Timely es) :
    Inv b I p view act s ∧
      after act s.waiting.toList (view s.object) = after act (operations es) (view x) := by
  induction hrun with
  | nil => exact ⟨⟨hx, by simp [State.init], by simp [State.init], rfl, rfl⟩, rfl⟩
  | @snoc es s t e hrun he ih =>
    rw [operations_append] at hp ⊢
    obtain ⟨hinv, hview⟩ := ih (fun o ho => hp o (List.mem_append_left _ ho)) htimely.of_append
    obtain ⟨hinv', hview'⟩ := inv_step h hinv (fun o ho => hp o (List.mem_append_right _ ho))
      (htimely.last hrun) he
    refine ⟨hinv', hview'.trans ?_⟩
    rw [after_append, after_append, hview]

/-! ### What makes an object wanted -/

/-- What makes a rebuild of an object wanted stays true of it until the new object is put in. -/
structure Lasting (b : Object σ ρ ω τ) (I : σ → Prop) (p : ω → Prop) (Q : σ → Prop) : Prop where
  wanted : ∀ {s}, I s → b.wanted s = true → Q s
  copy : ∀ {s}, I s → Q s → Q (b.copy s).1
  operate : ∀ {o s t}, I s → p o → b.operate o s = some t → Q s → Q t
  look : ∀ {q s}, I s → Q s → Q (b.look q s)

lemma requested_step {Q : σ → Prop} (hQ : Lasting b I p Q) (hs : Inv b I p view act s)
    (hreq : s.requested = true → Q s.object) (he : step b s e = some t)
    (ht : t.requested = true) : Q t.object := by
  obtain ⟨object, requested, recording, log, waiting, phase⟩ := s
  have hI := hs.object
  cases e with
  | request =>
    cases waiting <;> cases phase <;>
      simp only [step, reduceCtorEq, Option.ite_none_right_eq_some, Option.some.injEq] at he
    obtain ⟨hwanted, rfl⟩ := he
    exact hQ.wanted hI hwanted
  | withdraw =>
    cases waiting <;> cases phase <;> simp only [step, reduceCtorEq, Option.some.injEq] at he
    subst he
    simp at ht
  | operate o =>
    cases waiting <;> cases requested <;>
      simp only [step, reduceCtorEq, Option.map_eq_some_iff] at he
    obtain ⟨object', -, rfl⟩ := he
    simp at ht
  | await o =>
    cases waiting <;> cases requested <;> simp only [step, reduceCtorEq, Option.some.injEq] at he
    subst he
    exact hreq rfl
  | locked =>
    cases waiting with
    | none => simp [step] at he
    | some o =>
      simp only [step, Option.map_eq_some_iff] at he
      obtain ⟨object', ho, rfl⟩ := he
      exact hQ.operate hI (hs.waiting o rfl) ho (hreq ht)
  | look q =>
    cases waiting <;> simp only [step, reduceCtorEq, Option.some.injEq] at he
    subst he
    exact hQ.look hI (hreq ht)
  | start =>
    cases phase <;> cases requested <;> simp only [step, reduceCtorEq, Option.some.injEq] at he
    subst he
    exact hQ.copy hI (hreq rfl)
  | build =>
    cases phase <;> simp only [step, reduceCtorEq, Option.map_eq_some_iff] at he
    obtain ⟨new, -, rfl⟩ := he
    exact hreq ht
  | pop =>
    obtain _ | _ | ⟨new, _ | _⟩ | _ := phase <;> obtain _ | ⟨o, log⟩ := log <;>
      simp only [step, reduceCtorEq, Option.some.injEq] at he
    subst he
    exact hreq ht
  | replay =>
    obtain _ | _ | ⟨new, _ | o⟩ | _ := phase <;>
      simp only [step, reduceCtorEq, Option.map_eq_some_iff] at he
    obtain ⟨new', -, rfl⟩ := he
    exact hreq ht
  | replace =>
    obtain _ | _ | ⟨new, _ | _⟩ | _ := phase <;> obtain _ | _ := log <;>
      simp only [step, reduceCtorEq, Option.some.injEq] at he
    subst he
    simp at ht
  | clear =>
    cases phase <;> simp only [step, reduceCtorEq, Option.some.injEq] at he
    subst he
    exact hreq ht

/-- In every run in which no operation is late, an object whose rebuild is asked for or going on
still has what has made it wanted. -/
theorem requested_of_run {Q : σ → Prop} (h : Lawful b I p view act) (hQ : Lasting b I p Q)
    (hx : I x) (hrun : Run (step b) (.init x) es s) (hp : ∀ o ∈ operations es, p o)
    (htimely : Always (step b) (.init x) Timely es) (hs : s.requested = true) : Q s.object := by
  induction hrun with
  | nil => simp [State.init] at hs
  | @snoc es s t e hrun he ih =>
    rw [operations_append] at hp
    have hp' : ∀ o ∈ operations es, p o := fun o ho => hp o (List.mem_append_left _ ho)
    obtain ⟨hinv, -⟩ := invisible h hx hrun hp' htimely.of_append
    exact requested_step hQ hinv (ih hp' htimely.of_append) he hs

/-- The object that is put in shows what the one that is taken out does. -/
theorem Inv.replacement (hs : Inv b I p view act s) {new : σ} (hphase : s.phase = .built new none)
    (hlog : s.log = []) : I new ∧ view new = view s.object := by
  have hinv := hs.phase
  simp only [hphase, hlog] at hinv
  obtain ⟨-, -, -, hInew, hview⟩ := hinv
  exact ⟨hInew, hview.symm⟩

/-! ### An operation that is late -/

/-- Until the next rebuild begins nothing more is logged, and `left` is in the log. -/
structure Left (I : σ → Prop) (p : ω → Prop) (left : List ω) (s : State σ ρ ω) : Prop where
  object : I s.object
  waiting : ∀ o ∈ s.waiting, p o
  log : s.log = left
  phase : s.phase = .idle ∧ s.recording = false ∨
    s.phase = .replaced ∧ s.requested = false ∧ s.waiting = none

/-- The object that the thread is about to put in will show `v`. -/
structure Pending (b : Object σ ρ ω τ) (I : σ → Prop) (p : ω → Prop) (view : σ → V)
    (act : ω → V → V) (v : V) (s : State σ ρ ω) : Prop where
  object : I s.object
  waiting : ∀ o ∈ s.waiting, p o
  log : ∀ o ∈ s.log, p o
  recording : s.recording = true
  requested : s.requested = true
  phase : match s.phase with
    | .copied raw => ∀ new, b.build raw = some new → I new ∧ v = after act s.log (view new)
    | .built new popped => (∀ o ∈ popped, p o) ∧ I new ∧
        v = after act (popped.toList ++ s.log) (view new)
    | .idle | .replaced => False

lemma replaced_step (hs : s.phase = .replaced → s.requested = false) (he : step b s e = some t)
    (ht : t.phase = .replaced) : t.requested = false := by
  obtain ⟨object, requested, recording, log, waiting, phase⟩ := s
  cases e with
  | request =>
    cases waiting <;> cases phase <;>
      simp only [step, reduceCtorEq, Option.ite_none_right_eq_some, Option.some.injEq] at he
    obtain ⟨-, rfl⟩ := he
    cases ht
  | withdraw =>
    cases waiting <;> cases phase <;> simp only [step, reduceCtorEq, Option.some.injEq] at he
    subst he
    rfl
  | operate o =>
    cases waiting <;> cases requested <;>
      simp only [step, reduceCtorEq, Option.map_eq_some_iff] at he
    obtain ⟨object', -, rfl⟩ := he
    rfl
  | await o =>
    cases waiting <;> cases requested <;> simp only [step, reduceCtorEq, Option.some.injEq] at he
    subst he
    exact hs ht
  | locked =>
    cases waiting <;> simp only [step, reduceCtorEq, Option.map_eq_some_iff] at he
    obtain ⟨object', -, rfl⟩ := he
    exact hs ht
  | look q =>
    cases waiting <;> simp only [step, reduceCtorEq, Option.some.injEq] at he
    subst he
    exact hs ht
  | start =>
    cases phase <;> cases requested <;> simp only [step, reduceCtorEq, Option.some.injEq] at he
    subst he
    cases ht
  | build =>
    cases phase <;> simp only [step, reduceCtorEq, Option.map_eq_some_iff] at he
    obtain ⟨new, -, rfl⟩ := he
    cases ht
  | pop =>
    obtain _ | _ | ⟨new, _ | _⟩ | _ := phase <;> obtain _ | ⟨o, log⟩ := log <;>
      simp only [step, reduceCtorEq, Option.some.injEq] at he
    subst he
    cases ht
  | replay =>
    obtain _ | _ | ⟨new, _ | o⟩ | _ := phase <;>
      simp only [step, reduceCtorEq, Option.map_eq_some_iff] at he
    obtain ⟨new', -, rfl⟩ := he
    cases ht
  | replace =>
    obtain _ | _ | ⟨new, _ | _⟩ | _ := phase <;> obtain _ | _ := log <;>
      simp only [step, reduceCtorEq, Option.some.injEq] at he
    subst he
    rfl
  | clear =>
    cases phase <;> simp only [step, reduceCtorEq, Option.some.injEq] at he
    subst he
    cases ht

/-- Nothing is asked for between a replacement and the end of the recording. -/
lemma requested_of_replaced (hrun : Run (step b) (.init x) es s) (hphase : s.phase = .replaced) :
    s.requested = false := by
  have hinv : s.phase = .replaced → s.requested = false :=
    hrun.invariant_state (I := fun s => s.phase = .replaced → s.requested = false)
      (by simp [State.init]) fun _ _ _ hs he ht => replaced_step hs he ht
  exact hinv hphase

/-- A step before the next rebuild leaves the log as it is. -/
lemma left_step {left : List ω} (h : Lawful b I p view act) (hs : Left I p left s)
    (hp : ∀ o ∈ operations [e], p o) (hstart : e ≠ .start) (he : step b s e = some t) :
    Left I p left t ∧ after act t.waiting.toList (view t.object) =
      after act (s.waiting.toList ++ operations [e]) (view s.object) := by
  obtain ⟨object, requested, recording, log, waiting, phase⟩ := s
  obtain ⟨hobject, hwaiting, hlog, hphase⟩ := hs
  obtain rfl : log = left := hlog
  cases e with
  | request =>
    cases waiting <;> cases phase <;>
      simp only [step, reduceCtorEq, Option.ite_none_right_eq_some, Option.some.injEq] at he
    obtain ⟨-, rfl⟩ := he
    exact ⟨⟨hobject, hwaiting, rfl, by simpa using hphase⟩, rfl⟩
  | withdraw =>
    cases waiting <;> cases phase <;> simp only [step, reduceCtorEq, Option.some.injEq] at he
    subst he
    exact ⟨⟨hobject, hwaiting, rfl, by simpa using hphase⟩, rfl⟩
  | operate o =>
    cases waiting <;> cases requested <;>
      simp only [step, reduceCtorEq, Option.map_eq_some_iff] at he
    obtain ⟨object', ho, rfl⟩ := he
    obtain ⟨hI, hview⟩ := h.operate hobject (hp o (by simp [operations])) ho
    exact ⟨⟨hI, hwaiting, rfl, hphase⟩, hview⟩
  | await o =>
    cases waiting <;> cases requested <;> simp only [step, reduceCtorEq, Option.some.injEq] at he
    subst he
    exact ⟨⟨hobject, by simpa using hp o (by simp [operations]), rfl, by simpa using hphase⟩, rfl⟩
  | locked =>
    cases waiting with
    | none => simp [step] at he
    | some o =>
      simp only [step, Option.map_eq_some_iff] at he
      obtain ⟨object', ho, rfl⟩ := he
      obtain ⟨hI, hview⟩ := h.operate hobject (hwaiting o rfl) ho
      obtain ⟨hidle, hrec⟩ : phase = .idle ∧ recording = false := by simpa using hphase
      exact ⟨⟨hI, by simp, by simp [hrec], .inl ⟨hidle, hrec⟩⟩, hview⟩
  | look q =>
    cases waiting <;> simp only [step, reduceCtorEq, Option.some.injEq] at he
    subst he
    obtain ⟨hI, hview⟩ := h.look (q := q) hobject
    exact ⟨⟨hI, hwaiting, rfl, hphase⟩, hview⟩
  | start => exact absurd rfl hstart
  | clear =>
    cases phase <;> simp only [step, reduceCtorEq, Option.some.injEq] at he
    subst he
    exact ⟨⟨hobject, hwaiting, rfl, .inl ⟨rfl, rfl⟩⟩, by simp [operations]⟩
  | build | pop | replay | replace =>
    obtain ⟨rfl, -⟩ | ⟨rfl, -⟩ := hphase <;> simp [step] at he

/-- A step of the next rebuild, or of the main thread during it. -/
lemma pending_step (h : Lawful b I p view act) (hs : Pending b I p view act v s)
    (hp : ∀ o ∈ operations [e], p o) (hreplace : e ≠ .replace) (he : step b s e = some t) :
    ∃ v', Pending b I p view act v' t ∧ after act t.waiting.toList v' =
      after act (s.waiting.toList ++ operations [e]) v := by
  obtain ⟨object, requested, recording, log, waiting, phase⟩ := s
  obtain ⟨hobject, hwaiting, hlog, hrec, hreq, hphase⟩ := hs
  obtain rfl : recording = true := hrec
  obtain rfl : requested = true := hreq
  cases e with
  | request | withdraw =>
    cases waiting <;> cases phase <;> simp only [step, reduceCtorEq] at he
    exact hphase.elim
  | operate o => cases waiting <;> simp [step] at he
  | await o =>
    cases waiting <;> simp only [step, reduceCtorEq, Option.some.injEq] at he
    subst he
    exact ⟨v, ⟨hobject, by simpa using hp o (by simp [operations]), hlog, rfl, rfl, hphase⟩, rfl⟩
  | locked =>
    cases waiting with
    | none => simp [step] at he
    | some o =>
      simp only [step, Option.map_eq_some_iff] at he
      obtain ⟨object', ho, rfl⟩ := he
      have hpo : p o := hwaiting o rfl
      refine ⟨act o v, ⟨(h.operate hobject hpo ho).1, by simp, ?_, rfl, rfl, ?_⟩, rfl⟩
      · simp only [if_true, List.mem_append, List.mem_singleton]
        rintro o' (ho' | rfl)
        · exact hlog o' ho'
        · exact hpo
      · cases phase with
        | idle | replaced => exact hphase
        | copied raw =>
          refine fun new hnew => ⟨(hphase new hnew).1, ?_⟩
          change act o v = after act (log ++ [o]) (view new)
          rw [after_concat, (hphase new hnew).2]
        | built new popped =>
          obtain ⟨hpopped, hInew, hview⟩ := hphase
          refine ⟨hpopped, hInew, ?_⟩
          change act o v = after act (popped.toList ++ (log ++ [o])) (view new)
          rw [← List.append_assoc, after_concat, hview]
  | look q =>
    cases waiting <;> simp only [step, reduceCtorEq, Option.some.injEq] at he
    subst he
    exact ⟨v, ⟨(h.look hobject).1, hwaiting, hlog, rfl, rfl, hphase⟩, rfl⟩
  | start | clear =>
    cases phase <;> simp only [step, reduceCtorEq] at he
    exact hphase.elim
  | build =>
    cases phase <;> simp only [step, reduceCtorEq, Option.map_eq_some_iff] at he
    obtain ⟨new, hnew, rfl⟩ := he
    obtain ⟨hInew, hview⟩ := hphase new hnew
    exact ⟨v, ⟨hobject, hwaiting, hlog, rfl, rfl, by simp, hInew, hview⟩, by simp [operations]⟩
  | pop =>
    obtain _ | _ | ⟨new, _ | _⟩ | _ := phase <;> obtain _ | ⟨o, log⟩ := log <;>
      simp only [step, reduceCtorEq, Option.some.injEq] at he
    subst he
    obtain ⟨-, hInew, hview⟩ := hphase
    exact ⟨v, ⟨hobject, hwaiting, fun o' ho' => hlog o' (List.mem_cons_of_mem _ ho'), rfl, rfl,
      by simpa using hlog o List.mem_cons_self, hInew, hview⟩, by simp [operations]⟩
  | replay =>
    obtain _ | _ | ⟨new, _ | o⟩ | _ := phase <;>
      simp only [step, reduceCtorEq, Option.map_eq_some_iff] at he
    obtain ⟨new', hnew', rfl⟩ := he
    obtain ⟨hpopped, hInew, hview⟩ := hphase
    obtain ⟨hInew', hview'⟩ := h.replay hInew (hpopped o rfl) hnew'
    refine ⟨v, ⟨hobject, hwaiting, hlog, rfl, rfl, by simp, hInew', ?_⟩, by simp [operations]⟩
    rw [hview', hview]
    rfl
  | replace => exact absurd rfl hreplace

section

variable {before during : List (Event ω τ)} {left : List ω} {u : State σ ρ ω}

lemma left_run (h : Lawful b I p view act) (hs : Left I p left s) (hrun : Run (step b) s before t)
    (hstart : .start ∉ before) (hp : ∀ o ∈ operations before, p o) :
    Left I p left t ∧ after act t.waiting.toList (view t.object) =
      after act (s.waiting.toList ++ operations before) (view s.object) := by
  induction hrun with
  | nil => exact ⟨hs, by simp [operations]⟩
  | @snoc es t u e hrun he ih =>
    rw [operations_append] at hp ⊢
    rw [List.mem_append, not_or] at hstart
    obtain ⟨hleft, hview⟩ := ih hstart.1 fun o ho => hp o (List.mem_append_left _ ho)
    obtain ⟨hleft', hview'⟩ := left_step h hleft (fun o ho => hp o (List.mem_append_right _ ho))
      (fun he => hstart.2 (by simp [he])) he
    refine ⟨hleft', hview'.trans ?_⟩
    rw [← List.append_assoc, after_append, after_append, hview]

lemma pending_run (h : Lawful b I p view act) (hs : Pending b I p view act v s)
    (hrun : Run (step b) s during t) (hreplace : .replace ∉ during)
    (hp : ∀ o ∈ operations during, p o) :
    ∃ v', Pending b I p view act v' t ∧ after act t.waiting.toList v' =
      after act (s.waiting.toList ++ operations during) v := by
  induction hrun with
  | nil => exact ⟨v, hs, by simp [operations]⟩
  | @snoc es t u e hrun he ih =>
    rw [operations_append] at hp ⊢
    rw [List.mem_append, not_or] at hreplace
    obtain ⟨v₁, hpending, hview⟩ := ih hreplace.1 fun o ho => hp o (List.mem_append_left _ ho)
    obtain ⟨v₂, hpending', hview'⟩ := pending_step h hpending
      (fun o ho => hp o (List.mem_append_right _ ho)) (fun he => hreplace.2 (by simp [he])) he
    refine ⟨v₂, hpending', hview'.trans ?_⟩
    rw [← List.append_assoc, after_append, after_append, hview]

/-- The next rebuild applies what is left in the log to the copy. -/
theorem leftover_replayed (h : Lawful b I p view act) (ht : Left I p left t)
    (hleft : ∀ o ∈ left, p o) (hrun : Run (step b) t (.start :: during ++ [.replace]) u)
    (hreplace : .replace ∉ during) (hp : ∀ o ∈ operations during, p o) :
    after act u.waiting.toList (view u.object) =
      after act (left ++ (t.waiting.toList ++ operations during)) (view t.object) := by
  obtain ⟨t₁, h₁, hrun⟩ := run_cons_iff.mp hrun
  obtain ⟨t₂, hduring, h₂⟩ := run_append_iff.mp hrun
  obtain ⟨u', h₂, hend⟩ := run_cons_iff.mp h₂
  obtain rfl := run_nil_iff.mp hend
  have hpending : Pending b I p view act (after act left (view t.object)) t₁ ∧
      t₁.waiting = t.waiting := by
    obtain ⟨object, requested, recording, log, waiting, phase⟩ := t
    cases phase <;> cases requested <;> simp only [step, reduceCtorEq, Option.some.injEq] at h₁
    subst h₁
    obtain ⟨hobject, hwaiting, rfl, -⟩ := ht
    refine ⟨⟨(h.copy hobject).1, hwaiting, hleft, rfl, rfl, fun new hnew => ?_⟩, rfl⟩
    obtain ⟨hInew, hview⟩ := h.build hobject hnew
    exact ⟨hInew, by rw [hview]⟩
  obtain ⟨v', hpending', hview⟩ := pending_run h hpending.1 hduring hreplace hp
  rw [after_append, ← hpending.2, ← hview]
  obtain ⟨object, requested, recording, log, waiting, phase⟩ := t₂
  obtain _ | _ | ⟨new, _ | _⟩ | _ := phase <;> obtain _ | _ := log <;>
    simp only [step, reduceCtorEq, Option.some.injEq] at h₂
  subst h₂
  obtain ⟨-, -, hnew⟩ := hpending'.phase
  rw [hnew]
  rfl

/-- An operation that gets the lock only after the replacement is applied at once, and a second
time at the copy of the next rebuild, whatever operations come before it and during it. -/
theorem applied_twice (h : Lawful b I p view act) (hx : I x)
    (hrun : Run (step b) (.init x) es s) (hes : ∀ o ∈ operations es, p o)
    (htimely : Always (step b) (.init x) Timely es)
    (hphase : s.phase = .replaced) (hwaiting : s.waiting = some o)
    (hbefore : Run (step b) s (.locked :: before) t) (hstart : .start ∉ before)
    (hduring : Run (step b) t (.start :: during ++ [.replace]) u) (hreplace : .replace ∉ during)
    (hp : ∀ o ∈ operations (before ++ during), p o) :
    after act t.waiting.toList (view t.object) =
        after act (o :: operations before) (view s.object) ∧
      after act u.waiting.toList (view u.object) =
        after act (o :: (t.waiting.toList ++ operations during)) (view t.object) := by
  have hrequested := requested_of_replaced hrun hphase
  obtain ⟨hs, -⟩ := invisible h hx hrun hes htimely
  rw [operations_append] at hp
  obtain ⟨s₁, h₁, hbefore⟩ := run_cons_iff.mp hbefore
  have hpo : p o := hs.waiting o (by simp [hwaiting])
  have hleft : Left I p [o] s₁ ∧ s₁.waiting = none ∧ view s₁.object = act o (view s.object) := by
    obtain ⟨object, requested, recording, log, waiting, phase⟩ := s
    obtain rfl : phase = .replaced := hphase
    obtain rfl : waiting = some o := hwaiting
    obtain ⟨hrec, hlog⟩ := hs.phase
    obtain rfl : recording = true := hrec
    obtain rfl : log = [] := hlog
    simp only [step, Option.map_eq_some_iff] at h₁
    obtain ⟨object', ho, rfl⟩ := h₁
    obtain ⟨hI, hview⟩ := h.operate hs.object hpo ho
    exact ⟨⟨hI, by simp, rfl, .inr ⟨rfl, hrequested, rfl⟩⟩, rfl, hview⟩
  obtain ⟨hleft, hnone, hview⟩ := hleft
  obtain ⟨hleft', hview'⟩ := left_run h hleft hbefore hstart fun o ho =>
    hp o (List.mem_append_left _ ho)
  refine ⟨?_, leftover_replayed h hleft' (by simpa using hpo) hduring hreplace fun o ho =>
    hp o (List.mem_append_right _ ho)⟩
  rw [hview', hnone, hview]
  rfl

end

end Shadow
