import HumanoidNavigation.Gateway.Bridge
import HumanoidNavigation.Transition.Run

/-!
# Runs of the motion gateway

Three sources act on the gateway in any order: the commands that `on_cmd` receives, the
operator's `g1-motion-arm` and `g1-motion-stop`, which create and remove the arm token, and the
timer. The clock is `time.monotonic()`, so an event can only happen at a time that is not
before the previous one.

The token is a level that ticks sample. `tokenAfter` and `sampledAfter` read the level and the
last sample off the history alone; `Tracks` relates them, and the latest arming, to the fields
of the node, and `tracks_of_run` shows the relation for every run.
-/

namespace Gateway

open Transition

inductive Event where
  | command (now : ℚ) (msg : Twist)
  | motionArm (now : ℚ)
  | motionStop (now : ℚ)
  | tick (now : ℚ)
  deriving DecidableEq

def Event.time : Event → ℚ
  | command now _ | motionArm now | motionStop now | tick now => now

/-- The node together with the arm token and the monotonic clock. -/
structure World where
  bridge : Bridge
  token : Bool
  clock : ℚ
  deriving DecidableEq

namespace World

/-- The node starts at time `now`; the token may have been left by an earlier session. -/
def init (now : ℚ) (token : Bool) : World := ⟨.init now, token, now⟩

def apply (w : World) : Event → World
  | .command now msg => { w with bridge := w.bridge.onCmd msg now, clock := now }
  | .motionArm now => { w with token := true, clock := now }
  | .motionStop now => { w with token := false, clock := now }
  | .tick now => { w with bridge := (w.bridge.tick w.token now).1, clock := now }

def step (w : World) (e : Event) : Option World :=
  if w.clock ≤ e.time then some (w.apply e) else none

/-- The velocity that a tick at time `now` hands to `_put_latest`. -/
def emitted (w : World) (now : ℚ) : Velocity := (w.bridge.tick w.token now).2.put

lemma step_eq_some_iff {w w' : World} {e : Event} :
    w.step e = some w' ↔ w.clock ≤ e.time ∧ w' = w.apply e := by
  simp only [step]
  split_ifs with h <;> simp [h, eq_comm]

@[simp] lemma apply_clock (w : World) (e : Event) : (w.apply e).clock = e.time := by
  cases e <;> rfl

end World

/-! ### What the history says about the token -/

variable {token₀ : Bool} {es : List Event}

/-- The token and its last sample, after one more event. -/
def observe (s : Bool × Bool) : Event → Bool × Bool
  | .command _ _ => s
  | .motionArm _ => (true, s.2)
  | .motionStop _ => (false, s.2)
  | .tick _ => (s.1, s.1)

/-- Is the token present after `es`? -/
def tokenAfter (token₀ : Bool) (es : List Event) : Bool := (es.foldl observe (token₀, false)).1

/-- Did the last tick of `es` see the token? No, when there was no tick. -/
def sampledAfter (token₀ : Bool) (es : List Event) : Bool :=
  (es.foldl observe (token₀, false)).2

@[simp] lemma tokenAfter_snoc (e : Event) :
    tokenAfter token₀ (es ++ [e]) =
      (observe (tokenAfter token₀ es, sampledAfter token₀ es) e).1 := by
  simp [tokenAfter, sampledAfter]

@[simp] lemma sampledAfter_snoc (e : Event) :
    sampledAfter token₀ (es ++ [e]) =
      (observe (tokenAfter token₀ es, sampledAfter token₀ es) e).2 := by
  simp [tokenAfter, sampledAfter]

/-- A tick after the history `es` observes a change from disarmed to armed. -/
def ArmingTick (token₀ : Bool) (es : List Event) : Prop :=
  tokenAfter token₀ es = true ∧ sampledAfter token₀ es = false

/-- The latest tick of `es` that observed a change from disarmed to armed happened at time `t`,
and `post` is what followed it. -/
def ArmedSince (token₀ : Bool) (es : List Event) (t : ℚ) (post : List Event) : Prop :=
  ∃ pre, es = pre ++ .tick t :: post ∧ ArmingTick token₀ pre ∧
    ∀ mid now rest, post = mid ++ .tick now :: rest →
      ¬ ArmingTick token₀ (pre ++ .tick t :: mid)

lemma armedSince_of_armingTick (h : ArmingTick token₀ es) (now : ℚ) :
    ArmedSince token₀ (es ++ [.tick now]) now [] :=
  ⟨es, rfl, h, fun mid now rest hmid => by simp at hmid⟩

/-- An event that is not an arming tick does not change which tick armed last. -/
lemma ArmedSince.snoc {t : ℚ} {post : List Event} {e : Event} (h : ArmedSince token₀ es t post)
    (he : ∀ now, e = .tick now → ¬ ArmingTick token₀ es) :
    ArmedSince token₀ (es ++ [e]) t (post ++ [e]) := by
  obtain ⟨pre, rfl, hpre, hpost⟩ := h
  refine ⟨pre, by simp, hpre, fun mid now rest hmid => ?_⟩
  rcases List.eq_nil_or_concat rest with rfl | ⟨rest, f, rfl⟩
  · obtain ⟨rfl, heq⟩ := List.append_inj' hmid rfl
    cases heq
    exact he now rfl
  · rw [List.concat_eq_append, ← List.cons_append, ← List.append_assoc] at hmid
    obtain ⟨rfl, -⟩ := List.append_inj' hmid rfl
    exact hpost mid now rest rfl

/-- The token is re-created only after a tick has seen it absent. -/
def RearmsSeen (token₀ : Bool) (es : List Event) : Prop :=
  ∀ ⦃pre t post⦄, es = pre ++ .motionArm t :: post →
    tokenAfter token₀ pre = false → sampledAfter token₀ pre = false

lemma RearmsSeen.of_append {fs : List Event} (h : RearmsSeen token₀ (es ++ fs)) :
    RearmsSeen token₀ es := by
  rintro pre t post rfl
  exact h (List.append_assoc ..)

/-- Once the token was removed, its presence means that it was created again. -/
lemma exists_motionArm {pre post : List Event} {t : ℚ}
    (h : tokenAfter token₀ (pre ++ .motionStop t :: post) = true) :
    ∃ mid t' rest, post = mid ++ .motionArm t' :: rest ∧
      tokenAfter token₀ (pre ++ .motionStop t :: mid) = false := by
  induction post using List.reverseRecOn with
  | nil => simp [observe] at h
  | append_singleton post e ih =>
    cases hpost : tokenAfter token₀ (pre ++ .motionStop t :: post) with
    | true =>
      obtain ⟨mid, t', rest, rfl, hmid⟩ := ih hpost
      exact ⟨mid, t', rest ++ [e], by simp, hmid⟩
    | false =>
      rw [← List.cons_append, ← List.append_assoc, tokenAfter_snoc, hpost] at h
      cases e with
      | motionArm t' => exact ⟨post, t', [], rfl, hpost⟩
      | command | motionStop | tick => simp [observe] at h

/-! ### The node follows the history -/

/-- While the node is armed, `armed_since` is the time of the latest arming tick, and the cached
command came after it. If in addition no re-creation of the token escaped the ticks, a token
that is present was not removed since then. -/
def ArmedClause (token₀ : Bool) (es : List Event) (w : World) : Prop :=
  w.bridge.wasArmed = true → ∃ post, ArmedSince token₀ es w.bridge.armedSince post ∧
    (∀ msg, w.bridge.latest = some msg → .command w.bridge.latestTime msg ∈ post) ∧
    (RearmsSeen token₀ es → w.token = true → ∀ t, .motionStop t ∉ post)

/-- The fields of the node say what the history says. -/
structure Tracks (token₀ : Bool) (es : List Event) (w : World) : Prop where
  token : w.token = tokenAfter token₀ es
  wasArmed : w.bridge.wasArmed = sampledAfter token₀ es
  limits : w.bridge.last.WithinLimits
  clock : ∀ e ∈ es, e.time ≤ w.clock
  sorted : es.Pairwise fun e f => e.time ≤ f.time
  armed : ArmedClause token₀ es w

lemma tracks_init (t₀ : ℚ) (token₀ : Bool) : Tracks token₀ [] (.init t₀ token₀) where
  token := rfl
  wasArmed := rfl
  limits := Velocity.zero_withinLimits
  clock := by simp
  sorted := List.Pairwise.nil
  armed := by simp [ArmedClause, World.init, Bridge.init]

variable {w : World}

lemma Tracks.armed_command (h : Tracks token₀ es w) (now : ℚ) (msg : Twist) :
    ArmedClause token₀ (es ++ [.command now msg]) (w.apply (.command now msg)) := by
  intro hw
  obtain ⟨post, harmed, -, hstop⟩ := h.armed hw
  refine ⟨post ++ [.command now msg], harmed.snoc (by simp), ?_, ?_⟩
  · intro m hm
    obtain rfl := Option.some.inj hm
    simp [World.apply, Bridge.onCmd]
  · intro hseen htoken t ht
    exact hstop hseen.of_append htoken t (by simpa using ht)

lemma Tracks.armed_motionArm (h : Tracks token₀ es w) (now : ℚ) :
    ArmedClause token₀ (es ++ [.motionArm now]) (w.apply (.motionArm now)) := by
  intro hw
  obtain ⟨post, harmed, hcmd, hstop⟩ := h.armed hw
  refine ⟨post ++ [.motionArm now], harmed.snoc (by simp), ?_, ?_⟩
  · intro msg hmsg
    exact List.mem_append_left _ (hcmd msg hmsg)
  · intro hseen _ t ht
    -- the last tick saw the token, so this is a `touch` of a token that is there
    have htoken : w.token = true := by
      by_contra hne
      have hfalse := hseen rfl (by rw [← h.token, Bool.eq_false_iff]; exact hne)
      rw [← h.wasArmed] at hfalse
      exact Bool.noConfusion (hfalse.symm.trans hw)
    exact hstop hseen.of_append htoken t (by simpa using ht)

lemma Tracks.armed_motionStop (h : Tracks token₀ es w) (now : ℚ) :
    ArmedClause token₀ (es ++ [.motionStop now]) (w.apply (.motionStop now)) := by
  intro hw
  obtain ⟨post, harmed, hcmd, -⟩ := h.armed hw
  refine ⟨post ++ [.motionStop now], harmed.snoc (by simp), ?_, ?_⟩
  · intro msg hmsg
    exact List.mem_append_left _ (hcmd msg hmsg)
  · intro _ htoken
    simp [World.apply] at htoken

lemma Tracks.armed_tick (h : Tracks token₀ es w) (now : ℚ) :
    ArmedClause token₀ (es ++ [.tick now]) (w.apply (.tick now)) := by
  intro hw
  have htoken : w.token = true := by simpa [World.apply] using hw
  cases hwas : w.bridge.wasArmed with
  | true =>
    -- the node was armed before: the settling period and the command are kept
    obtain ⟨post, harmed, hcmd, hstop⟩ := h.armed hwas
    obtain ⟨hsince, hlatest, htime⟩ := Bridge.tick_keeps w.token now (Or.inl hwas)
    refine ⟨post ++ [.tick now], ?_, ?_, ?_⟩
    · simp only [World.apply, hsince]
      refine harmed.snoc fun _ _ harming => ?_
      rw [ArmingTick, ← h.wasArmed, hwas] at harming
      exact Bool.noConfusion harming.2
    · intro msg hmsg
      simp only [World.apply, hlatest, htime] at hmsg ⊢
      exact List.mem_append_left _ (hcmd msg hmsg)
    · intro hseen _ t ht
      exact hstop hseen.of_append htoken t (by simpa using ht)
  | false =>
    -- this tick arms the node
    obtain ⟨hsince, hlatest⟩ := Bridge.tick_arming now hwas
    refine ⟨[], ?_, ?_, by simp⟩
    · simp only [World.apply, htoken, hsince]
      refine armedSince_of_armingTick ⟨?_, ?_⟩ now
      · rw [← h.token, htoken]
      · rw [← h.wasArmed, hwas]
    · simp [World.apply, htoken, hlatest]

lemma Tracks.apply (h : Tracks token₀ es w) {e : Event} (he : w.clock ≤ e.time) :
    Tracks token₀ (es ++ [e]) (w.apply e) := by
  have hle : ∀ f ∈ es, f.time ≤ e.time := fun f hf => (h.clock f hf).trans he
  refine ⟨?_, ?_, ?_, ?_, ?_, ?_⟩
  · rw [tokenAfter_snoc, ← h.token]
    cases e <;> rfl
  · rw [sampledAfter_snoc, ← h.token, ← h.wasArmed]
    cases e <;> simp [World.apply, observe, Bridge.onCmd]
  · cases e with
    | tick now => exact Bridge.tick_withinLimits h.limits
    | command | motionArm | motionStop => exact h.limits
  · intro f hf
    rw [World.apply_clock]
    rcases List.mem_append.mp hf with hf | hf
    · exact hle f hf
    · rw [List.mem_singleton.mp hf]
  · rw [List.pairwise_append]
    refine ⟨h.sorted, List.pairwise_singleton _ _, fun f hf g hg => ?_⟩
    rw [List.mem_singleton.mp hg]
    exact hle f hf
  · cases e with
    | command now msg => exact h.armed_command now msg
    | motionArm now => exact h.armed_motionArm now
    | motionStop now => exact h.armed_motionStop now
    | tick now => exact h.armed_tick now

/-- The node follows the history in every run. -/
theorem tracks_of_run {t₀ : ℚ} (hrun : Run World.step (.init t₀ token₀) es w) :
    Tracks token₀ es w := by
  induction hrun with
  | nil => exact tracks_init t₀ token₀
  | snoc h he ih =>
    obtain ⟨hclock, rfl⟩ := World.step_eq_some_iff.mp he
    exact ih.apply hclock

end Gateway
