import HumanoidNavigation.Gateway.History

/-!
# The motion gateway fails closed

`emitted_failClosed` is the safety property of single ticks in a run: what they emit is within
the limits, and nonzero only while the token is present, after the settling period of the
latest arming tick, and on a fresh command received after it.

Whether this also makes every re-arm a fresh arm depends on the ticks: the token is sampled, so
a token that is removed and created again between two ticks is never seen to be absent.
`emitted_after_stop` covers the runs in which every removal is seen.
-/

namespace Gateway

open Transition

variable {token₀ : Bool} {t₀ : ℚ} {es : List Event} {w : World} {now : ℚ}

/-- A nonzero velocity is only emitted after the settling period of the latest arming tick, on
a fresh command received since, and while the token is present. -/
lemma Tracks.of_emitted_ne_zero (h : Tracks token₀ es w) (hne : w.emitted now ≠ 0) :
    w.token = true ∧ w.bridge.wasArmed = true ∧ armSettleS ≤ now - w.bridge.armedSince ∧
      ∃ post, ArmedSince token₀ es w.bridge.armedSince post ∧
        (∃ msg, .command w.bridge.latestTime msg ∈ post) ∧
        now - w.bridge.latestTime ≤ cmdTimeoutS ∧
        (RearmsSeen token₀ es → ∀ t, .motionStop t ∉ post) := by
  obtain ⟨htoken, hwas, hsettle, msg, hmsg, hfresh⟩ := Bridge.of_tick_put_ne_zero hne
  obtain ⟨post, harmed, hcmd, hstop⟩ := h.armed hwas
  exact ⟨htoken, hwas, hsettle, post, harmed, ⟨msg, hcmd msg hmsg⟩, hfresh,
    fun hseen => hstop hseen htoken⟩

/-- In every run, a tick emits a finite velocity within the limits. It emits a nonzero one only
while the token is present, `ARM_SETTLE_S` after the latest tick that observed a change from
disarmed to armed, and on a command received after that tick and at most `CMD_TIMEOUT_S` ago.
A tick without token, or whose command is missing or stale, emits exactly zero. -/
theorem emitted_failClosed (hrun : Run World.step (.init t₀ token₀) es w) (now : ℚ) :
    (w.emitted now).WithinLimits ∧
    (w.emitted now ≠ 0 → tokenAfter token₀ es = true ∧
      ∃ t post, ArmedSince token₀ (es ++ [.tick now]) t post ∧ armSettleS ≤ now - t ∧
        ∃ t' msg, .command t' msg ∈ post ∧ now - t' ≤ cmdTimeoutS) ∧
    (tokenAfter token₀ es = false ∨
        (∀ t' msg, .command t' msg ∈ es → cmdTimeoutS < now - t') →
      w.emitted now = 0) := by
  have htracks := tracks_of_run hrun
  refine ⟨Bridge.tick_withinLimits htracks.limits, fun hne => ?_, fun hstale => ?_⟩
  · obtain ⟨htoken, hwas, hsettle, post, harmed, ⟨msg, hmsg⟩, hfresh, -⟩ :=
      htracks.of_emitted_ne_zero hne
    refine ⟨htracks.token ▸ htoken, w.bridge.armedSince, post ++ [.tick now], ?_, hsettle,
      w.bridge.latestTime, msg, List.mem_append_left _ hmsg, hfresh⟩
    refine harmed.snoc fun _ _ harming => ?_
    rw [ArmingTick, ← htracks.wasArmed, hwas] at harming
    exact Bool.noConfusion harming.2
  · by_contra hne
    obtain ⟨htoken, -, -, post, ⟨pre, rfl, -⟩, ⟨msg, hmsg⟩, hfresh, -⟩ :=
      htracks.of_emitted_ne_zero hne
    rcases hstale with htoken' | hstale
    · rw [← htracks.token, htoken] at htoken'
      exact Bool.noConfusion htoken'
    · exact absurd hfresh (not_le.mpr (hstale _ msg (by simp [hmsg])))

/-- An arming tick, a command with a NaN yaw rate, and one second later the first velocity. -/
theorem emitted_failClosed_first_motion : ∃ w : World,
    Run World.step (.init 0 true) [.tick 0, .command (9 / 10) ⟨.fin 1, .nan⟩] w ∧
      w.emitted 1 = ⟨.fin (1 / 40), .fin 0⟩ ∧ (w.emitted 1).WithinLimits := by
  have hrun : Run World.step (.init 0 true) [.tick 0, .command (9 / 10) ⟨.fin 1, .nan⟩]
      ⟨⟨some ⟨.fin 1, .nan⟩, 9 / 10, true, 0, none, 0, 0, 0⟩, true, 9 / 10⟩ :=
    run_iff_exec.mpr (by decide +kernel)
  exact ⟨_, hrun, by decide +kernel, (emitted_failClosed hrun 1).1⟩

/-! ### Re-arming -/

/-- After each `g1-motion-stop` of the history the token was created again, at least
`ARM_SETTLE_S` before `now`, and a command was received after that. -/
def FreshArm (token₀ : Bool) (es : List Event) (now : ℚ) : Prop :=
  ∀ ⦃pre t post⦄, es = pre ++ .motionStop t :: post →
    ∃ mid t' rest, post = mid ++ .motionArm t' :: rest ∧
      tokenAfter token₀ (pre ++ .motionStop t :: mid) = false ∧
      armSettleS ≤ now - t' ∧ ∃ t'' msg, .command t'' msg ∈ rest

/-- If a tick sees the token absent before each of its re-creations, every re-arm is a fresh
arm: a tick emits a nonzero velocity only if the history since every removal of the token
contains a re-creation, the settling period and a new command. -/
theorem emitted_after_stop (hrun : Run World.step (.init t₀ token₀) es w)
    (hseen : RearmsSeen token₀ es) (hne : w.emitted now ≠ 0) : FreshArm token₀ es now := by
  have htracks := tracks_of_run hrun
  obtain ⟨-, -, hsettle, post, ⟨pre, hes, harming, -⟩, ⟨msg, hmsg⟩, -, hstop⟩ :=
    htracks.of_emitted_ne_zero hne
  intro pre' t post' hes'
  -- the removal came before the arming tick
  obtain ⟨mid, rfl, rfl⟩ : ∃ mid, pre = pre' ++ .motionStop t :: mid ∧
      post' = mid ++ .tick w.bridge.armedSince :: post := by
    rw [hes] at hes'
    rcases List.append_eq_append_iff.mp hes' with ⟨as, rfl, has⟩ | ⟨bs, rfl, hbs⟩
    · cases as with
      | nil => simp at has
      | cons a as =>
        simp only [List.cons_append, List.cons.injEq] at has
        refine absurd ?_ (hstop hseen t)
        simp [has.2]
    · cases bs with
      | nil => simp at hbs
      | cons b bs =>
        simp only [List.cons_append, List.cons.injEq] at hbs
        exact ⟨bs, by rw [hbs.1], hbs.2⟩
  obtain ⟨mid', t', rest, rfl, hmid⟩ := exists_motionArm harming.1
  -- the token was created before the tick that saw it
  have hle : t' ≤ w.bridge.armedSince := by
    have hsorted := htracks.sorted
    rw [hes] at hsorted
    exact (List.pairwise_append.mp hsorted).2.2 (.motionArm t') (by simp) (.tick _)
      List.mem_cons_self
  refine ⟨mid', t', rest ++ .tick w.bridge.armedSince :: post, by simp, hmid, by linarith,
    w.bridge.latestTime, msg, ?_⟩
  exact List.mem_append_right _ (List.mem_cons_of_mem _ hmsg)

/-- The token is removed, seen to be absent and created again; a second later, on a new command,
the velocity is nonzero again. -/
theorem emitted_after_stop_seen :
    ∃ w : World, Run World.step (.init 0 true) [.tick 0, .motionStop 1, .tick (11 / 10),
        .motionArm (12 / 10), .tick (13 / 10), .command (23 / 10) ⟨.fin 1, .fin 0⟩] w ∧
      w.emitted (24 / 10) ≠ 0 ∧
      FreshArm true [.tick 0, .motionStop 1, .tick (11 / 10), .motionArm (12 / 10),
        .tick (13 / 10), .command (23 / 10) ⟨.fin 1, .fin 0⟩] (24 / 10) := by
  have hrun : Run World.step (.init 0 true) [.tick 0, .motionStop 1, .tick (11 / 10),
        .motionArm (12 / 10), .tick (13 / 10), .command (23 / 10) ⟨.fin 1, .fin 0⟩]
      ⟨⟨some ⟨.fin 1, .fin 0⟩, 23 / 10, true, 13 / 10, none, 0, 0, 13 / 10⟩, true, 23 / 10⟩ :=
    run_iff_exec.mpr (by decide +kernel)
  refine ⟨_, hrun, by decide +kernel, emitted_after_stop hrun ?_ (by decide +kernel)⟩
  intro pre t post hes habsent
  rcases pre with _ | ⟨a, _ | ⟨b, _ | ⟨c, _ | ⟨d, _ | ⟨e, _ | ⟨f, pre⟩⟩⟩⟩⟩⟩ <;> simp at hes
  obtain ⟨rfl, rfl, rfl, -⟩ := hes
  rfl

/-- The node is armed and driving. The operator runs `g1-motion-stop` and, before the next tick,
`g1-motion-arm`: that tick emits a nonzero velocity, eighty milliseconds after the token was
created again and on a command that is older than that. -/
theorem rearm_between_ticks_not_fresh :
    ¬ ∀ (es : List Event) (w : World) (now : ℚ), Run World.step (.init 0 true) es w →
      w.emitted now ≠ 0 → FreshArm true es now := by
  intro h
  have hrun : Run World.step (.init 0 true) [.tick 0, .command 1 ⟨.fin 1, .fin 0⟩, .tick 1,
        .motionStop (101 / 100), .motionArm (102 / 100)]
      ⟨⟨some ⟨.fin 1, .fin 0⟩, 1, true, 0, some 1, .fin (1 / 40), 0, 1⟩, true, 102 / 100⟩ :=
    run_iff_exec.mpr (by decide +kernel)
  have hfresh := h _ _ (110 / 100) hrun (by decide +kernel)
  obtain ⟨mid, t', rest, hpost, -, hsettle, -⟩ :=
    @hfresh [.tick 0, .command 1 ⟨.fin 1, .fin 0⟩, .tick 1] _ _ rfl
  have hmem : Event.motionArm t' ∈ [Event.motionArm (102 / 100)] := hpost ▸ (by simp)
  obtain rfl : t' = 102 / 100 := by simpa using hmem
  norm_num [armSettleS] at hsettle

end Gateway
