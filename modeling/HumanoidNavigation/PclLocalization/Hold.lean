import HumanoidNavigation.PclLocalization.System

/-!
# Registrations that cannot be used

An accepted registration for which no synchronized odometry pose is found should change nothing,
and a transform from the map to the odometry frame should be composed of a pose and a transform of
one stamp. `applyAcceptedPoseBackendResult` holds such a registration back, but the backend result
still says that the pose is to be published, at the stamp of the scan.

`World.synchronized_iff_always_fuses` says exactly which registrations, and which stamps, break
this.
-/

namespace PclLocalization

open CppFloat Ros Transition

variable {F M : Type} [CppFloat F] {lib : Lib F M} {cfg : Config F}

/-! ### Stamps -/

/-- The pose and the transform from the odometry frame to the base have the same stamp. -/
def MapToOdom.SameStamp (c : MapToOdom F) : Prop := c.poseStamp = c.odomToBaseStamp

/-- A lookup at the stamp, if the node composes anything, returns a transform of that stamp. -/
def Composable (cfg : Config F) (tf : TfBuffer F) (stamp : Stamp) : Prop :=
  cfg.enableMapOdomTf = true → stamp = ⟨0, 0⟩ → ∀ latest ∈ tf.latest, latest.1 = ⟨0, 0⟩

omit [CppFloat F] in
lemma Composable.sameStamp {tf : TfBuffer F} {stamp : Stamp} {c : MapToOdom F}
    (h : Composable cfg tf stamp)
    (hcomposed : (Output.mapToOdom c : Output F M).Composed cfg stamp stamp tf) : c.SameStamp := by
  obtain ⟨henabled, hpose, odomToBase, hlookup, hodom⟩ := hcomposed.2 c rfl
  rw [MapToOdom.SameStamp, hpose, hodom]
  by_cases hzero : stamp = ⟨0, 0⟩
  · subst hzero
    simp only [TfBuffer.lookupTransform, if_true, Option.map_eq_some_iff] at hlookup
    obtain ⟨latest, hlatest, rfl⟩ := hlookup
    exact (h henabled rfl latest hlatest).symm
  · exact (TfBuffer.stamp_of_lookupTransform hzero hlookup).symm

namespace Node

variable {s t : Node F M} {P : Output F M → Prop}

/-- Whatever is held or was sent is composed of one stamp. -/
def SameStamps (s : Node F M) : Prop :=
  ∀ c, s.lastMapToOdomTransform = some c ∨ .mapToOdom c ∈ s.sent → c.SameStamp

omit [CppFloat F] in
lemma sameStamps_of_frame (hframe : Frame P s t) (h : s.SameStamps)
    (hP : ∀ c, P (.mapToOdom c) → c.SameStamp) : t.SameStamps := by
  obtain ⟨outs, hsent, houts⟩ := hframe.sent
  have hmem : ∀ c, .mapToOdom c ∈ t.sent → c.SameStamp := by
    intro c hc
    rw [hsent] at hc
    rcases List.mem_append.mp hc with hold | hnew
    · exact h c (Or.inr hold)
    · exact hP c (houts _ hnew)
  rintro c (hheld | hc)
  · rcases hframe.held c hheld with hold | hc
    · exact h c (Or.inl hold)
    · exact hmem c hc
  · exact hmem c hc

omit [CppFloat F] in
/-- `publishPoseTransform` composes a transform when it finds one in the buffer. -/
lemma exists_mapToOdom_sent {stamp : Stamp} {tf : TfBuffer F} {odomToBase : TransformStamped F}
    (s : Node F M) (msg : PoseWithCovarianceStamped F) (henabled : cfg.enableMapOdomTf = true)
    (hlookup : tf.lookupTransform cfg.odomFrameId cfg.baseFrameId stamp = some odomToBase) :
    ∃ c, .mapToOdom c ∈ (s.publishPoseTransform lib cfg stamp msg tf).1.sent ∧
      c.poseStamp = msg.stamp ∧ c.odomToBaseStamp = odomToBase.stamp := by
  simp only [publishPoseTransform, henabled, Bool.not_true, Bool.false_eq_true, if_false,
    publishMapToOdomTransform, hlookup]
  exact ⟨_, List.mem_append_right _ (List.mem_singleton_self _), rfl, rfl⟩

omit [CppFloat F] in
/-- So when a pose is published at its own stamp without mixing stamps, the stamp is composable. -/
lemma composable_of_sent {stamp : Stamp} {tf : TfBuffer F} {msg : PoseWithCovarianceStamped F}
    (hmsg : msg.stamp = stamp)
    (hsame : ∀ c, .mapToOdom c ∈ (s.publishPoseTransform lib cfg stamp msg tf).1.sent →
      c.SameStamp) : Composable cfg tf stamp := by
  rintro henabled rfl latest hlatest
  have hlookup : tf.lookupTransform cfg.odomFrameId cfg.baseFrameId ⟨0, 0⟩ =
      some ⟨latest.1, cfg.odomFrameId, cfg.baseFrameId, latest.2⟩ := by
    simp only [TfBuffer.lookupTransform, if_true, Option.mem_def.mp hlatest, Option.map_some]
  obtain ⟨c, hc, hpose, hodom⟩ := exists_mapToOdom_sent s msg henabled hlookup
  have := hsame c hc
  rw [MapToOdom.SameStamp, hpose, hodom, hmsg] at this
  exact this.symm

omit [CppFloat F] in
/-- `publishCurrentPose` sends the pose, then what `publishPoseTransform` sends. -/
lemma sent_publishCurrentPose {msg : PoseWithCovarianceStamped F}
    (hmsg : s.correntPoseWithCovStamped = some msg) (stamp : Stamp) (tf : TfBuffer F) :
    (∃ outs, (s.publishCurrentPose lib cfg stamp tf).sent = s.sent ++ .pose msg :: outs) ∧
    ∀ o ∈ ((s.send (.pose msg)).publishPoseTransform lib cfg stamp msg tf).1.sent,
      o ∈ (s.publishCurrentPose lib cfg stamp tf).sent := by
  obtain ⟨outs, hsent, -⟩ :=
    (frame_publishPoseTransform (s.send (.pose msg)) stamp msg tf : Frame _ _
      ((s.send (.pose msg)).publishPoseTransform lib cfg stamp msg tf).1).sent
  have hpose : ((s.send (.pose msg)).publishPoseTransform lib cfg stamp msg tf).1.sent =
      s.sent ++ .pose msg :: outs := by
    rw [hsent]
    simp [send]
  simp only [publishCurrentPose, hmsg]
  split_ifs
  · exact ⟨⟨outs, hpose⟩, fun o ho => ho⟩
  · exact ⟨⟨_, (congrArg (· ++ [_]) hpose).trans (List.append_assoc _ _ _)⟩,
      fun o ho => List.mem_append_left _ ho⟩

end Node
/-! ### The property -/

/-- `t` has the pose, the correction and the prediction state of `s`, and neither a pose nor a
transform from the map to the odometry frame is sent in between. -/
structure Inert (s t : Node F M) : Prop where
  current : t.correntPoseWithCovStamped = s.correntPoseWithCovStamped
  correction : t.mapToOdomCorrection = s.mapToOdomCorrection
  prediction : t.prediction = s.prediction
  sent : ∃ outs, t.sent = s.sent ++ outs ∧
    ∀ o ∈ outs, (∀ msg, o ≠ .pose msg) ∧ ∀ c, o ≠ .mapToOdom c

namespace World

variable {w s t : World F M} {es : List (Event F M)} {e : Event F M}

/-- The event ends with an accepted registration whose pose is not filtered. -/
def Holds (lib : Lib F M) (cfg : Config F) (w : World F M) : Event F M → Prop
  | .aligned alignment _ => ∃ scan pose, w.scan = some scan ∧
      w.node.initialPoseGeneration = scan.seedGeneration ∧
      alignment.acceptedPose cfg = some pose ∧
      (w.node.filterAcceptedMapPoseWithAbsoluteOdom lib cfg pose (stampToSec scan.stamp)).2 = none
  | .map _ | .odom _ _ | .initialPose _ _ _ | .cloud _ _ _ _ _ | .timer _ _ => False

/-- Registrations that are held back change nothing, and each transform from the map to the odometry
frame that was sent is composed of one stamp. -/
structure Synchronized (lib : Lib F M) (cfg : Config F) (es : List (Event F M)) (w : World F M) :
    Prop where
  inert : Always (step lib cfg) (init lib)
    (fun s e => ∀ t, step lib cfg s e = some t → Holds lib cfg s e → Inert s.node t.node) es
  sameStamp : ∀ c, .mapToOdom c ∈ w.node.sent → c.SameStamp

/-- The registration can be used: its pose is finite, an odometry pose is cached for the stamp, and
the correction and the pose that they give are finite. -/
def Fusable (lib : Lib F M) (cfg : Config F) (s : Node F M) (pose : M) (stampSec : F) : Prop :=
  ∃ odomToBase, s.Measures lib cfg pose stampSec odomToBase ∧
    lib.allFinite (s.filtered lib cfg pose odomToBase) = true

/-- The registration measures no correction, or the one that is held. -/
def Steady (lib : Lib F M) (cfg : Config F) (s : Node F M) (pose : M) (stampSec : F) : Prop :=
  ∀ odomToBase, s.Measures lib cfg pose stampSec odomToBase →
    s.mapToOdomCorrection = some (s.corrected lib cfg pose odomToBase)

/-- An accepted registration can be used, or poses are published by the timer and it leaves the
correction alone; and what is composed is composed at a stamp that can be looked up. -/
def Fuses (lib : Lib F M) (cfg : Config F) (w : World F M) : Event F M → Prop
  | .aligned alignment tf => ∀ scan pose, w.scan = some scan →
      w.node.initialPoseGeneration = scan.seedGeneration →
      alignment.acceptedPose cfg = some pose →
      Fusable lib cfg w.node pose (stampToSec scan.stamp) ∧
          (cfg.enableTimerPublishing = true ∨ Composable cfg tf scan.stamp) ∨
        cfg.enableTimerPublishing = true ∧ Steady lib cfg w.node pose (stampToSec scan.stamp)
  | .initialPose msg tf tfLater => decideInitialPoseAdmission lib cfg.globalFrameId msg = true →
      Composable cfg tfLater (normalized cfg msg tf).stamp
  | .map _ | .odom _ _ | .cloud _ _ _ _ _ | .timer _ _ => True

/-! ### The end of an accepted registration -/

variable {alignment : Alignment F M} {scan : Scan} {tf : TfBuffer F} {pose : M}

lemma filter_eq_none_iff (s : Node F M) (pose : M) (stampSec : F) :
    (s.filterAcceptedMapPoseWithAbsoluteOdom lib cfg pose stampSec).2 = none ↔
      ¬Fusable lib cfg s pose stampSec := by
  by_cases h : ∃ odomToBase, s.Measures lib cfg pose stampSec odomToBase
  · obtain ⟨odomToBase, h⟩ := h
    rw [Node.filterAcceptedMapPoseWithAbsoluteOdom_of_measures h]
    -- the odometry pose is the one that is looked up
    have hiff : Fusable lib cfg s pose stampSec ↔
        lib.allFinite (s.filtered lib cfg pose odomToBase) = true := by
      constructor
      · rintro ⟨odomToBase', h', hfinite⟩
        obtain rfl : odomToBase' = odomToBase := Option.some.inj (h'.2.1.symm.trans h.2.1)
        exact hfinite
      · exact fun hfinite => ⟨odomToBase, h, hfinite⟩
    rw [hiff, Node.filtered]
    split_ifs with hfinite <;> simp [hfinite]
  · rw [Node.filterAcceptedMapPoseWithAbsoluteOdom_of_not_measures (not_exists.mp h)]
    refine iff_of_true rfl ?_
    rintro ⟨odomToBase, hmeasures, -⟩
    exact h ⟨odomToBase, hmeasures⟩

lemma not_finite_of_not_fusable {s : Node F M} {stampSec : F} {odomToBase : M}
    (hheld : ¬Fusable lib cfg s pose stampSec) (h : s.Measures lib cfg pose stampSec odomToBase) :
    lib.allFinite (s.filtered lib cfg pose odomToBase) = false := by
  by_contra hfinite
  exact hheld ⟨odomToBase, h, by simpa using hfinite⟩

/-- A pose that can be used gets the stamp of the scan. -/
lemma stamp_applied_of_fusable {s : Node F M} {msg : PoseWithCovarianceStamped F}
    (hfusable : Fusable lib cfg s pose (stampToSec scan.stamp))
    (hmsg : (s.applied lib cfg scan alignment pose).correntPoseWithCovStamped = some msg) :
    msg.stamp = scan.stamp := by
  obtain ⟨odomToBase, hmeasures, hfinite⟩ := hfusable
  rw [Node.applied_of_finite hmeasures hfinite] at hmsg
  obtain ⟨_, -, rfl⟩ := Option.map_eq_some_iff.mp hmsg
  rfl

/-- A registration that is held back with a correction that stays leaves the node inert. -/
lemma inert_applied {s : Node F M}
    (hheld : ¬Fusable lib cfg s pose (stampToSec scan.stamp))
    (hsteady : Steady lib cfg s pose (stampToSec scan.stamp)) :
    Inert s (s.applied lib cfg scan alignment pose) := by
  have hretry := Node.frame_retryFromLastPose cfg s alignment.retry
  obtain ⟨outs, hsent, houts⟩ := hretry.sent
  have hquiet : ∀ o ∈ outs, (∀ msg, o ≠ .pose msg) ∧ ∀ c, o ≠ .mapToOdom c := by
    intro o ho
    rw [houts o ho]
    exact ⟨nofun, nofun⟩
  by_cases h : ∃ odomToBase, s.Measures lib cfg pose (stampToSec scan.stamp) odomToBase
  · obtain ⟨odomToBase, h⟩ := h
    rw [Node.applied_of_not_finite h (not_finite_of_not_fusable hheld h)]
    exact ⟨hretry.current, (hsteady odomToBase h).symm, hretry.prediction, outs, hsent, hquiet⟩
  · rw [Node.applied_of_not_measures (not_exists.mp h)]
    exact ⟨hretry.current, hretry.correction, hretry.prediction, outs, hsent, hquiet⟩

/-- Otherwise the correction moves. -/
lemma steady_of_inert_applied {s : Node F M}
    (hheld : ¬Fusable lib cfg s pose (stampToSec scan.stamp))
    (hinert : (s.applied lib cfg scan alignment pose).mapToOdomCorrection =
      s.mapToOdomCorrection) : Steady lib cfg s pose (stampToSec scan.stamp) := by
  intro odomToBase h
  rw [Node.applied_of_not_finite h (not_finite_of_not_fusable hheld h)] at hinert
  exact hinert.symm

/-! ### Steps -/

/-- A step only adds to what was sent. -/
lemma mem_sent_of_step {o : Output F M} (h : Sound lib es w) (ho : o ∈ w.node.sent)
    (he : step lib cfg w e = some t) : o ∈ t.node.sent := by
  cases effect_of_step he with
  | quiet _ hframe => exact hframe.mem_sent ho
  | anchored _ hframe =>
    rw [Node.anchor_eq] at hframe
    exact hframe.mem_sent ho
  | odom =>
    rw [(Node.sent_odomReceived _ _ _).1]
    exact ho
  | passed _ hpredicts =>
    obtain ⟨prediction, -, hmoved⟩ := hpredicts
    exact hmoved.mem_sent ho
  | seeded _ _ hframe => exact hframe.mem_sent ho
  | discarded _ _ hframe => exact hframe.mem_sent ho
  | refused _ _ _ hframe hpredicts =>
    obtain ⟨prediction, -, hmoved⟩ := hpredicts
    have hretry := hframe.mem_sent ho
    exact hmoved.mem_sent hretry
  | @accepted alignment tf scan pose hscan hfresh haccepted =>
    obtain ⟨msg, hmsg⟩ := h.exists_current_applied cfg hscan alignment pose
    have happlied : o ∈ (w.node.applied lib cfg scan alignment pose).sent := by
      rw [Node.sent_applied]
      exact (Node.frame_retryFromLastPose cfg w.node alignment.retry).mem_sent ho
    rw [Node.cloudAligned_of_accepted hfresh haccepted]
    split_ifs
    · exact happlied
    · exact (Node.frame_publishCurrentPose hmsg _ _).mem_sent happlied

/-- A step that meets the condition keeps the stamps together. -/
lemma sameStamps_of_step (h : Sound lib es w) (hsame : w.node.SameStamps)
    (hfuses : Fuses lib cfg w e) (he : step lib cfg w e = some t) : t.node.SameStamps := by
  cases effect_of_step he with
  | quiet _ hframe =>
    refine Node.sameStamps_of_frame hframe hsame fun c hc => ?_
    obtain ⟨held, hheld, hpose, hodom⟩ := hc.2 c rfl
    rw [MapToOdom.SameStamp, hpose, hodom]
    exact hsame held (Or.inl hheld)
  | anchored haccepted hframe =>
    rw [Node.anchor_eq] at hframe
    exact Node.sameStamps_of_frame hframe hsame fun c hc => (hfuses haccepted).sameStamp hc
  | odom =>
    intro c hc
    rw [(Node.sent_odomReceived _ _ _).1, (Node.sent_odomReceived _ _ _).2] at hc
    exact hsame c hc
  | passed _ hpredicts =>
    obtain ⟨prediction, -, hmoved⟩ := hpredicts
    exact Node.sameStamps_of_frame hmoved hsame nofun
  | seeded _ _ hframe => exact Node.sameStamps_of_frame hframe hsame nofun
  | discarded _ _ hframe => exact Node.sameStamps_of_frame hframe hsame nofun
  | refused _ _ _ hframe hpredicts =>
    obtain ⟨prediction, -, hmoved⟩ := hpredicts
    have hretry := Node.sameStamps_of_frame hframe hsame nofun
    exact Node.sameStamps_of_frame hmoved hretry nofun
  | @accepted alignment tf scan pose hscan hfresh haccepted =>
    have hretry := Node.sameStamps_of_frame
      (Node.frame_retryFromLastPose cfg w.node alignment.retry) hsame nofun
    obtain ⟨current, correction, prediction, heq, -⟩ :=
      w.node.applied_eq lib cfg scan alignment pose
    have happlied : (w.node.applied lib cfg scan alignment pose).SameStamps := by
      rw [heq]
      exact hretry
    rw [Node.cloudAligned_of_accepted hfresh haccepted]
    split_ifs with htimer
    · exact happlied
    · rcases hfuses scan pose hscan hfresh haccepted with ⟨hfusable, hcomposable⟩ | ⟨htimer', -⟩
      · -- the pose that is published has the stamp of the scan
        obtain ⟨msg, hmsg⟩ := h.exists_current_applied cfg hscan alignment pose
        have hstamp := stamp_applied_of_fusable hfusable hmsg
        refine Node.sameStamps_of_frame (Node.frame_publishCurrentPose hmsg _ _) happlied
          fun c hc => ?_
        rw [hstamp] at hc
        exact (hcomposable.resolve_left htimer).sameStamp hc
      · exact absurd htimer' htimer

lemma eq_of_step_aligned (hscan : w.scan = some scan)
    (he : step lib cfg w (.aligned alignment tf) = some t) :
    t = ⟨w.node.cloudAligned lib cfg scan alignment tf, none⟩ := by
  simp only [step, hscan, Option.some.injEq] at he
  exact he.symm

/-- A step that meets the condition is inert when it holds a registration back. -/
lemma inert_of_step (hfuses : Fuses lib cfg w e) (hholds : Holds lib cfg w e)
    (he : step lib cfg w e = some t) : Inert w.node t.node := by
  cases e with
  | map _ | odom _ _ | initialPose _ _ _ | cloud _ _ _ _ _ | timer _ _ => cases hholds
  | aligned alignment tf =>
    obtain ⟨scan, pose, hscan, hfresh, haccepted, hnone⟩ := hholds
    have hheld := (filter_eq_none_iff _ _ _).mp hnone
    rcases hfuses scan pose hscan hfresh haccepted with ⟨hfusable, -⟩ | ⟨htimer, hsteady⟩
    · exact absurd hfusable hheld
    · rw [eq_of_step_aligned hscan he, Node.cloudAligned_of_accepted hfresh haccepted,
        if_pos htimer]
      exact inert_applied hheld hsteady

/-- What a step shows is enough to see that it meets the condition. -/
lemma fuses_of_step (h : Sound lib es w) (he : step lib cfg w e = some t)
    (hinert : Holds lib cfg w e → Inert w.node t.node)
    (hsame : ∀ c, .mapToOdom c ∈ t.node.sent → c.SameStamp) : Fuses lib cfg w e := by
  cases e with
  | map _ | odom _ _ | cloud _ _ _ _ _ | timer _ _ => trivial
  | initialPose msg tf tfLater =>
    intro haccepted
    obtain rfl := Option.some.inj he
    simp only [Node.initialPoseReceived, haccepted, Bool.not_true, Bool.false_eq_true, if_false]
      at hsame
    exact Node.composable_of_sent rfl hsame
  | aligned alignment tf =>
    intro scan pose hscan hfresh haccepted
    have ht := eq_of_step_aligned hscan he
    rw [Node.cloudAligned_of_accepted hfresh haccepted] at ht
    obtain ⟨msg, hmsg⟩ := h.exists_current_applied cfg hscan alignment pose
    by_cases hfusable : Fusable lib cfg w.node pose (stampToSec scan.stamp)
    · refine Or.inl ⟨hfusable, ?_⟩
      by_cases htimer : cfg.enableTimerPublishing = true
      · exact Or.inl htimer
      · right
        rw [if_neg htimer] at ht
        have hsent : ∀ o ∈ (((w.node.applied lib cfg scan alignment pose).send
            (.pose msg)).publishPoseTransform lib cfg scan.stamp msg tf).1.sent,
            o ∈ t.node.sent := by
          rw [ht]
          exact (Node.sent_publishCurrentPose hmsg scan.stamp tf).2
        exact Node.composable_of_sent (stamp_applied_of_fusable hfusable hmsg)
          fun c hc => hsame c (hsent _ hc)
    · have hkept := hinert
        ⟨scan, pose, hscan, hfresh, haccepted, (filter_eq_none_iff _ _ _).mpr hfusable⟩
      by_cases htimer : cfg.enableTimerPublishing = true
      · rw [if_pos htimer] at ht
        rw [ht] at hkept
        exact Or.inr ⟨htimer, steady_of_inert_applied hfusable hkept.correction⟩
      · -- the pose is published, which an inert step does not do
        rw [if_neg htimer] at ht
        obtain ⟨retried, hretried, -⟩ :=
          (Node.frame_retryFromLastPose cfg w.node alignment.retry).sent
        obtain ⟨outs, houts⟩ := (Node.sent_publishCurrentPose hmsg scan.stamp tf).1
        obtain ⟨quiet, hquiet, hnone⟩ := hkept.sent
        rw [ht] at hquiet
        have hsplit : w.node.sent ++ quiet = w.node.sent ++ (retried ++ .pose msg :: outs) := by
          rw [← hquiet, houts, Node.sent_applied, hretried, List.append_assoc]
        exact absurd rfl ((hnone (.pose msg) (by simp [List.append_cancel_left hsplit])).1 msg)

/-! ### Whole runs -/

lemma mem_sent_of_run {post : List (Event F M)} {o : Output F M}
    (hs : Run (step lib cfg) (init lib) es s) (ho : o ∈ s.node.sent)
    (hrun : Run (step lib cfg) s post t) : o ∈ t.node.sent := by
  induction hrun with
  | nil => exact ho
  | snoc hpost he ih =>
    exact mem_sent_of_step (sound_of_run (run_append_iff.mpr ⟨_, hs, hpost⟩)) ih he

lemma sameStamps_init : (init lib : World F M).node.SameStamps := by
  rintro c (hheld | hsent)
  · cases hheld
  · cases hsent

/-- In a run, registrations that are held back change nothing and every transform from the map to
the odometry frame is of one stamp if and only if every accepted registration fuses. -/
theorem synchronized_iff_always_fuses (hrun : Run (step lib cfg) (init lib) es w) :
    Synchronized lib cfg es w ↔ Always (step lib cfg) (init lib) (Fuses lib cfg) es := by
  constructor
  · rintro ⟨hinert, hsame⟩ pre e post s hes hs
    obtain ⟨u, hu, hpost⟩ := run_append_iff.mp (hes ▸ hrun)
    obtain rfl := hu.unique hs
    obtain ⟨t, he, hpost⟩ := run_cons_iff.mp hpost
    refine fuses_of_step (sound_of_run hs) he (hinert hes hs t he) fun c hc => hsame c ?_
    exact mem_sent_of_run (hs.snoc he) hc hpost
  · intro hfuses
    constructor
    · intro pre e post s hes hs t he hholds
      exact inert_of_step (hfuses hes hs) hholds he
    · have hstamps : w.node.SameStamps := hrun.invariant (I := fun _ v => v.node.SameStamps)
        sameStamps_init
        (fun _ _ _ _ hs hf hsame he => sameStamps_of_step (sound_of_run hs) hsame hf he) hfuses
      exact fun c hc => hstamps c (Or.inr hc)

section

attribute [local instance] CppFloat.exact

/-- A buffer with the transform of one stamp. -/
def bufferAt (sec : ℤ) (x : ℚ) : TfBuffer ℚ where
  latest := some (⟨sec, 0⟩, Transform.alongAxis x)
  transformAt stamp := if stamp = ⟨sec, 0⟩ then some (Transform.alongAxis x) else none

/-- A registration that the gate accepts. -/
def acceptedAt (x : ℚ) : Alignment ℚ ℚ where
  retry := none
  shouldContinue := true
  shouldAdvancePredictionWithoutMeasurement := false
  gateResult := ⟨false, false⟩
  finalTransformation := x
  hasImuStamp := false
  smootherPose := x
  twistPredictedPoseMatrix := none
  covariance := []

/-- The robot starts at `1` with its odometry at `0`. -/
def started : List (Event ℚ ℚ) :=
  [.map "map", .odom ⟨1, 0⟩ (Pose.alongAxis 0),
    .initialPose (.alongAxis 1 1) (bufferAt 1 0) (bufferAt 1 0)]

/-- The odometry pose of the scan arrives before the scan. -/
def fused : List (Event ℚ ℚ) :=
  started ++ [.odom ⟨2, 0⟩ (Pose.alongAxis 1), .cloud ⟨2, 0⟩ 1 .ready true none,
    .aligned (acceptedAt 2) (bufferAt 2 1)]

theorem synchronized_iff_always_fuses_fused :
    ∃ w, Run (step Lib.alongAxis (Config.default true)) (init Lib.alongAxis) fused w ∧
      (Synchronized Lib.alongAxis (Config.default true) fused w ↔
        Always (step Lib.alongAxis (Config.default true)) (init Lib.alongAxis)
          (Fuses Lib.alongAxis (Config.default true)) fused) := by
  obtain ⟨w, hw, -⟩ := exists_run (step Lib.alongAxis (Config.default true))
    (init Lib.alongAxis) fused (fun w => w.node.currentPoseMatrix Lib.alongAxis = 2)
    (by decide +kernel)
  exact ⟨w, hw, synchronized_iff_always_fuses hw⟩

/-- The odometry pose of the scan has not arrived. -/
def unfused : List (Event ℚ ℚ) :=
  started ++ [.cloud ⟨2, 0⟩ 1 .ready true none, .aligned (acceptedAt 2) (bufferAt 2 1)]

/-- The registration is held back, but the pose of the second before is published once more, and
composed with the transform of the stamp of the scan. -/
theorem held_registration_publishes :
    ∃ w, Run (step Lib.alongAxis (Config.default true)) (init Lib.alongAxis) unfused w ∧
      ¬Synchronized Lib.alongAxis (Config.default true) unfused w := by
  obtain ⟨w, hw, hsent⟩ := exists_run (step Lib.alongAxis (Config.default true))
    (init Lib.alongAxis) unfused
    (fun w => .mapToOdom ⟨⟨⟨2, 0⟩, "map", "odom", Transform.alongAxis 0⟩, ⟨1, 0⟩, ⟨2, 0⟩⟩ ∈
      w.node.sent) (by decide +kernel)
  have hstamps : (⟨1, 0⟩ : Stamp) ≠ ⟨2, 0⟩ := by decide
  exact ⟨w, hw, fun h => hstamps (h.sameStamp _ hsent)⟩

end

end World
end PclLocalization
