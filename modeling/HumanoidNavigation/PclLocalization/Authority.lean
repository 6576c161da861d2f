import HumanoidNavigation.PclLocalization.System

/-!
# The authority of an initial pose

An initial pose that is accepted should be authoritative: until the next registration is accepted
every pose and every registration seed derives from it and from the odometry, the correction from
before is forgotten, and so is the result of the scan that is being aligned.

`Derived` names the odometry poses: a pose with a stamp is the initial pose, moved as the odometry
moved between the pose cached for the stamp of the initial pose and the one cached for its own.

The correction is kept apart from the pose. `initialPoseReceived` forms it anew, which takes a
cached odometry pose close enough to the stamp of the initial pose, and without one the old
correction stays. `authoritative_of_always_resets` says that nothing else goes wrong.
-/

namespace PclLocalization

open CppFloat Ros Transition

variable {F M : Type} [CppFloat F] {lib : Lib F M} {cfg : Config F}

/-! ### Where a pose comes from -/

/-- An initial pose that was accepted: the pose with the stamp that the node gives it, the node when
it comes, and the world afterwards. -/
structure Reset (F M : Type) where
  pose : M
  stamp : Stamp
  before : Node F M
  after : World F M

section

variable (lib : Lib F M) (cfg : Config F) (r : Reset F M) (es : List (Event F M))

/-- `odomToBase` is the odometry pose that is cached for the stamp of an odometry message or of a
scan, when that message comes in the course of the events `es` after the reset. -/
inductive Looked : Stamp → M → Prop where
  | odom {pre post : List (Event F M)} {stamp : Stamp} {pose : Pose F} {w : World F M}
      {new odomToBase : M} (hes : es = pre ++ .odom stamp pose :: post)
      (hrun : Run (World.step lib cfg) r.after pre w)
      (hpose : poseMatrixFromPose lib pose = some new)
      (hlookup : (w.node.cacheAbsoluteOdomPose lib cfg (stampToSec stamp)
        new).lookupAbsoluteOdomPose lib cfg (stampToSec stamp) = some odomToBase) :
      Looked stamp odomToBase
  | cloud {pre post : List (Event F M)} {stamp : Stamp} {elapsed : F}
      {status : ScanPreparationStatus} {ready : Bool} {twist : Option M} {w : World F M}
      {odomToBase : M} (hes : es = pre ++ .cloud stamp elapsed status ready twist :: post)
      (hrun : Run (World.step lib cfg) r.after pre w)
      (hlookup : w.node.lookupAbsoluteOdomPose lib cfg (stampToSec stamp) = some odomToBase) :
      Looked stamp odomToBase

/-- An odometry message that finds no prediction takes the current pose `x` for that of its own
stamp, for which `odomToBase` is cached. -/
structure Holds (x : M) (stamp : Stamp) (odomToBase : M) : Prop where
  message : ∃ pre post pose new w, es = pre ++ .odom stamp pose :: post ∧
    Run (World.step lib cfg) r.after pre w ∧ poseMatrixFromPose lib pose = some new ∧
    w.node.currentPoseMatrix lib = x ∧
    (w.node.cacheAbsoluteOdomPose lib cfg (stampToSec stamp) new).predictMapPoseFromAbsoluteOdom
      lib cfg (stampToSec stamp) = none ∧
    (w.node.cacheAbsoluteOdomPose lib cfg (stampToSec stamp) new).lookupAbsoluteOdomPose
      lib cfg (stampToSec stamp) = some odomToBase

/-- The poses, with their stamps, that come from the initial pose and the motion of the odometry:
the initial pose at its own stamp, and what the motion makes of it between the odometry pose that
is cached for that stamp and the one that is cached for a later one. A pose that is held goes on
from the stamp of the message that found no prediction. A pose may be stored in a message and read
again. -/
inductive Derived : Stamp → M → Prop where
  | initial : Derived r.stamp r.pose
  | moved {a b : M} {stamp : Stamp}
      (ha : r.before.lookupAbsoluteOdomPose lib cfg (stampToSec r.stamp) = some a)
      (hb : Looked lib cfg r es stamp b) :
      Derived stamp (predictMapPose lib (mapToOdomFromPoses lib r.pose a) b)
  | held {x a : M} {stamp stamp' : Stamp} (h : Derived stamp x)
      (ha : Holds lib cfg r es x stamp' a) : Derived stamp' x
  | heldMoved {x a b : M} {stamp stamp' stamp'' : Stamp} (h : Derived stamp x)
      (ha : Holds lib cfg r es x stamp' a) (hb : Looked lib cfg r es stamp'' b) :
      Derived stamp'' (predictMapPose lib (mapToOdomFromPoses lib x a) b)
  | stored {x : M} {stamp : Stamp} (h : Derived stamp x) :
      Derived stamp (lib.fromMsg (poseFromMatrix lib x))

/-- The correction between a pose that derives and the odometry pose that is cached for its
stamp. -/
def Forms (mapToOdom : M) : Prop :=
  (∃ a, r.before.lookupAbsoluteOdomPose lib cfg (stampToSec r.stamp) = some a ∧
    mapToOdom = mapToOdomFromPoses lib r.pose a) ∨
  ∃ x a stamp stamp', Derived lib cfg r es stamp x ∧ Holds lib cfg r es x stamp' a ∧
    mapToOdom = mapToOdomFromPoses lib x a

/-- The current pose with its stamp, the correction, the pose to retry from and the seeds that are
used after the reset all derive from the initial pose. -/
structure Anchored (s : Node F M) : Prop where
  current : ∃ msg, s.correntPoseWithCovStamped = some msg ∧
    Derived lib cfg r es msg.stamp (lib.fromMsg msg.pose)
  correction : ∀ mapToOdom, s.mapToOdomCorrection = some mapToOdom → Forms lib cfg r es mapToOdom
  lastAccepted : s.prediction.lastAcceptedPoseMatrix = r.pose
  seeds : ∃ outs, s.sent = r.before.sent ++ outs ∧
    ∀ initGuess, .align initGuess ∈ outs → ∃ stamp, Derived lib cfg r es stamp initGuess

end

variable {r : Reset F M} {es fs : List (Event F M)} {stamp : Stamp} {x a mapToOdom : M}

lemma Looked.append (h : Looked lib cfg r es stamp a) (fs : List (Event F M)) :
    Looked lib cfg r (es ++ fs) stamp a := by
  cases h with
  | odom hes hrun hpose hlookup =>
    exact .odom (by rw [hes, List.append_assoc, List.cons_append]) hrun hpose hlookup
  | cloud hes hrun hlookup =>
    exact .cloud (by rw [hes, List.append_assoc, List.cons_append]) hrun hlookup

lemma Holds.looked (h : Holds lib cfg r es x stamp a) : Looked lib cfg r es stamp a := by
  obtain ⟨pre, post, pose, new, w, hes, hrun, hpose, -, -, hlookup⟩ := h.message
  exact .odom hes hrun hpose hlookup

lemma Holds.append (h : Holds lib cfg r es x stamp a) (fs : List (Event F M)) :
    Holds lib cfg r (es ++ fs) x stamp a := by
  obtain ⟨pre, post, pose, new, w, hes, hheld⟩ := h.message
  exact ⟨pre, post ++ fs, pose, new, w, by rw [hes, List.append_assoc, List.cons_append], hheld⟩

lemma Derived.append (h : Derived lib cfg r es stamp x) (fs : List (Event F M)) :
    Derived lib cfg r (es ++ fs) stamp x := by
  induction h with
  | initial => exact .initial
  | moved ha hb => exact .moved ha (hb.append fs)
  | held _ ha ih => exact .held ih (ha.append fs)
  | heldMoved _ ha hb ih => exact .heldMoved ih (ha.append fs) (hb.append fs)
  | stored _ ih => exact .stored ih

lemma Forms.append (h : Forms lib cfg r es mapToOdom) (fs : List (Event F M)) :
    Forms lib cfg r (es ++ fs) mapToOdom := by
  refine h.imp_right ?_
  rintro ⟨x, a, stamp, stamp', hx, ha, heq⟩
  exact ⟨x, a, stamp, stamp', hx.append fs, ha.append fs, heq⟩

/-- What the correction makes of an odometry pose that is cached for a stamp. -/
lemma Forms.derived (h : Forms lib cfg r es mapToOdom) (hb : Looked lib cfg r es stamp a) :
    Derived lib cfg r es stamp (predictMapPose lib mapToOdom a) := by
  rcases h with ⟨b, hb', rfl⟩ | ⟨x, b, at', at'', hx, hheld, rfl⟩
  · exact .moved hb' hb
  · exact .heldMoved hx hheld hb

namespace Anchored

variable {s t : Node F M} {P : Output F M → Prop}

lemma append (h : Anchored lib cfg r es s) (fs : List (Event F M)) :
    Anchored lib cfg r (es ++ fs) s where
  current := by
    obtain ⟨msg, hmsg, hderived⟩ := h.current
    exact ⟨msg, hmsg, hderived.append fs⟩
  correction mapToOdom hsome := (h.correction mapToOdom hsome).append fs
  lastAccepted := h.lastAccepted
  seeds := by
    obtain ⟨outs, hsent, houts⟩ := h.seeds
    refine ⟨outs, hsent, fun g hg => ?_⟩
    obtain ⟨stamp, hderived⟩ := houts g hg
    exact ⟨stamp, hderived.append fs⟩

/-- What counts and sends keeps the derivation, as long as it aligns at seeds that derive. -/
lemma of_frame (h : Anchored lib cfg r es s) (hframe : Frame P s t)
    (hP : ∀ g, P (.align g) → ∃ stamp, Derived lib cfg r es stamp g) :
    Anchored lib cfg r es t where
  current := hframe.current ▸ h.current
  correction := hframe.correction ▸ h.correction
  lastAccepted := hframe.prediction ▸ h.lastAccepted
  seeds := by
    obtain ⟨outs, hsent, houts⟩ := h.seeds
    obtain ⟨outs', hsent', houts'⟩ := hframe.sent
    refine ⟨outs ++ outs', by rw [hsent', hsent, List.append_assoc], fun g hg => ?_⟩
    rcases List.mem_append.mp hg with hg | hg
    · exact houts g hg
    · exact hP g (houts' _ hg)

lemma of_predicts (h : Anchored lib cfg r es s) (hpredicts : s.Predicts t) :
    Anchored lib cfg r es t := by
  obtain ⟨prediction, hlast, hframe⟩ := hpredicts
  have hmoved : Anchored lib cfg r es { s with prediction := prediction } :=
    ⟨h.current, h.correction, hlast.trans h.lastAccepted, h.seeds⟩
  exact hmoved.of_frame hframe (fun _ => False.elim)

/-- The pose that the correction predicts for a stamp derives from the initial pose. -/
lemma derived_of_predict (h : Anchored lib cfg r es s)
    (hlooked : ∀ a, s.lookupAbsoluteOdomPose lib cfg (stampToSec stamp) = some a →
      Looked lib cfg r es stamp a)
    (hpredict : s.predictMapPoseFromAbsoluteOdom lib cfg (stampToSec stamp) = some x) :
    Derived lib cfg r es stamp x := by
  obtain ⟨mapToOdom, a, hcorrection, hlookup, rfl⟩ :=
    Node.exists_lookup_of_predictMapPoseFromAbsoluteOdom hpredict
  exact (h.correction mapToOdom hcorrection).derived (hlooked a hlookup)

lemma derived_currentPoseMatrix (h : Anchored lib cfg r es s) :
    ∃ stamp, Derived lib cfg r es stamp (s.currentPoseMatrix lib) := by
  obtain ⟨msg, hmsg, hderived⟩ := h.current
  rw [Node.currentPoseMatrix_of_some hmsg]
  exact ⟨msg.stamp, hderived⟩

/-- So does the seed of a scan. -/
lemma derived_selectRegistrationSeed (h : Anchored lib cfg r es s)
    (hlooked : ∀ a, s.lookupAbsoluteOdomPose lib cfg (stampToSec stamp) = some a →
      Looked lib cfg r es stamp a) :
    ∃ at', Derived lib cfg r es at' (s.selectRegistrationSeed lib cfg (stampToSec stamp)) := by
  simp only [Node.selectRegistrationSeed]
  cases hpredict : s.predictMapPoseFromAbsoluteOdom lib cfg (stampToSec stamp) with
  | none => exact h.derived_currentPoseMatrix
  | some mapToBase => exact ⟨stamp, h.derived_of_predict hlooked hpredict⟩

lemma setCurrentPoseFromMatrix (h : Anchored lib cfg r es s)
    (hx : Derived lib cfg r es stamp x) :
    Anchored lib cfg r es (s.setCurrentPoseFromMatrix lib cfg x stamp) where
  current := by
    obtain ⟨msg, hmsg, -⟩ := h.current
    exact ⟨{ msg with
      stamp := stamp
      frameId := cfg.globalFrameId
      pose := poseFromMatrix lib x }, by simp [Node.setCurrentPoseFromMatrix, hmsg], hx.stored⟩
  correction := h.correction
  lastAccepted := h.lastAccepted
  seeds := h.seeds

/-- An odometry message moves the pose along, or forms a correction from the current pose. -/
lemma odomReceived {w : World F M} {pose : Pose F}
    (h : Anchored lib cfg r (es ++ [.odom stamp pose]) w.node)
    (hrun : Run (World.step lib cfg) r.after es w) :
    Anchored lib cfg r (es ++ [.odom stamp pose]) (w.node.odomReceived lib cfg stamp pose) := by
  rcases w.node.odomReceived_cases stamp pose with
    heq | ⟨odomToBase, cached, hmatrix, hcached, hcases⟩
  · rw [heq]
    exact h
  · obtain ⟨history, hcache, -⟩ :=
      w.node.cacheAbsoluteOdomPose_eq lib cfg (stampToSec stamp) odomToBase
    have hanchored : Anchored lib cfg r (es ++ [.odom stamp pose]) cached := by
      rw [hcached, hcache]
      exact ⟨h.current, h.correction, h.lastAccepted, h.seeds⟩
    have hlooked : ∀ a, cached.lookupAbsoluteOdomPose lib cfg (stampToSec stamp) = some a →
        Looked lib cfg r (es ++ [.odom stamp pose]) stamp a :=
      fun a ha => .odom rfl hrun hmatrix (hcached ▸ ha)
    rcases hcases with heq | ⟨mapToBase, hpredict, heq⟩ | ⟨mapToOdom, hnone, hreset, heq⟩
    · rw [heq]
      exact hanchored
    · rw [heq]
      exact hanchored.setCurrentPoseFromMatrix (hanchored.derived_of_predict hlooked hpredict)
    · rw [heq]
      obtain ⟨a, hlookup, rfl⟩ := Node.exists_lookup_of_resetCorrection hreset
      obtain ⟨at', hcurrent⟩ := hanchored.derived_currentPoseMatrix
      have hholds : Holds lib cfg r (es ++ [.odom stamp pose])
          (cached.currentPoseMatrix lib) stamp a := by
        refine ⟨es, [], pose, odomToBase, w, rfl, hrun, hmatrix, ?_, hcached ▸ hnone,
          hcached ▸ hlookup⟩
        rw [hcached, hcache]
        rfl
      have hcorrected : Anchored lib cfg r (es ++ [.odom stamp pose]) { cached with
          mapToOdomCorrection := some
            (mapToOdomFromPoses lib (cached.currentPoseMatrix lib) a) } := by
        refine ⟨hanchored.current, ?_, hanchored.lastAccepted, hanchored.seeds⟩
        rintro _ ⟨⟩
        exact Or.inr ⟨_, _, _, _, hcurrent, hholds, rfl⟩
      exact hcorrected.setCurrentPoseFromMatrix (hcurrent.held hholds)

end Anchored

/-! ### The property -/

namespace World

variable {w s t u : World F M} {es : List (Event F M)} {e : Event F M}

/-- The world with another correction. -/
def withCorrection (w : World F M) (mapToOdom : M) : World F M :=
  { w with node := { w.node with mapToOdomCorrection := some mapToOdom } }

/-- Neither an initial pose nor a registration is accepted. -/
def Undisturbed (lib : Lib F M) (cfg : Config F) (w : World F M) (e : Event F M) : Prop :=
  ¬AcceptsPose lib cfg e ∧ ¬AcceptsRegistration cfg w e

/-- The end of an alignment. -/
def IsAligned : Event F M → Prop
  | .aligned _ _ => True
  | .map _ | .odom _ _ | .initialPose _ _ _ | .cloud _ _ _ _ _ | .timer _ _ => False

/-- Every initial pose that is accepted in the course of the events is authoritative. -/
structure Authoritative (lib : Lib F M) (cfg : Config F) (es : List (Event F M)) : Prop where
  /-- until a registration is accepted, poses and seeds derive from the initial pose -/
  derives : ∀ ⦃pre msg tf tfLater mid post s t u⦄,
    es = pre ++ .initialPose msg tf tfLater :: (mid ++ post) →
    Run (step lib cfg) (init lib) pre s → AcceptsPose lib cfg (.initialPose msg tf tfLater) →
    step lib cfg s (.initialPose msg tf tfLater) = some t → Run (step lib cfg) t mid u →
    Always (step lib cfg) t (Undisturbed lib cfg) mid →
    Anchored lib cfg ⟨lib.fromMsg msg.pose, (normalized cfg msg tf).stamp, s.node, t⟩ mid u.node
  /-- with any other correction in place of the one from before, the run goes on alike -/
  forgets : ∀ ⦃pre msg tf tfLater mid post s u⦄,
    es = pre ++ .initialPose msg tf tfLater :: (mid ++ post) →
    Run (step lib cfg) (init lib) pre s → AcceptsPose lib cfg (.initialPose msg tf tfLater) →
    Run (step lib cfg) s (.initialPose msg tf tfLater :: mid) u →
    ∀ old mapToOdom, s.node.mapToOdomCorrection = some old →
      Run (step lib cfg) (s.withCorrection mapToOdom) (.initialPose msg tf tfLater :: mid) u
  /-- the result of a scan that is being aligned changes nothing -/
  discards : ∀ ⦃pre msg tf tfLater mid alignment tf' post s u v⦄,
    es = pre ++ .initialPose msg tf tfLater :: (mid ++ .aligned alignment tf' :: post) →
    Run (step lib cfg) (init lib) pre s → AcceptsPose lib cfg (.initialPose msg tf tfLater) →
    s.scan.isSome = true → Run (step lib cfg) s (.initialPose msg tf tfLater :: mid) u →
    (∀ f ∈ mid, ¬IsAligned f) → step lib cfg u (.aligned alignment tf') = some v →
    Frame (fun o => ∃ initGuess, o = .align initGuess) u.node v.node

/-- When an initial pose is accepted, there is no correction yet, or an odometry pose is cached for
its stamp and the correction formed with it is finite. -/
def Resets (lib : Lib F M) (cfg : Config F) (w : World F M) : Event F M → Prop
  | .initialPose msg tf _ => decideInitialPoseAdmission lib cfg.globalFrameId msg = true →
      w.node.mapToOdomCorrection = none ∨
      ∃ odomToBase ∈
          w.node.lookupAbsoluteOdomPose lib cfg (stampToSec (normalized cfg msg tf).stamp),
        lib.allFinite (mapToOdomFromPoses lib (lib.fromMsg msg.pose) odomToBase) = true
  | .map _ | .odom _ _ | .cloud _ _ _ _ _ | .aligned _ _ | .timer _ _ => True

/-! ### The steps of an undisturbed run -/

variable {r : Reset F M}

/-- A step that neither takes an initial pose nor accepts a registration. -/
lemma anchored_step (h : Anchored lib cfg r es w.node)
    (hrun : Run (step lib cfg) r.after es w) (hundisturbed : Undisturbed lib cfg w e)
    (he : step lib cfg w e = some t) : Anchored lib cfg r (es ++ [e]) t.node := by
  have hanchored := h.append [e]
  have hretry : ∀ g, (Output.align g : Output F M) =
      .align w.node.prediction.lastAcceptedPoseMatrix →
      ∃ stamp, Derived lib cfg r (es ++ [e]) stamp g := by
    rintro g ⟨⟩
    rw [h.lastAccepted]
    exact ⟨_, Derived.initial⟩
  cases effect_of_step he with
  | quiet _ hframe => exact hanchored.of_frame hframe fun g hg => absurd rfl (hg.1 g)
  | anchored haccepted => exact absurd haccepted hundisturbed.1
  | odom => exact hanchored.odomReceived hrun
  | passed _ hpredicts => exact hanchored.of_predicts hpredicts
  | seeded _ _ hframe =>
    refine hanchored.of_frame hframe ?_
    rintro g ⟨⟩
    exact hanchored.derived_selectRegistrationSeed fun a ha => .cloud rfl hrun ha
  | discarded _ _ hframe => exact hanchored.of_frame hframe hretry
  | refused _ _ _ hframe hpredicts => exact (hanchored.of_frame hframe hretry).of_predicts hpredicts
  | accepted hscan hfresh haccepted =>
    exact absurd ⟨_, hscan, hfresh, by rw [haccepted]; rfl⟩ hundisturbed.2

/-! ### The step that accepts an initial pose -/

variable {msg : PoseWithCovarianceStamped F} {tf tfLater : TfBuffer F}

/-- When the step resets, the correction afterwards is the new one, or there is none. -/
lemma Resets.correction (h : Resets lib cfg w (.initialPose msg tf tfLater))
    (haccepted : AcceptsPose lib cfg (.initialPose msg tf tfLater)) :
    (w.node.mapToOdomCorrection = none ∨ (w.node.resetCorrection lib cfg (lib.fromMsg msg.pose)
      (stampToSec (normalized cfg msg tf).stamp)).isSome = true) := by
  refine (h haccepted).imp_right ?_
  rintro ⟨odomToBase, hlookup, hfinite⟩
  simp only [Node.resetCorrection, Option.mem_def.mp hlookup, Option.bind_some, hfinite, if_true,
    Option.isSome_some]

lemma anchored_of_accepts (hreset : Resets lib cfg w (.initialPose msg tf tfLater))
    (haccepted : AcceptsPose lib cfg (.initialPose msg tf tfLater))
    (he : step lib cfg w (.initialPose msg tf tfLater) = some t) :
    Anchored lib cfg ⟨lib.fromMsg msg.pose, (normalized cfg msg tf).stamp, w.node, t⟩ []
      t.node := by
  cases effect_of_step he with
  | quiet hpose => exact absurd haccepted hpose
  | anchored _ hframe =>
    refine Anchored.of_frame ?_ hframe fun g hg => absurd rfl (hg.1 g)
    rw [Node.anchor_eq]
    refine ⟨⟨_, rfl, Derived.initial⟩, fun mapToOdom hsome => ?_, rfl, [], by simp⟩
    rcases hreset.correction haccepted with hnone | hsuccess
    · -- there was no correction before, so this one is new
      rw [hnone, Option.or_none] at hsome
      exact Or.inl (Node.exists_lookup_of_resetCorrection hsome)
    · obtain ⟨new, hnew⟩ := Option.isSome_iff_exists.mp hsuccess
      change (w.node.resetCorrection lib cfg (lib.fromMsg msg.pose)
        (stampToSec (normalized cfg msg tf).stamp)).or w.node.mapToOdomCorrection = _ at hsome
      rw [hnew, Option.some_or] at hsome
      obtain rfl := Option.some.inj hsome
      exact Or.inl (Node.exists_lookup_of_resetCorrection hnew)

/-- When the correction is formed anew, the one from before is lost. -/
lemma step_withCorrection
    (hreset : (w.node.resetCorrection lib cfg (lib.fromMsg msg.pose)
      (stampToSec (normalized cfg msg tf).stamp)).isSome = true)
    (haccepted : AcceptsPose lib cfg (.initialPose msg tf tfLater)) (mapToOdom : M) :
    step lib cfg (w.withCorrection mapToOdom) (.initialPose msg tf tfLater) =
      step lib cfg w (.initialPose msg tf tfLater) := by
  obtain ⟨new, hnew⟩ := Option.isSome_iff_exists.mp hreset
  have hanchor : (w.withCorrection mapToOdom).node.anchor lib cfg (normalized cfg msg tf) =
      w.node.anchor lib cfg (normalized cfg msg tf) := by
    have hnew' : (w.withCorrection mapToOdom).node.resetCorrection lib cfg
        (lib.fromMsg (normalized cfg msg tf).pose) (stampToSec (normalized cfg msg tf).stamp) =
        some new := hnew
    rw [Node.anchor_eq, Node.anchor_eq, hnew', show w.node.resetCorrection lib cfg
      (lib.fromMsg (normalized cfg msg tf).pose) (stampToSec (normalized cfg msg tf).stamp) =
      some new from hnew]
    rfl
  simp only [normalized] at hanchor
  have haccepted' : decideInitialPoseAdmission lib cfg.globalFrameId msg = true := haccepted
  simp only [step, Node.initialPoseReceived, haccepted', Bool.not_true, Bool.false_eq_true,
    if_false, hanchor]
  rfl

/-! ### The odometry poses -/

lemma received_of_lookup {stampSec : F} {a : M} (h : Sound lib es w)
    (hlookup : w.node.lookupAbsoluteOdomPose lib cfg stampSec = some a) : Received lib es a := by
  obtain ⟨timed, hmem, rfl⟩ := exists_mem_of_nearestTimedPose hlookup
  exact h.history timed hmem

/-- The poses that are looked up were received. -/
lemma received_of_looked {pre : List (Event F M)} {stamp : Stamp} {a : M}
    (h : Looked lib cfg r es stamp a) (hpre : Run (step lib cfg) (init lib) pre r.after) :
    Received lib (pre ++ es) a := by
  cases h with
  | @odom mid post stamp pose w new _ hes hrun hpose hlookup =>
    have hsound := sound_of_run (run_append_iff.mpr ⟨_, hpre, hrun⟩)
    obtain ⟨history, hcache, hnew⟩ :=
      w.node.cacheAbsoluteOdomPose_eq lib cfg (stampToSec stamp) new
    obtain ⟨timed, hmem, rfl⟩ := exists_mem_of_nearestTimedPose hlookup
    rw [hcache] at hmem
    rw [hes, ← List.append_assoc]
    rcases hnew timed hmem with hold | rfl
    · exact (hsound.history timed hold).append _
    · exact ⟨stamp, pose, by simp, hpose⟩
  | cloud hes hrun hlookup =>
    have hsound := sound_of_run (run_append_iff.mpr ⟨_, hpre, hrun⟩)
    rw [hes, ← List.append_assoc]
    exact (received_of_lookup hsound hlookup).append _

/-! ### The scan in flight -/

/-- The scan that is being aligned was seeded before the current initial pose. -/
def Superseded (w : World F M) : Prop :=
  ∃ scan, w.scan = some scan ∧ scan.seedGeneration < w.node.initialPoseGeneration

lemma superseded_of_accepts (h : Sound lib es w) (hscan : w.scan.isSome = true)
    (haccepted : AcceptsPose lib cfg (.initialPose msg tf tfLater))
    (he : step lib cfg w (.initialPose msg tf tfLater) = some t) : t.Superseded := by
  obtain ⟨scan, hsome⟩ := Option.isSome_iff_exists.mp hscan
  cases effect_of_step he with
  | quiet hpose => exact absurd haccepted hpose
  | anchored _ hframe hkept =>
    refine ⟨scan, hkept.trans hsome, ?_⟩
    rw [hframe.generation, Node.anchor_eq]
    exact Nat.lt_succ_of_le (h.scan scan hsome).2

lemma Superseded.step (h : w.Superseded) (hnot : ¬IsAligned e) (he : step lib cfg w e = some t) :
    t.Superseded := by
  obtain ⟨scan, hsome, hlt⟩ := h
  cases effect_of_step he with
  | quiet _ hframe hkept => exact ⟨scan, hkept.trans hsome, hframe.generation ▸ hlt⟩
  | anchored _ hframe hkept =>
    refine ⟨scan, hkept.trans hsome, ?_⟩
    rw [hframe.generation, Node.anchor_eq]
    exact Nat.lt_succ_of_lt hlt
  | odom hnone | passed hnone | seeded hnone => rw [hsome] at hnone; cases hnone
  | discarded | refused | accepted => exact absurd trivial hnot

/-- Its result is discarded; only the second attempt may have been made. -/
lemma Superseded.frame {alignment : Alignment F M} (h : w.Superseded)
    (he : World.step lib cfg w (.aligned alignment tf) = some t) :
    Frame (fun o => ∃ initGuess, o = .align initGuess) w.node t.node := by
  obtain ⟨scan, hsome, hlt⟩ := h
  cases effect_of_step he with
  | quiet _ hframe hkept =>
    simp only [World.step, hsome] at he
    cases he
    rw [hsome] at hkept
    cases hkept
  | discarded _ _ hframe => exact hframe.mono fun o ho => ⟨_, ho⟩
  | refused hscan hfresh =>
    rw [hsome] at hscan
    cases hscan
    exact absurd hfresh hlt.ne'
  | accepted hscan hfresh =>
    rw [hsome] at hscan
    cases hscan
    exact absurd hfresh hlt.ne'

/-! ### Whole runs -/

/-- When every initial pose that is accepted resets the correction, every one is authoritative. -/
theorem authoritative_of_always_resets
    (hresets : Always (step lib cfg) (init lib) (Resets lib cfg) es) :
    Authoritative lib cfg es where
  derives := by
    intro pre msg tf tfLater mid post s t u hes hpre haccepted he hmid hundisturbed
    refine hmid.invariant (I := fun fs v => Anchored lib cfg _ fs v.node)
      (anchored_of_accepts (hresets hes hpre) haccepted he) ?_ hundisturbed
    intro fs v f v' hrun hquiet hkept hnext
    exact anchored_step hkept hrun hquiet hnext
  forgets := by
    intro pre msg tf tfLater mid post s u hes hpre haccepted hrun old mapToOdom hold
    obtain ⟨t, he, hmid⟩ := run_cons_iff.mp hrun
    rcases (hresets hes hpre).correction haccepted with hnone | hreset
    · rw [hold] at hnone
      cases hnone
    · exact run_cons_iff.mpr ⟨t, (step_withCorrection hreset haccepted mapToOdom).trans he, hmid⟩
  discards := by
    intro pre msg tf tfLater mid alignment tf' post s u v hes hpre haccepted hscan hrun hmid hv
    obtain ⟨t, he, hrun⟩ := run_cons_iff.mp hrun
    have hsuperseded := superseded_of_accepts (sound_of_run hpre) hscan haccepted he
    have hkept : u.Superseded := hrun.invariant (P := fun _ f => ¬IsAligned f)
      (I := fun _ w => w.Superseded) hsuperseded (fun _ _ _ _ _ hnot h he => h.step hnot he)
      fun p f q x hpq _ => hmid f (by simp [hpq])
    exact hkept.frame hv

instance (w : World F M) : (e : Event F M) → Decidable (Resets lib cfg w e)
  | .initialPose msg tf _ => inferInstanceAs (Decidable
      (decideInitialPoseAdmission lib cfg.globalFrameId msg = true →
        w.node.mapToOdomCorrection = none ∨
        ∃ odomToBase ∈
            w.node.lookupAbsoluteOdomPose lib cfg (stampToSec (normalized cfg msg tf).stamp),
          lib.allFinite (mapToOdomFromPoses lib (lib.fromMsg msg.pose) odomToBase) = true))
  | .map _ | .odom _ _ | .cloud _ _ _ _ _ | .aligned _ _ | .timer _ _ =>
    inferInstanceAs (Decidable True)

section

attribute [local instance] CppFloat.exact

/-- The odometry pose of the stamp is cached when the initial pose is accepted. -/
def carried : List (Event ℚ ℚ) :=
  [.map "map", .odom ⟨1, 0⟩ (Pose.alongAxis 2), .initialPose (.alongAxis 1 100) .empty .empty,
    .odom ⟨2, 0⟩ (Pose.alongAxis 5)]

theorem authoritative_of_always_resets_carried :
    Authoritative Lib.alongAxis (Config.default false) carried ∧
      ∃ w, Run (step Lib.alongAxis (Config.default false)) (init Lib.alongAxis) carried w ∧
        w.node.currentPoseMatrix Lib.alongAxis = 103 :=
  ⟨authoritative_of_always_resets (always_of_execAlways (by decide +kernel)),
    exists_run _ _ _ (fun w : World ℚ ℚ => w.node.currentPoseMatrix Lib.alongAxis = 103)
      (by decide +kernel)⟩

/-- The correction is formed while the robot stands at `1`. -/
def standing : List (Event ℚ ℚ) :=
  [.map "map", .initialPose (.alongAxis 0 1) .empty .empty, .odom ⟨1, 0⟩ (Pose.alongAxis 0)]

/-- A second initial pose comes without a cached odometry pose near its stamp. -/
def undone : List (Event ℚ ℚ) :=
  standing ++ .initialPose (.alongAxis 5 100) .empty .empty ::
    ([.odom ⟨6, 0⟩ (Pose.alongAxis 0)] ++ [])

/-- While the odometry stands still, only the initial pose itself derives from it. -/
lemma derived_of_still {r : Reset ℚ ℚ} {es : List (Event ℚ ℚ)} {stamp : Stamp} {x : ℚ}
    (hbefore : ∀ a, r.before.lookupAbsoluteOdomPose Lib.alongAxis (Config.default false)
      (stampToSec r.stamp) = some a → a = 0)
    (hlooked : ∀ stamp a, Looked Lib.alongAxis (Config.default false) r es stamp a → a = 0)
    (h : Derived Lib.alongAxis (Config.default false) r es stamp x) : x = r.pose := by
  induction h with
  | initial => rfl
  | moved ha hb =>
    simp only [predictMapPose, mapToOdomFromPoses, Lib.alongAxis, hbefore _ ha, hlooked _ _ hb]
    ring
  | held _ _ ih => exact ih
  | heldMoved _ ha hb ih =>
    simp only [predictMapPose, mapToOdomFromPoses, Lib.alongAxis, ih, hlooked _ _ ha.looked,
      hlooked _ _ hb]
    ring
  | stored _ ih => exact ih

lemma received_undone {a : ℚ} (h : Received Lib.alongAxis undone a) : a = 0 := by
  obtain ⟨stamp, pose, hmem, hpose⟩ := h
  have hzero : poseMatrixFromPose Lib.alongAxis (Pose.alongAxis 0) = some 0 := by decide +kernel
  obtain rfl : pose = Pose.alongAxis 0 := by
    simp only [undone, standing, List.cons_append, List.nil_append, List.mem_cons, reduceCtorEq,
      Event.odom.injEq, List.not_mem_nil, or_false, false_or] at hmem
    rcases hmem with ⟨-, rfl⟩ | ⟨-, rfl⟩ <;> rfl
  exact Option.some.inj (hpose.symm.trans hzero)

/-- The next odometry message undoes the second initial pose: the correction from before the reset
moves the pose back. -/
theorem reset_undone_by_odometry :
    ∃ w, Run (step Lib.alongAxis (Config.default false)) (init Lib.alongAxis) undone w ∧
      ¬Authoritative Lib.alongAxis (Config.default false) undone := by
  obtain ⟨w, hw, hcurrent⟩ := exists_run (step Lib.alongAxis (Config.default false))
    (init Lib.alongAxis) undone (fun w => w.node.currentPoseMatrix Lib.alongAxis = 1)
    (by decide +kernel)
  refine ⟨w, hw, fun hauthoritative => ?_⟩
  obtain ⟨s, hpre, hrun⟩ := run_append_iff.mp hw
  obtain ⟨t, he, hmid⟩ := run_cons_iff.mp hrun
  have haccepts : AcceptsPose Lib.alongAxis (Config.default false)
      (.initialPose (.alongAxis 5 100) .empty .empty : Event ℚ ℚ) := by
    show decideInitialPoseAdmission Lib.alongAxis "map" (.alongAxis 5 100) = true
    rfl
  have hundisturbed : Always (step Lib.alongAxis (Config.default false)) t
      (Undisturbed Lib.alongAxis (Config.default false)) [.odom ⟨6, 0⟩ (Pose.alongAxis 0)] :=
    Always.cons ⟨id, id⟩ fun _ _ => always_nil
  have hanchored := hauthoritative.derives rfl hpre haccepts he hmid hundisturbed
  obtain ⟨stamp, hderived⟩ := hanchored.derived_currentPoseMatrix
  have hinitial := derived_of_still
    (fun a ha => received_undone ((received_of_lookup (sound_of_run hpre) ha).append _))
    (fun stamp a ha => received_undone
      (by simpa [undone] using received_of_looked ha (hpre.snoc he)))
    hderived
  rw [hcurrent] at hinitial
  exact absurd (show (1 : ℚ) = 100 from hinitial) (by norm_num)

end

end World
end PclLocalization
