import HumanoidNavigation.GravityOverride.Node
import HumanoidNavigation.Rotation.Align
import Mathlib.Analysis.SpecialFunctions.Trigonometric.Inverse

/-!
# One trusted floor frame

In publish mode the node sends at most one transform, for a plane fitted to enough candidates that
passes both gates; it relays no cloud before that and every cloud from then on. A rejected fit
leaves nothing behind in the pool. The transform takes the fitted plane to height zero.
-/

namespace GravityOverride

open Matrix Rotation Transition

/-! ### One callback -/

section Callback

variable {K : Type} [Field K] [LinearOrder K] {lib : Lib K} {cfg : Config K} {n n' : Node K}
  {e : Delivery K} {sent : List (Effect K)}

def Effect.isTransform : Effect K → Bool
  | .sendTransform _ => true
  | .publish _ => false

/-- The points of a cloud, none if it cannot be read. -/
def points (msg : PointCloud2) : List (Vec K) := (pc2ToXyz msg).getD []

/-- The pooled cloud on which a callback starts a fit. -/
def Node.gathers (cfg : Config K) (n : Node K) (msg : PointCloud2) : Option (List (Vec K)) :=
  if n.active ∨ n.done then none
  else
    match pc2ToXyz msg with
    | none => none
    | some pts =>
      let pool := n.scans.flatten ++ pts
      if cfg.poolSize ≤ pool.length ∨ maxScans ≤ n.nSeen + 1 then some pool else none

/-- The verdict on a pooled cloud. -/
def verdict (lib : Lib K) (cfg : Config K) (pool : List (Vec K)) (fit : Segment K) : Verdict K :=
  judge lib cfg (pool.map (cfg.rImu *ᵥ ·)) fit

omit [LinearOrder K] in
lemma gathers_eq_some {msg : PointCloud2} {pool : List (Vec K)}
    (h : n.gathers cfg msg = some pool) :
    n.active = false ∧ n.done = false ∧ pool = n.scans.flatten ++ points msg := by
  simp only [Node.gathers] at h
  split at h
  · simp at h
  rename_i hidle
  rw [not_or, Bool.not_eq_true, Bool.not_eq_true] at hidle
  split at h
  · simp at h
  · rename_i pts hpts
    split at h
    · exact ⟨hidle.1, hidle.2, by simp [← Option.some.inj h, points, hpts]⟩
    · simp at h

/-- What a callback that returns does in publish mode. -/
inductive Reacts (lib : Lib K) (cfg : Config K) (n : Node K) (e : Delivery K) :
    Node K → List (Effect K) → Prop where
  | relayed (hactive : n.active = true) : Reacts lib cfg n e n [.publish (Node.relabel cfg e.msg)]
  | ignored (hactive : n.active = false) (hdone : n.done = true) : Reacts lib cfg n e n []
  | pooled {scans : List (List (Vec K))} (hactive : n.active = false) (hdone : n.done = false)
      (hpool : n.gathers cfg e.msg = none)
      (hscans : scans.flatten = n.scans.flatten ++ points e.msg) :
      Reacts lib cfg n e { n with scans := scans, nSeen := n.nSeen + 1 } []
  | rejected {pool : List (Vec K)} (hpool : n.gathers cfg e.msg = some pool)
      (hverdict : verdict lib cfg pool e.fit = .rejected) : Reacts lib cfg n e {} []
  | accepted {pool : List (Vec K)} {floor : Floor K} (hpool : n.gathers cfg e.msg = some pool)
      (hverdict : verdict lib cfg pool e.fit = .accepted floor) :
      Reacts lib cfg n e ⟨[], n.nSeen + 1, true, true⟩
        [.sendTransform (floorTransform lib cfg floor e.now), .publish (Node.relabel cfg e.msg)]

lemma compute_ok (hpub : cfg.publish = true) {fit : Segment K} {now : Ros.Stamp}
    (h : n.compute lib cfg fit now = .ok (n', sent)) :
    (verdict lib cfg n.scans.flatten fit = .rejected ∧
      n' = { n with scans := [], nSeen := 0, done := false } ∧ sent = []) ∨
    ∃ floor, verdict lib cfg n.scans.flatten fit = .accepted floor ∧
      n' = { n with scans := [], active := true } ∧
      sent = [.sendTransform (floorTransform lib cfg floor now)] := by
  simp only [Node.compute, hpub, Bool.not_true, Bool.false_eq_true, if_false] at h
  simp only [verdict]
  split at h
  · simp at h
  · simp at h
  · rename_i hv
    simp only [Except.ok.injEq, Prod.mk.injEq] at h
    exact Or.inl ⟨hv, h.1.symm, h.2.symm⟩
  · rename_i floor hv
    simp only [Except.ok.injEq, Prod.mk.injEq] at h
    exact Or.inr ⟨floor, hv, h.1.symm, h.2.symm⟩

omit [Field K] [LinearOrder K] in
lemma flatten_append_if {scans : List (List (Vec K))} {pts : List (Vec K)}
    [Decidable (pts ≠ [])] :
    (if pts ≠ [] then scans ++ [pts] else scans).flatten = scans.flatten ++ pts := by
  split
  · simp
  · simp_all

lemma onCloud_ok (hpub : cfg.publish = true) (h : n.onCloud lib cfg e = .ok (n', sent)) :
    Reacts lib cfg n e n' sent := by
  simp only [Node.onCloud] at h
  split at h
  · cases h
    exact .relayed ‹_›
  rename_i hactive
  replace hactive := eq_false_of_ne_true hactive
  split at h
  · cases h
    exact .ignored hactive ‹_›
  rename_i hdone
  replace hdone := eq_false_of_ne_true hdone
  cases hpts : (pc2ToXyz e.msg : Option (List (Vec K))) with
  | none => simp [hpts] at h
  | some pts =>
    have hpoints : points e.msg = pts := by simp [points, hpts]
    simp only [hpts, flatten_append_if] at h
    split at h
    · rename_i hfull
      have hpool : n.gathers cfg e.msg = some (n.scans.flatten ++ pts) := by
        simp only [Node.gathers, hactive, hdone, hpts, Bool.false_eq_true, or_self, if_false]
        rw [if_pos hfull]
      obtain ⟨⟨m, out⟩, hm, h⟩ := Except.bind_eq_ok.mp h
      rcases compute_ok hpub hm with ⟨hv, rfl, rfl⟩ | ⟨floor, hv, rfl, rfl⟩
      · rw [flatten_append_if] at hv
        simp only [hactive, Bool.false_eq_true, if_false] at h
        cases h
        exact .rejected hpool hv
      · rw [flatten_append_if] at hv
        cases h
        exact .accepted hpool hv
    · rename_i hfull
      cases h
      refine .pooled hactive hdone ?_ (by rw [flatten_append_if, hpoints])
      simp only [Node.gathers, hactive, hdone, hpts, Bool.false_eq_true, or_self, if_false]
      rw [if_neg hfull]

lemma judge_accepted {pts : List (Vec K)} {fit : Segment K} {floor : Floor K}
    (h : judge lib cfg pts fit = .accepted floor) :
    200 ≤ (floorCandidates pts).length ∧ fitFloorNormal lib pts fit = some floor ∧
      cfg.minInlierRatio ≤ floor.inlierRatio ∧
      residualDeg lib floor.normal ≤ cfg.maxCorrectionDeg := by
  have hpts : 200 ≤ pts.length := by
    by_contra hpts
    simp [judge, hpts] at h
  simp only [judge, hpts, if_true, List.countP_eq_length_filter] at h
  split at h
  · simp at h
  rename_i hcands
  split at h
  · simp at h
  · rename_i floor' hfit
    split at h
    · simp at h
    rename_i hratio
    split at h
    · simp at h
    rename_i hresidual
    cases h
    exact ⟨not_lt.mp hcands, hfit, not_lt.mp hratio, not_lt.mp hresidual⟩

/-- With enough candidates the floor is the plane of RANSAC, scaled to a unit normal. -/
lemma fitFloorNormal_eq_some {pts : List (Vec K)} {fit : Segment K} {floor : Floor K}
    (hcands : 200 ≤ (floorCandidates pts).length) (h : fitFloorNormal lib pts fit = some floor) :
    lib.sqrt (fit.upward.1 ⬝ᵥ fit.upward.1) ≠ 0 ∧
      floor = ⟨fun i => fit.upward.1 i / lib.sqrt (fit.upward.1 ⬝ᵥ fit.upward.1),
        fit.upward.2 / lib.sqrt (fit.upward.1 ⬝ᵥ fit.upward.1),
        fit.inliers.length / (floorCandidates pts).length⟩ := by
  have hpts : ¬pts.length < 200 :=
    not_lt.mpr (hcands.trans (List.length_filter_le _ _))
  simp only [fitFloorNormal, hpts, not_lt.mpr hcands, if_false] at h
  split at h
  · simp at h
  · rename_i hnorm
    exact ⟨hnorm, (Option.some.inj h).symm⟩

/-! ### Runs -/

variable {es fs : List (Delivery K)} {w w' : World K}

namespace World

/-- A step is a callback that ends the node, or one that returns. -/
lemma step_cases (hpub : cfg.publish = true) (h : step lib cfg w e = some w') :
    ∃ n, w.node = .ok n ∧
      ((∃ halt, n.active = false ∧ w' = ⟨.error halt, w.outputs ++ [[]]⟩) ∨
        ∃ n' sent, Reacts lib cfg n e n' sent ∧ w' = ⟨.ok n', w.outputs ++ [sent]⟩) := by
  simp only [step] at h
  split at h
  · simp at h
  · rename_i n hn
    refine ⟨n, hn, ?_⟩
    split at h
    · rename_i halt hcall
      refine Or.inl ⟨halt, ?_, (Option.some.inj h).symm⟩
      by_contra hactive
      rw [Bool.not_eq_false] at hactive
      simp [Node.onCloud, hactive] at hcall
    · rename_i n' sent hcall
      exact Or.inr ⟨n', sent, onCloud_ok hpub hcall, (Option.some.inj h).symm⟩

/-- The pool of a node that still fits holds the points of the last deliveries of a history. -/
def PoolOf (w : World K) (es : List (Delivery K)) : Prop :=
  ∀ n, w.node = .ok n → n.active = false → n.done = false →
    ∃ s, s <:+ es ∧ n.scans.flatten = s.flatMap fun e => points e.msg

/-- From an empty pool on, the pool only holds points of clouds that came later. -/
lemma poolOf_of_run (hpub : cfg.publish = true) (hempty : ∀ n, w.node = .ok n → n.scans = [])
    (hrun : Run (step lib cfg) w es w') : w'.PoolOf es := by
  induction hrun with
  | nil =>
    intro n hn _ _
    exact ⟨[], List.suffix_refl [], by simp [hempty n hn]⟩
  | snoc hrun he ih =>
    obtain ⟨n, hn, ⟨halt, -, rfl⟩ | ⟨n', sent, hreact, rfl⟩⟩ := step_cases hpub he
    · intro m hm
      cases hm
    intro m hm hactive' hdone'
    cases hm
    cases hreact with
    | relayed hactive => simp [hactive] at hactive'
    | ignored hactive hdone => simp [hdone] at hdone'
    | pooled hactive hdone _ hscans =>
      obtain ⟨l, hl, hpool⟩ := ih n hn hactive hdone
      refine ⟨l ++ [_], List.suffix_append_self_iff.mpr hl, ?_⟩
      rw [hscans, hpool, List.flatMap_append, List.flatMap_singleton]
    | rejected => exact ⟨[], List.nil_suffix, rfl⟩
    | accepted => simp at hactive'

/-- After the history `pre`, the delivery `e` starts a fit on `pool`. -/
def Fits (lib : Lib K) (cfg : Config K) (pre : List (Delivery K)) (e : Delivery K)
    (pool : List (Vec K)) : Prop :=
  ∃ w n, Run (step lib cfg) init pre w ∧ w.node = .ok n ∧ n.gathers cfg e.msg = some pool

/-- What is sent in the callbacks of a delivery and of those after it, if that delivery
completes the frame. -/
def announcement (cfg : Config K) (tf : Ros.TransformStamped K) (e : Delivery K)
    (post : List (Delivery K)) : List (List (Effect K)) :=
  [.sendTransform tf, .publish (Node.relabel cfg e.msg)] ::
    post.map fun e => [.publish (Node.relabel cfg e.msg)]

/-- Nothing is sent, or the delivery `e` makes the node send one transform, before its own cloud,
and from `e` on each cloud is relayed once. -/
def OneFrame (cfg : Config K)
    (Accepted : List (Delivery K) → Delivery K → Ros.TransformStamped K → Prop)
    (es : List (Delivery K)) (outputs : List (List (Effect K))) : Prop :=
  outputs = es.map (fun _ => []) ∨
    ∃ pre e post tf, es = pre ++ e :: post ∧ Accepted pre e tf ∧
      outputs = pre.map (fun _ => []) ++ announcement cfg tf e post

omit [LinearOrder K] in
lemma OneFrame.mono {P Q : List (Delivery K) → Delivery K → Ros.TransformStamped K → Prop}
    {outputs : List (List (Effect K))} (h : OneFrame cfg P es outputs)
    (hPQ : ∀ pre e tf, P pre e tf → Q pre e tf) : OneFrame cfg Q es outputs := by
  rcases h with h | ⟨pre, e, post, tf, hes, hP, hout⟩
  · exact Or.inl h
  · exact Or.inr ⟨pre, e, post, tf, hes, hPQ pre e tf hP, hout⟩

omit [LinearOrder K] in
lemma OneFrame.once {P : List (Delivery K) → Delivery K → Ros.TransformStamped K → Prop}
    {outputs : List (List (Effect K))} (h : OneFrame cfg P es outputs) :
    outputs.flatten.countP Effect.isTransform ≤ 1 := by
  rcases h with rfl | ⟨pre, e, post, tf, -, -, rfl⟩
  · simp
  · have hpost : (post.map fun e =>
        [Effect.publish (K := K) (Node.relabel cfg e.msg)]).flatten.countP
        Effect.isTransform = 0 := by
      rw [List.countP_eq_zero]
      intro a ha
      simp only [List.mem_flatten, List.mem_map] at ha
      obtain ⟨_, ⟨f, -, rfl⟩, ha⟩ := ha
      simp [List.mem_singleton.mp ha, Effect.isTransform]
    simp [announcement, List.countP_cons, Effect.isTransform, hpost]

/-- A delivery with an accepted fit, and its transform. -/
def Accepts (lib : Lib K) (cfg : Config K) (pre : List (Delivery K)) (e : Delivery K)
    (tf : Ros.TransformStamped K) : Prop :=
  ∃ pool floor, Fits lib cfg pre e pool ∧ verdict lib cfg pool e.fit = .accepted floor ∧
    tf = floorTransform lib cfg floor e.now

/-- The node gathers clouds, or it has ended. -/
def Waits (w : World K) : Prop := ∀ n, w.node = .ok n → n.active = false ∧ n.done = false

/-- A node that waits sends nothing, or it accepts a floor and announces it. -/
lemma Waits.step (hpub : cfg.publish = true) (h : w.Waits) (he : step lib cfg w e = some w') :
    (w'.Waits ∧ w'.outputs = w.outputs ++ [[]]) ∨
      ∃ n pool floor, w.node = .ok n ∧ n.gathers cfg e.msg = some pool ∧
        verdict lib cfg pool e.fit = .accepted floor ∧
        (∃ n', w'.node = .ok n' ∧ n'.active = true) ∧
        w'.outputs = w.outputs ++
          [[.sendTransform (floorTransform lib cfg floor e.now),
            .publish (Node.relabel cfg e.msg)]] := by
  obtain ⟨n, hn, ⟨halt, -, rfl⟩ | ⟨n', sent, hreact, rfl⟩⟩ := step_cases hpub he
  · exact Or.inl ⟨nofun, rfl⟩
  obtain ⟨hactive, hdone⟩ := h n hn
  cases hreact with
  | relayed h => simp [hactive] at h
  | ignored _ h => simp [hdone] at h
  | pooled =>
    refine Or.inl ⟨?_, rfl⟩
    rintro m ⟨⟩
    exact ⟨hactive, hdone⟩
  | rejected =>
    refine Or.inl ⟨?_, rfl⟩
    rintro m ⟨⟩
    exact ⟨rfl, rfl⟩
  | accepted hpool hverdict =>
    exact Or.inr ⟨n, _, _, hn, hpool, hverdict, ⟨_, rfl, rfl⟩, rfl⟩

/-- A node that is active relays. -/
lemma step_of_active {n : Node K} (hn : w.node = .ok n) (hactive : n.active = true)
    (he : step lib cfg w e = some w') :
    w' = ⟨.ok n, w.outputs ++ [[.publish (Node.relabel cfg e.msg)]]⟩ := by
  simpa [step, hn, Node.onCloud, hactive] using he.symm

/-- Either nothing was sent and the node waits, or the frame is announced and the node is
active. -/
lemma announced_of_run (hpub : cfg.publish = true) (hrun : Run (step lib cfg) init es w) :
    (w.outputs = es.map (fun _ => []) ∧ w.Waits) ∨
    ((∃ n, w.node = .ok n ∧ n.active = true) ∧
      ∃ pre e post tf, es = pre ++ e :: post ∧ Accepts lib cfg pre e tf ∧
        w.outputs = pre.map (fun _ => []) ++ announcement cfg tf e post) := by
  induction hrun with
  | nil =>
    refine Or.inl ⟨rfl, ?_⟩
    rintro n hn
    cases hn
    exact ⟨rfl, rfl⟩
  | @snoc es s t e hrun he ih =>
    rcases ih with ⟨hout, hwaits⟩ | ⟨⟨n, hn, hactive⟩, pre, f, post, tf, rfl, hacc, hout⟩
    · rcases hwaits.step hpub he with
        ⟨hwaits', hout'⟩ | ⟨n, pool, floor, hn, hpool, hverdict, hactive, hout'⟩
      · exact Or.inl ⟨by simp [hout', hout], hwaits'⟩
      · refine Or.inr ⟨hactive, es, e, [], _, rfl,
          ⟨pool, floor, ⟨s, n, hrun, hn, hpool⟩, hverdict, rfl⟩, ?_⟩
        simp [hout', hout, announcement]
    · obtain rfl := step_of_active hn hactive he
      refine Or.inr ⟨⟨n, rfl, hactive⟩, pre, f, post ++ [e], tf, by simp, hacc, ?_⟩
      simp [hout, announcement]

/-- The pool of a fit after a rejected one holds only points of clouds that came in between. -/
def FreshAfterRejection (lib : Lib K) (cfg : Config K) (es : List (Delivery K)) : Prop :=
  ∀ ⦃pre e mid f post rejected pool⦄, es = pre ++ e :: mid ++ f :: post →
    Fits lib cfg pre e rejected → verdict lib cfg rejected e.fit = .rejected →
    Fits lib cfg (pre ++ e :: mid) f pool →
    ∃ s, s <:+ mid ++ [f] ∧ pool = s.flatMap fun e => points e.msg

lemma freshAfterRejection (hpub : cfg.publish = true) : FreshAfterRejection lib cfg es := by
  rintro pre e mid f post rejected pool - ⟨w, n, hw, hn, hpool⟩ hverdict ⟨u, m, hu, hm, hfit⟩
  obtain ⟨w', hw', hafter⟩ := run_append_iff.mp hu
  obtain rfl := hw.unique hw'
  obtain ⟨t, ht, hmid⟩ := run_cons_iff.mp hafter
  have hempty : ∀ n, t.node = .ok n → n.scans = [] := by
    intro k hk
    obtain ⟨n', hn', ⟨halt, -, rfl⟩ | ⟨n'', sent, hreact, rfl⟩⟩ := step_cases hpub ht
    · cases hk
    obtain rfl : n = n' := by
      rw [hn] at hn'
      exact Except.ok.inj hn'
    cases hk
    obtain ⟨hactive, hdone, -⟩ := gathers_eq_some hpool
    cases hreact with
    | relayed h => simp [hactive] at h
    | ignored _ h => simp [hdone] at h
    | pooled _ _ h => simp [hpool] at h
    | rejected => rfl
    | accepted => rfl
  obtain ⟨hactive, hdone, rfl⟩ := gathers_eq_some hfit
  obtain ⟨l, hl, hscans⟩ := poolOf_of_run hpub hempty hmid m hm hactive hdone
  refine ⟨l ++ [f], List.suffix_append_self_iff.mpr hl, ?_⟩
  rw [hscans, List.flatMap_append, List.flatMap_singleton]

end World
end Callback

/-! ### The geometry of an accepted floor -/

/-- A point under a transform. -/
def mapPoint {K : Type} [Field K] (tf : Ros.Transform K) (p : Vec K) : Vec K :=
  ofQuaternion tf.rotation.x tf.rotation.y tf.rotation.z tf.rotation.w *ᵥ p +
    ![tf.translation.x, tf.translation.y, tf.translation.z]

def up {K : Type} [Field K] : Vec K := ![0, 0, 1]

/-- The real functions, with a conversion to quaternions. -/
noncomputable def Lib.real (asQuat : Ros.Mat3 ℝ → Ros.Quaternion ℝ) : Lib ℝ :=
  ⟨Real.sqrt, Real.arccos, Real.pi, asQuat⟩

@[simp] lemma real_sqrt {asQuat : Ros.Mat3 ℝ → Ros.Quaternion ℝ} :
    (Lib.real asQuat).sqrt = Real.sqrt :=
  rfl

/-- The conversion of `scipy` gives a quaternion of the rotation it is asked for. -/
def Faithful (asQuat : Ros.Mat3 ℝ → Ros.Quaternion ℝ) : Prop :=
  ∀ m ∈ specialOrthogonalGroup (Fin 3) ℝ,
    ofQuaternion (asQuat m).x (asQuat m).y (asQuat m).z (asQuat m).w = m

variable {asQuat : Ros.Mat3 ℝ → Ros.Quaternion ℝ} {cfg : Config ℝ} {n : Vec ℝ}

lemma diagonal_mem : diagonal ![1, -1, -1] ∈ specialOrthogonalGroup (Fin 3) ℝ := by
  refine mem_specialOrthogonalGroup_iff.mpr ⟨(mem_orthogonalGroup_iff (Fin 3) ℝ).mpr ?_, ?_⟩
  · rw [diagonal_transpose, diagonal_mul_diagonal, ← diagonal_one]
    congr 1
    ext i
    fin_cases i <;> simp
  · simp [det_diagonal, Fin.prod_univ_three]

variable (cfg) in
lemma rImu_mem : cfg.rImu ∈ specialOrthogonalGroup (Fin 3) ℝ := by
  simp only [Config.rImu]
  split
  · exact mul_mem diagonal_mem (ofQuaternion_mem cfg.imuQuat_ne)
  · exact ofQuaternion_mem cfg.imuQuat_ne

variable (asQuat) in
/-- Away from the parallel vectors the correction is a rotation that takes one onto the other. -/
lemma rotationToAlign_spec {m : Vec ℝ} (hn : n ⬝ᵥ n = 1) (hm : m ⬝ᵥ m = 1)
    (hs : 1 / 10 ^ 9 ≤ √((n ⨯₃ m) ⬝ᵥ (n ⨯₃ m))) :
    rotationToAlign (.real asQuat) n m ∈ specialOrthogonalGroup (Fin 3) ℝ ∧
      rotationToAlign (.real asQuat) n m *ᵥ n = m := by
  have hsq : √((n ⨯₃ m) ⬝ᵥ (n ⨯₃ m)) * √((n ⨯₃ m) ⬝ᵥ (n ⨯₃ m)) = (n ⨯₃ m) ⬝ᵥ (n ⨯₃ m) :=
    length_mul_length _
  have hne : (n ⨯₃ m) ⬝ᵥ (n ⨯₃ m) ≠ 0 := by
    rw [← hsq]
    have hpos : 0 < √((n ⨯₃ m) ⬝ᵥ (n ⨯₃ m)) := lt_of_lt_of_le (by norm_num) hs
    positivity
  have hk := one_add_mul_factor hn hm hne
  have heq : rotationToAlign (.real asQuat) n m =
      rodrigues (n ⨯₃ m) ((1 - n ⬝ᵥ m) / ((n ⨯₃ m) ⬝ᵥ (n ⨯₃ m))) := by
    simp only [rotationToAlign, real_sqrt, not_lt.mpr hs, if_false, hsq]
  rw [heq]
  exact ⟨rodrigues_cross_mem hn hm hk, rodrigues_cross_mulVec hn hm hk⟩

lemma up_unit : (up : Vec ℝ) ⬝ᵥ up = 1 := by simp [up, dotProduct, Fin.sum_univ_three]

/-- The levelled height of a point above a floor is its scalar product with the normal. -/
lemma rotated_height {r : Ros.Mat3 ℝ} (hr : r ∈ specialOrthogonalGroup (Fin 3) ℝ)
    (hn : r *ᵥ n = up) (x : Vec ℝ) : (r *ᵥ x) 2 = n ⬝ᵥ x := by
  rw [← mulVec_dotProduct_mulVec hr, hn]
  simp [up, dotProduct, Fin.sum_univ_three]

/-- What the transform for an accepted fit is worth: the fit had enough candidates and passed both
gates, the normal `n` and offset `d` describe the plane of RANSAC, and the points of that plane
get height zero. -/
structure Trusted (cfg : Config ℝ) (worldPts : List (Vec ℝ)) (fit : Segment ℝ) (n : Vec ℝ) (d : ℝ)
    (tf : Ros.TransformStamped ℝ) : Prop where
  candidates : 200 ≤ (floorCandidates worldPts).length
  ratio : cfg.minInlierRatio ≤ fit.inliers.length / (floorCandidates worldPts).length
  unit : n ⬝ᵥ n = 1
  upward : 0 ≤ n 2
  plane : ∃ k, k ≠ 0 ∧ n = k • ![fit.a, fit.b, fit.c] ∧ d = k * fit.d
  correction : Real.arccos (n 2) * 180 / Real.pi ≤ cfg.maxCorrectionDeg
  frames : tf.frameId = "world" ∧ tf.childFrameId = cfg.outputFrame
  level : 1 / 10 ^ 9 ≤ √((n ⨯₃ up) ⬝ᵥ (n ⨯₃ up)) →
    ∀ p, n ⬝ᵥ (cfg.rImu *ᵥ p) + d = 0 → mapPoint tf.transform p 2 = 0

lemma Segment.upward_spec (fit : Segment ℝ) : 0 ≤ fit.upward.1 2 ∧ ∃ k, k ≠ 0 ∧
    fit.upward.1 = k • ![fit.a, fit.b, fit.c] ∧ fit.upward.2 = k * fit.d := by
  simp only [Segment.upward]
  split
  · rename_i h
    exact ⟨by simpa using h.le, -1, by simp, by simp, by simp⟩
  · rename_i h
    exact ⟨by simpa using h, 1, by simp, by simp, by simp⟩

lemma clip_eq (hn : n ⬝ᵥ n = 1) : min (max (n 2) (-1)) 1 = n 2 := by
  simp only [dotProduct, Fin.sum_univ_three] at hn
  rw [max_eq_left (by nlinarith), min_eq_left (by nlinarith)]

lemma dotProduct_unit {m : Vec ℝ} (hm : √(m ⬝ᵥ m) ≠ 0) :
    (fun i => m i / √(m ⬝ᵥ m)) ⬝ᵥ (fun i => m i / √(m ⬝ᵥ m)) = 1 := by
  have hsq : √(m ⬝ᵥ m) * √(m ⬝ᵥ m) = m ⬝ᵥ m :=
    Real.mul_self_sqrt (Finset.sum_nonneg fun i _ => mul_self_nonneg _)
  have hne : m ⬝ᵥ m ≠ 0 := hsq ▸ mul_ne_zero hm hm
  calc (fun i => m i / √(m ⬝ᵥ m)) ⬝ᵥ (fun i => m i / √(m ⬝ᵥ m))
      = (m ⬝ᵥ m) / (√(m ⬝ᵥ m) * √(m ⬝ᵥ m)) := by
        simp only [dotProduct, Fin.sum_univ_three]
        ring
    _ = 1 := by rw [hsq, div_self hne]

/-- The transform takes the plane of the normal `n` and the offset `d` to height zero. -/
lemma mapPoint_floorTransform (hquat : Faithful asQuat) {floor : Floor ℝ} {now : Ros.Stamp}
    (hn : floor.normal ⬝ᵥ floor.normal = 1)
    (hs : 1 / 10 ^ 9 ≤ √((floor.normal ⨯₃ up) ⬝ᵥ (floor.normal ⨯₃ up))) {p : Vec ℝ}
    (hp : floor.normal ⬝ᵥ (cfg.rImu *ᵥ p) + floor.d = 0) :
    mapPoint (floorTransform (.real asQuat) cfg floor now).transform p 2 = 0 := by
  obtain ⟨hmem, halign⟩ := rotationToAlign_spec asQuat hn up_unit hs
  have hrot := hquat _ (mul_mem hmem (rImu_mem cfg))
  have hheight := rotated_height hmem halign (cfg.rImu *ᵥ p)
  rw [mulVec_mulVec] at hheight
  calc mapPoint (floorTransform (.real asQuat) cfg floor now).transform p 2
      = ((rotationToAlign (.real asQuat) floor.normal up * cfg.rImu) *ᵥ p) 2 + floor.d := by
        rw [← hrot]
        simp [mapPoint, floorTransform, Lib.real, up]
    _ = 0 := by rw [hheight, hp]

lemma trusted_of_accepted (hquat : Faithful asQuat) {worldPts : List (Vec ℝ)} {fit : Segment ℝ}
    {floor : Floor ℝ} {now : Ros.Stamp}
    (h : judge (.real asQuat) cfg worldPts fit = .accepted floor) :
    Trusted cfg worldPts fit floor.normal floor.d
      (floorTransform (.real asQuat) cfg floor now) := by
  obtain ⟨hcands, hfit, hratio, hresidual⟩ := judge_accepted h
  obtain ⟨hnorm, hfloor⟩ := fitFloorNormal_eq_some hcands hfit
  rw [real_sqrt] at hnorm hfloor
  subst hfloor
  obtain ⟨hupward, k, hk, hplane, hd⟩ := fit.upward_spec
  have hunit := dotProduct_unit hnorm
  exact {
    candidates := hcands
    ratio := hratio
    unit := hunit
    upward := div_nonneg hupward (Real.sqrt_nonneg _)
    plane := by
      refine ⟨k / √(fit.upward.1 ⬝ᵥ fit.upward.1), div_ne_zero hk hnorm, ?_, ?_⟩
      · ext i
        simp only [congrFun hplane i, Pi.smul_apply, smul_eq_mul, div_mul_eq_mul_div]
      · rw [hd, div_mul_eq_mul_div]
    correction := by
      simpa only [residualDeg, Lib.real, clip_eq hunit] using hresidual
    frames := ⟨rfl, rfl⟩
    level := fun hs p hp => mapPoint_floorTransform hquat hunit hs hp }

/-! ### The frame of a run -/

namespace World

variable {es : List (Delivery ℝ)} {w : World ℝ}

theorem floorFrame (hquat : Faithful asQuat) (hpub : cfg.publish = true)
    (hrun : Run (step (.real asQuat) cfg) init es w) :
    (w.outputs.flatten.countP Effect.isTransform ≤ 1) ∧
      OneFrame cfg (fun pre e tf => ∃ pool n d, Fits (.real asQuat) cfg pre e pool ∧
        Trusted cfg (pool.map (cfg.rImu *ᵥ ·)) e.fit n d tf) es w.outputs ∧
      FreshAfterRejection (.real asQuat) cfg es := by
  have hframe : OneFrame cfg (Accepts (.real asQuat) cfg) es w.outputs := by
    rcases announced_of_run hpub hrun with ⟨hout, -⟩ | ⟨-, h⟩
    · exact Or.inl hout
    · exact Or.inr h
  refine ⟨hframe.once, ?_, freshAfterRejection hpub⟩
  refine hframe.mono ?_
  rintro pre e tf ⟨pool, floor, hfits, hverdict, rfl⟩
  exact ⟨pool, floor.normal, floor.d, hfits, trusted_of_accepted hquat hverdict⟩

end World

/-! A level quaternion, and 2500 points at the origin of which RANSAC says that they lie on the
plane `3 x + 4 z = 0`. -/

noncomputable def scipyQuat (m : Ros.Mat3 ℝ) : Ros.Quaternion ℝ :=
  ⟨toQuaternion m 1, toQuaternion m 2, toQuaternion m 3, toQuaternion m 0⟩

noncomputable def levelConfig : Config ℝ where
  imuQuat := ⟨0, 0, 0, 1⟩
  imuQuat_ne := by norm_num
  minPoints := 2500
  publish := true
  outputFrame := "camera_init_floor"
  maxCorrectionDeg := 90
  minInlierRatio := 1 / 5
  flipGravity := false

def zeroCloud (n : ℕ) : PointCloud2 where
  stamp := ⟨0, 0⟩
  frameId := "camera_init"
  height := 1
  width := n
  fields := [⟨"x", 0⟩, ⟨"y", 4⟩, ⟨"z", 8⟩]
  pointStep := 12
  data := List.replicate (n * 12) 0

lemma frombuffer_zeros {K : Type} [Field K] (n : ℕ) :
    frombuffer (K := K) (List.replicate n [0, 0, 0, 0]).flatten =
      some (List.replicate n (some 0)) := by
  induction n with
  | zero => rfl
  | succ n ih =>
    rw [List.replicate_succ, List.flatten_cons]
    simp [frombuffer, ih, float32, List.replicate_succ]

lemma readAxis_zeroCloud {n : ℕ} {ax : String} (hax : ax ∈ ["x", "y", "z"]) :
    readAxis (K := ℝ) (zeroCloud n) (List.replicate n (List.replicate 12 0)) ax =
      some (List.replicate n (some 0)) := by
  fin_cases hax <;>
    simp [readAxis, zeroCloud, List.flatMap_replicate, frombuffer_zeros, broadcast]

lemma pc2ToXyz_zeroCloud (n : ℕ) :
    pc2ToXyz (K := ℝ) (zeroCloud n) = some (List.replicate n ![0, 0, 0]) := by
  have hrows : ((List.range ((zeroCloud n).width * (zeroCloud n).height)).map fun i =>
      ((zeroCloud n).data.drop (i * (zeroCloud n).pointStep)).take (zeroCloud n).pointStep) =
      List.replicate n (List.replicate 12 0) := by
    rw [List.eq_replicate_iff]
    refine ⟨by simp [zeroCloud], ?_⟩
    simp only [zeroCloud, List.mem_map, List.mem_range, List.drop_replicate, List.take_replicate]
    rintro _ ⟨i, hi, rfl⟩
    congr 1
    omega
  have hlength : ¬(zeroCloud n).data.length ≠
      (zeroCloud n).width * (zeroCloud n).height * (zeroCloud n).pointStep := by
    simp [zeroCloud]
  simp only [pc2ToXyz, hrows, if_neg hlength]
  rw [readAxis_zeroCloud (by simp), readAxis_zeroCloud (by simp), readAxis_zeroCloud (by simp)]
  simp

lemma quantile_replicate (n : ℕ) (c : ℝ) : quantile 1 4 (List.replicate (n + 1) c) = c := by
  have hsorted : (List.replicate (n + 1) c).mergeSort (· ≤ ·) = List.replicate (n + 1) c :=
    List.mergeSort_of_pairwise (by simp)
  have hget {i : ℕ} {b : ℝ} (h : i < n + 1 ∨ b = c) :
      (List.replicate (n + 1) c).getD i b = c := by
    rw [List.getD_eq_getElem?_getD, List.getElem?_replicate]
    split
    · rfl
    · exact h.resolve_left ‹_›
  have hlower : n / 4 < n + 1 := by omega
  simp only [quantile, hsorted, List.length_replicate, one_mul, Nat.add_sub_cancel]
  rw [hget (Or.inl hlower), hget (Or.inr rfl)]
  ring

lemma floorCandidates_replicate (n : ℕ) (p : Vec ℝ) :
    floorCandidates (List.replicate (n + 1) p) = List.replicate (n + 1) p := by
  rw [floorCandidates, List.map_replicate, quantile_replicate, List.filter_replicate]
  simp

/-- Points at the origin of which RANSAC says that they lie on `3 x + 4 z = 0`. -/
def originDelivery (n : ℕ) : Delivery ℝ := ⟨zeroCloud n, ⟨3, 0, 4, 0, List.range n⟩, ⟨1, 0⟩⟩

noncomputable def originFloor : Floor ℝ := ⟨![3 / 5, 0, 4 / 5], 0, 1⟩

lemma fitFloorNormal_origin {n : ℕ} (hn : 200 ≤ n + 1) (p : Vec ℝ) :
    fitFloorNormal (.real scipyQuat) (List.replicate (n + 1) p) (originDelivery (n + 1)).fit =
      some originFloor := by
  have hup : (originDelivery (n + 1)).fit.upward = (![3, 0, 4], 0) := by
    simp [Segment.upward, originDelivery]
  have hdot : ![(3 : ℝ), 0, 4] ⬝ᵥ ![3, 0, 4] = 25 := by
    norm_num [dotProduct, Fin.sum_univ_three, Matrix.cons_val_two]
  have hsqrt : √(25 : ℝ) = 5 := by
    rw [Real.sqrt_eq_iff_mul_self_eq] <;> norm_num
  have hratio : ((originDelivery (n + 1)).fit.inliers.length : ℝ) / (n + 1 : ℕ) = 1 := by
    rw [originDelivery, List.length_range, div_self (by positivity)]
  simp only [fitFloorNormal, floorCandidates_replicate, List.length_replicate, not_lt.mpr hn,
    if_false, hup, hdot, real_sqrt, hsqrt, hratio, originFloor]
  rw [if_neg (by norm_num), zero_div]
  congr 2
  ext i
  fin_cases i <;> simp

lemma residualDeg_origin : residualDeg (.real scipyQuat) originFloor.normal ≤ 90 := by
  have hacute : Real.arccos (4 / 5) ≤ Real.pi / 2 :=
    Real.arccos_le_pi_div_two.mpr (by norm_num)
  have hheight : originFloor.normal 2 = 4 / 5 := rfl
  have hclip : min (max (originFloor.normal 2) (-1)) 1 = 4 / 5 := by
    rw [hheight]
    norm_num
  simp only [residualDeg, Lib.real, hclip]
  rw [div_le_iff₀ Real.pi_pos]
  linarith

lemma judge_origin {n : ℕ} (hn : 200 ≤ n + 1) (p : Vec ℝ) :
    judge (.real scipyQuat) levelConfig (List.replicate (n + 1) p) (originDelivery (n + 1)).fit =
      .accepted originFloor := by
  have hcount : ((List.replicate (n + 1) p).countP fun q =>
      q 2 ≤ quantile 1 4 ((List.replicate (n + 1) p).map (· 2))) = n + 1 := by
    rw [List.countP_eq_length_filter]
    exact (congrArg List.length (floorCandidates_replicate n p)).trans List.length_replicate
  have hratio : ¬originFloor.inlierRatio < levelConfig.minInlierRatio := by
    norm_num [levelConfig, originFloor]
  have hmax : levelConfig.maxCorrectionDeg = 90 := rfl
  simp only [judge, List.length_replicate, hn, if_true, hcount, not_lt.mpr hn, if_false,
    fitFloorNormal_origin hn, hratio, hmax, not_lt.mpr residualDeg_origin]

namespace World

lemma step_origin {n : ℕ} (hn : 2500 ≤ n + 1) :
    step (.real scipyQuat) levelConfig init (originDelivery (n + 1)) = some
      ⟨.ok ⟨[], 1, true, true⟩,
        [[.sendTransform (floorTransform (.real scipyQuat) levelConfig originFloor ⟨1, 0⟩),
          .publish (Node.relabel levelConfig (originDelivery (n + 1)).msg)]]⟩ := by
  have hpts : pc2ToXyz (originDelivery (n + 1)).msg =
      some (List.replicate (n + 1) ![(0 : ℝ), 0, 0]) :=
    pc2ToXyz_zeroCloud (n + 1)
  have hfull : levelConfig.poolSize ≤ (n : ℤ) + 1 := by
    simp only [Config.poolSize, levelConfig, max_self]
    exact_mod_cast hn
  have hjudge := judge_origin (n := n) (by omega) (levelConfig.rImu *ᵥ ![0, 0, 0])
  have hpub : levelConfig.publish = true := rfl
  have hnow : (originDelivery (n + 1)).now = ⟨1, 0⟩ := rfl
  simp [step, init, Node.onCloud, hpts, Node.compute, hfull, hjudge, hpub, hnow]

theorem floorFrame_origin :
    ∃ w, Run (step (.real scipyQuat) levelConfig) init [originDelivery 2500] w ∧
      w.outputs.flatten.countP Effect.isTransform = 1 ∧
      OneFrame levelConfig (fun pre e tf => ∃ pool n d,
        Fits (.real scipyQuat) levelConfig pre e pool ∧
          Trusted levelConfig (pool.map (levelConfig.rImu *ᵥ ·)) e.fit n d tf)
        [originDelivery 2500] w.outputs ∧
      FreshAfterRejection (.real scipyQuat) levelConfig [originDelivery 2500] := by
  have hrun := Run.snoc Run.nil (step_origin (n := 2499) le_rfl)
  have hquat : Faithful scipyQuat := fun m hm => ofQuaternion_toQuaternion hm
  obtain ⟨-, hframe, hfresh⟩ := floorFrame hquat rfl hrun
  refine ⟨_, hrun, ?_, hframe, hfresh⟩
  simp [List.countP_cons, Effect.isTransform]

end World

end GravityOverride
