import HumanoidNavigation.Ros.Messages
import HumanoidNavigation.Rotation.Basic
import HumanoidNavigation.Transition.Run

/-!
# The floor alignment node

`GravityOverride` of `ransac_gravity_override.py` pools registered clouds until it has enough
points, fits the floor plane, and then publishes one static transform and relays the clouds into
its frame. Numbers are elements of an ordered field `K`. What RANSAC finds is part of the event,
as is the time of the clock.
-/

namespace GravityOverride

open Matrix Rotation

variable {K : Type} [Field K] [LinearOrder K]

abbrev Vec (K : Type) := Fin 3 → K

/-- What the node uses of `numpy` and `scipy`. -/
structure Lib (K : Type) where
  sqrt : K → K
  arccos : K → K
  pi : K
  /-- `Rotation.from_matrix(m).as_quat()` -/
  asQuat : Ros.Mat3 K → Ros.Quaternion K

/-! ### Reading a cloud -/

attribute [local instance] atLeastTwo_two

structure PointField where
  name : String
  offset : ℕ
  deriving DecidableEq

structure PointCloud2 where
  stamp : Ros.Stamp
  frameId : String
  height : ℕ
  width : ℕ
  fields : List PointField
  pointStep : ℕ
  data : List UInt8
  deriving DecidableEq

/-- The value of four little-endian bytes as an IEEE 754 number in 32 bits, if it is finite. -/
def float32 (bits : ℕ) : Option K :=
  let sign : K := if bits / 2 ^ 31 = 0 then 1 else -1
  let exponent : ℕ := bits / 2 ^ 23 % 2 ^ 8
  let fraction : ℕ := bits % 2 ^ 23
  if exponent = 255 then none
  else if exponent = 0 then some (sign * fraction / 2 ^ 149)
  else if exponent < 150 then some (sign * (2 ^ 23 + fraction) / 2 ^ (150 - exponent))
  else some (sign * (2 ^ 23 + fraction) * 2 ^ (exponent - 150))

/-- `np.frombuffer(.., dtype=np.float32)`, which refuses a length that is not a multiple of 4. -/
def frombuffer : List UInt8 → Option (List (Option K))
  | [] => some []
  | b₀ :: b₁ :: b₂ :: b₃ :: bytes =>
    let bits := b₀.toNat + 2 ^ 8 * b₁.toNat + 2 ^ 16 * b₂.toNat + 2 ^ 24 * b₃.toNat
    (frombuffer bytes).map (float32 bits :: ·)
  | _ => none

/-- Assigning an array to a column of `n` rows: an array of one element is broadcast. -/
def broadcast {α : Type} (n : ℕ) (column : List α) : Option (List α) :=
  if column.length = n then some column
  else match column with
    | [x] => some (List.replicate n x)
    | _ => none

/-- One round of the loop over the axes. A name that occurs twice has its last offset. -/
def readAxis (msg : PointCloud2) (raw : List (List UInt8)) (ax : String) :
    Option (List (Option K)) := do
  let field ← msg.fields.reverse.find? (·.name = ax)
  let column ← frombuffer (raw.flatMap fun row => (row.drop field.offset).take 4)
  broadcast raw.length column

/-- `pc2_to_xyz`: the finite points of the message, or an exception. -/
def pc2ToXyz (msg : PointCloud2) : Option (List (Vec K)) := do
  let n := msg.width * msg.height
  if msg.data.length ≠ n * msg.pointStep then none
  let raw := (List.range n).map fun i => (msg.data.drop (i * msg.pointStep)).take msg.pointStep
  let x ← readAxis msg raw "x"
  let y ← readAxis msg raw "y"
  let z ← readAxis msg raw "z"
  return (x.zip (y.zip z)).filterMap fun (x, y, z) => do return ![← x, ← y, ← z]

/-! ### The floor -/

/-- `np.quantile(xs, p / q)`, which interpolates between the two nearest ranks. -/
def quantile (p q : ℕ) (xs : List K) : K :=
  let sorted := xs.mergeSort (· ≤ ·)
  let rank := p * (xs.length - 1)
  let lower := sorted.getD (rank / q) 0
  let upper := sorted.getD (rank / q + 1) lower
  lower + (upper - lower) * ((rank % q : ℕ) / q)

/-- The points that are not above the lower quartile of the heights. -/
def floorCandidates (pts : List (Vec K)) : List (Vec K) :=
  pts.filter fun p => p 2 ≤ quantile 1 4 (pts.map (· 2))

/-- What `segment_plane` returns: the plane `a x + b y + c z + d = 0` and the indices of its
inliers. -/
structure Segment (K : Type) where
  a : K
  b : K
  c : K
  d : K
  inliers : List ℕ
  deriving DecidableEq

structure Floor (K : Type) where
  normal : Vec K
  d : K
  inlierRatio : K

/-- The floor `[0, 0, 1]` that stands for no fit. -/
def Floor.fallback : Floor K := ⟨![0, 0, 1], 0, 0⟩

/-- The plane turned so that its normal does not point down. -/
def Segment.upward (fit : Segment K) : Vec K × K :=
  let n := ![fit.a, fit.b, fit.c]
  if n 2 < 0 then (-n, -fit.d) else (n, fit.d)

/-- `fit_floor_normal`, which divides by the length of the normal. -/
def fitFloorNormal (lib : Lib K) (pts : List (Vec K)) (fit : Segment K) : Option (Floor K) :=
  if pts.length < 200 then some .fallback
  else
    let cands := floorCandidates pts
    if cands.length < 200 then some .fallback
    else
      let (n, d) := fit.upward
      let nrm := lib.sqrt (n ⬝ᵥ n)
      if nrm = 0 then none
      else some ⟨fun i => n i / nrm, d / nrm, fit.inliers.length / cands.length⟩

/-- `rotation_to_align` -/
def rotationToAlign (lib : Lib K) (nFrom nTo : Vec K) : Ros.Mat3 K :=
  let v := nFrom ⨯₃ nTo
  let s := lib.sqrt (v ⬝ᵥ v)
  let c := nFrom ⬝ᵥ nTo
  if s < 1 / 10 ^ 9 then if 0 < c then 1 else diagonal ![1, -1, -1]
  else rodrigues v ((1 - c) / (s * s))

/-! ### The node -/

/-- The arguments of the node. A quaternion of length zero is refused by `Rotation.from_quat`. -/
structure Config (K : Type) [Field K] where
  imuQuat : Ros.Quaternion K
  imuQuat_ne : imuQuat.x * imuQuat.x + imuQuat.y * imuQuat.y + imuQuat.z * imuQuat.z
    + imuQuat.w * imuQuat.w ≠ 0
  minPoints : ℤ
  publish : Bool
  outputFrame : String
  maxCorrectionDeg : K
  minInlierRatio : K
  flipGravity : Bool

namespace Config

variable (cfg : Config K)

/-- `self._r_imu` -/
def rImu : Ros.Mat3 K :=
  let r := ofQuaternion cfg.imuQuat.x cfg.imuQuat.y cfg.imuQuat.z cfg.imuQuat.w
  if cfg.flipGravity then diagonal ![1, -1, -1] * r else r

/-- `self._min_points`, at least `MIN_POINTS`. -/
def poolSize : ℤ := max cfg.minPoints 2500

end Config

def maxScans : ℕ := 60

structure Node (K : Type) where
  scans : List (List (Vec K)) := []
  nSeen : ℕ := 0
  done : Bool := false
  active : Bool := false

inductive Effect (K : Type) where
  | sendTransform (tf : Ros.TransformStamped K)
  | publish (msg : PointCloud2)

/-- How the node ends: `sys.exit`, an exception, or `rclpy.shutdown`. -/
inductive Halt where
  | exit (code : ℕ)
  | exception
  | shutdown

/-- A cloud, what RANSAC finds if this cloud starts a fit, and the time. -/
structure Delivery (K : Type) where
  msg : PointCloud2
  fit : Segment K
  now : Ros.Stamp

/-- `residual_deg` -/
def residualDeg (lib : Lib K) (normal : Vec K) : K :=
  lib.arccos (min (max (normal 2) (-1)) 1) * 180 / lib.pi

/-- What `_compute` makes of the pooled cloud. -/
inductive Verdict (K : Type) where
  | starved
  | exception
  | rejected
  | accepted (floor : Floor K)

/-- The first half of `_compute`, on the points in the levelled frame. -/
def judge (lib : Lib K) (cfg : Config K) (worldPts : List (Vec K)) (fit : Segment K) : Verdict K :=
  let nCands := if 200 ≤ worldPts.length then
      worldPts.countP fun p => p 2 ≤ quantile 1 4 (worldPts.map (· 2))
    else 0
  if nCands < 200 then .starved
  else
    match fitFloorNormal lib worldPts fit with
    | none => .exception
    | some floor =>
      if floor.inlierRatio < cfg.minInlierRatio then .rejected
      else if cfg.maxCorrectionDeg < residualDeg lib floor.normal then .rejected
      else .accepted floor

/-- The transform that is sent for an accepted floor. -/
def floorTransform (lib : Lib K) (cfg : Config K) (floor : Floor K) (now : Ros.Stamp) :
    Ros.TransformStamped K where
  stamp := now
  frameId := "world"
  childFrameId := cfg.outputFrame
  transform.translation := ⟨0, 0, floor.d⟩
  transform.rotation := lib.asQuat (rotationToAlign lib floor.normal ![0, 0, 1] * cfg.rImu)

namespace Node

/-- `_compute` -/
def compute (lib : Lib K) (cfg : Config K) (n : Node K) (fit : Segment K) (now : Ros.Stamp) :
    Except Halt (Node K × List (Effect K)) :=
  let worldPts := n.scans.flatten.map (cfg.rImu *ᵥ ·)
  match judge lib cfg worldPts fit with
  | .starved => .error (.exit 2)
  | .exception => .error .exception
  | .rejected => .ok ({ n with scans := [], nSeen := 0, done := false }, [])
  | .accepted floor =>
    if !cfg.publish then .error .shutdown
    else .ok ({ n with scans := [], active := true },
      [.sendTransform (floorTransform lib cfg floor now)])

/-- The message with the output frame. -/
def relabel (cfg : Config K) (msg : PointCloud2) : PointCloud2 :=
  { msg with frameId := cfg.outputFrame }

/-- `_on_cloud` -/
def onCloud (lib : Lib K) (cfg : Config K) (n : Node K) (e : Delivery K) :
    Except Halt (Node K × List (Effect K)) :=
  if n.active then .ok (n, [.publish (relabel cfg e.msg)])
  else if n.done then .ok (n, [])
  else
    match pc2ToXyz e.msg with
    | none => .error .exception
    | some pts =>
      let n := { n with
        scans := if pts ≠ [] then n.scans ++ [pts] else n.scans
        nSeen := n.nSeen + 1 }
      if cfg.poolSize ≤ n.scans.flatten.length ∨ maxScans ≤ n.nSeen then do
        let (n, sent) ← compute lib cfg { n with done := true } e.fit e.now
        return (n, if n.active then sent ++ [.publish (relabel cfg e.msg)] else sent)
      else .ok (n, [])

end Node

/-- The node, and what it sent in each callback. -/
structure World (K : Type) where
  node : Except Halt (Node K)
  outputs : List (List (Effect K))

namespace World

def init : World K := ⟨.ok {}, []⟩

/-- A cloud is delivered to a node that has not ended. -/
def step (lib : Lib K) (cfg : Config K) (w : World K) (e : Delivery K) : Option (World K) :=
  match w.node with
  | .error _ => none
  | .ok n =>
    match n.onCloud lib cfg e with
    | .error halt => some ⟨.error halt, w.outputs ++ [[]]⟩
    | .ok (n, sent) => some ⟨.ok n, w.outputs ++ [sent]⟩

end World
end GravityOverride
