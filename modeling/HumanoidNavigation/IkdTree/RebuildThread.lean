import HumanoidNavigation.IkdTree.Map
import HumanoidNavigation.Transition.RingBuffer

/-!
# The rebuild thread

`multi_thread_rebuild` flattens the subtree that `Rebuild_Ptr` points at, builds a new one of its
points, runs on it the operations that the main thread has logged in the meantime, and puts it in
the place of the old one. Whatever the order of the steps of the two threads, the points of the
subtree are those that the main thread's operations make of them, `rebuild_invisible`, and the new
subtree may stand in the place of the old one, `swap_of_run`.

`rebuild_flag` is cleared after the lock is given back. An operation that comes in between is logged
for the next rebuild, which runs it once more, `late_addPoint_twice`. Here that is a rebuild of the
same subtree; one of another subtree would run the operation there.

The log is a ring of a million operations, `rebuildLogger_of_run`.
-/

namespace IkdTree

open Transition

attribute [local instance] neZero_three

variable {P K : Type*}

/-- `Operation_Logger_Type`, without the operations that nothing calls. -/
inductive Operation (P K : Type*) where
  | addPoint (point : P)
  | deleteBox (boxpoint : BoxPointType K)
  | downsampleDelete (boxpoint : BoxPointType K)
  | pushDown (treeDeleted treeDownsampleDeleted : Bool)

/-- A search of the main thread that goes into the subtree. -/
inductive Look (P K : Type*) where
  | searchByRange (boxpoint : BoxPointType K)
  | search (kNearest : ℕ) (point : P) (maxDistSqr : WithTop K) (q : ManualHeap P K)

/-- What an operation does to the points. -/
def Operation.act [PointType P K] [LinearOrder K] : Operation P K → Multiset P → Multiset P
  | .addPoint point, points => point ::ₘ points
  | .deleteBox boxpoint, points => points.filter (boxpoint.contains · = false)
  | .downsampleDelete boxpoint, points => points.filter (boxpoint.contains · = false)
  | .pushDown treeDeleted _, points => if treeDeleted then 0 else points

/-- A mark that is pushed down is the one of a deleted node. -/
def Operation.Marks : Operation P K → Prop
  | .pushDown treeDeleted _ => treeDeleted = true
  | _ => True

namespace KdTree

variable [PointType P K]

/-- `(*root)->division_axis`, which needs a root. -/
def divisionAxis : KdTree P K → Option (Fin 3)
  | null => none
  | node root _ _ => some root.divisionAxis

variable [Field K] [LinearOrder K]

/-- An operation of the main thread on the son that `Rebuild_Ptr` points at. -/
def operate (c : KdParams P K) (fatherAxis : Fin 3) (son : KdTree P K) : Operation P K → KdTree P K
  | .addPoint point => (son.addByPoint c (fun _ => false) false point fatherAxis).1
  | .deleteBox boxpoint => (son.deleteByRange c (fun _ => false) boxpoint false false).2.1
  | .downsampleDelete boxpoint => (son.deleteByRange c (fun _ => false) boxpoint false true).2.1
  | .pushDown treeDeleted treeDownsampleDeleted => son.receive treeDeleted treeDownsampleDeleted

/-- `run_operation`, which needs a root for a point and for a mark. -/
def runOperation (c : KdParams P K) (root : KdTree P K) : Operation P K → Option (KdTree P K)
  | .addPoint point => root.divisionAxis.map fun axis =>
      (root.addByPoint c (fun _ => false) false point axis).1
  | .deleteBox boxpoint => some (root.deleteByRange c (fun _ => false) boxpoint false false).2.1
  | .downsampleDelete boxpoint =>
    some (root.deleteByRange c (fun _ => false) boxpoint false true).2.1
  | .pushDown treeDeleted treeDownsampleDeleted => root.divisionAxis.map fun _ =>
      root.receive treeDeleted treeDownsampleDeleted

def look (root : KdTree P K) : Look P K → KdTree P K
  | .searchByRange boxpoint => (root.searchByRange boxpoint).1
  | .search kNearest point maxDistSqr q => (root.search kNearest point maxDistSqr q).1

end KdTree

/-- `multi_thread_rebuild` and the main thread at the subtree that `Rebuild_Ptr` points at, under a
father that divides along `fatherAxis`. From a subtree without points the thread builds none, which
it then reads from. -/
def multiThreadRebuild [PointType P K] [Field K] [LinearOrder K] (c : KdParams P K)
    (fatherAxis : Fin 3) : Shadow.Object (KdTree P K) (List P) (Operation P K) (Look P K) where
  wanted root := decide (root.treeSize ≥ 1500)
  copy root := (root.flatten.1, root.flatten.2.1)
  build storage := if storage.isEmpty then none else some (.buildTree c.nthElement storage)
  operate operation son := some (son.operate c fatherAxis operation)
  replay operation root := root.runOperation c operation
  look call root := root.look call

/-! ### What the operations do -/

namespace KdTree

variable [PointType P K] [Field K] [LinearOrder K] {c : KdParams P K} {t : KdTree P K}
  {ptr : RebuildPtr} {box : BoxPointType K} {isDownsample : Bool}

@[simp] lemma checkRebuild_false (t : KdTree P K) : t.checkRebuild c false = (t, []) := by
  simp [checkRebuild]

lemma isNull_buildTree (nth : NthElement P) {storage : List P} (h : storage ≠ []) :
    (buildTree nth storage : KdTree P K).isNull = false := by
  cases storage with
  | nil => exact absurd rfl h
  | cons p ps =>
    obtain ⟨axis, left, right, q, -, -, -, heq⟩ := buildTree_cons (K := K) nth p ps
    rw [heq]
    rfl

lemma isNull_addByPoint (point : P) (axis : Fin 3) :
    (t.addByPoint c ptr false point axis).1.isNull = false := by
  cases t with
  | null =>
    rw [addByPoint_null]
    rfl
  | node d l r =>
    rw [addByPoint]
    simp only [checkRebuild_false]
    split_ifs <;> rfl

lemma isNull_deleteByRange :
    (t.deleteByRange c ptr box false isDownsample).2.1.isNull = t.isNull := by
  cases t with
  | null => rw [deleteByRange]
  | node d l r =>
    rw [deleteByRange]
    simp only [checkRebuild_false]
    split_ifs <;> rfl

lemma hasSon_addByPoint (point : P) (axis : Fin 3) (h : t.isNull = false) :
    (t.addByPoint c ptr false point axis).1.HasSon := by
  cases t with
  | null => simp at h
  | node d l r =>
    rw [addByPoint]
    simp only [checkRebuild_false, Bool.false_and]
    split_ifs
    · exact fun hnull => by simp [isNull_addByPoint] at hnull
    · exact fun hnull => by simp [isNull_addByPoint] at hnull

lemma hasSon_deleteByRange (h : t.HasSon) :
    (t.deleteByRange c ptr box false isDownsample).2.1.HasSon := by
  cases t with
  | null => exact h.elim
  | node d l r =>
    rw [deleteByRange]
    simp only [checkRebuild_false, Bool.false_and]
    split_ifs
    · exact h
    · simpa [HasSon] using h
    · simpa [HasSon] using h
    · exact fun hnull => h (by simpa [isNull_deleteByRange] using hnull)
    · exact fun hnull => h (by simpa [isNull_deleteByRange] using hnull)

omit [PointType P K] [Field K] [LinearOrder K] in
lemma hasSon_receive {td tds : Bool} (h : t.HasSon) : (t.receive td tds).HasSon := by
  cases t with
  | null => exact h.elim
  | node d l r => exact h

end KdTree

variable [PointType P K] [Field K] [LinearOrder K] {c : KdParams P K} {fatherAxis : Fin 3}
  {operation : Operation P K} {t t' new root : KdTree P K}

/-- What is true of the subtree and of the one that the thread builds. -/
def Standing (t : KdTree P K) : Prop := t.WellFormed ∧ t.isNull = false

omit [PointType P K] [Field K] [LinearOrder K] in
lemma KdTree.isNull_receive (td tds : Bool) : (t.receive td tds).isNull = t.isNull := by
  cases t <;> rfl

omit [Field K] in
/-- A mark that is pushed down. -/
lemma Standing.receive (h : Standing t) (tds : Bool) :
    Standing (t.receive true tds) ∧ (t.receive true tds).points = 0 := by
  obtain ⟨hw, hlive, -⟩ := h.1.receive_true tds
  exact ⟨⟨hw, by rw [KdTree.isNull_receive, h.2]⟩, by rw [KdTree.points, hlive, Multiset.coe_nil]⟩

omit [Field K] in
/-- What the main thread pushes down to a subtree with a son is the mark of a deleted node. -/
lemma marks_pushDown {d : KdTreeNode P K} {l r : KdTree P K} (h : (KdTree.node d l r).WellFormed) :
    (d.needPushDownToLeft = true → l.HasSon →
        (Operation.pushDown d.treeDeleted d.treeDownsampleDeleted : Operation P K).Marks) ∧
      (d.needPushDownToRight = true → r.HasSon →
        (Operation.pushDown d.treeDeleted d.treeDownsampleDeleted : Operation P K).Marks) :=
  ⟨fun hneed hson => (h.1.needPushDownToLeft hneed).resolve_right hson.not_fresh,
    fun hneed hson => (h.1.needPushDownToRight hneed).resolve_right hson.not_fresh⟩

/-- The main thread does to the points what the operation says. -/
lemma Standing.operate (h : Standing t) (c : KdParams P K) (fatherAxis : Fin 3)
    (hmarks : operation.Marks) :
    Standing (t.operate c fatherAxis operation) ∧
      (t.operate c fatherAxis operation).points = operation.act t.points := by
  obtain ⟨hw, hnull⟩ := h
  cases operation with
  | addPoint point =>
    obtain ⟨hw', hpoints, -⟩ := hw.addByPoint c (fun _ => false) false point fatherAxis
    exact ⟨⟨hw', KdTree.isNull_addByPoint _ _⟩, hpoints⟩
  | deleteBox boxpoint =>
    obtain ⟨-, hw', hpoints, -⟩ := hw.deleteByRange c (fun _ => false) boxpoint false false
    exact ⟨⟨hw', KdTree.isNull_deleteByRange.trans hnull⟩, hpoints⟩
  | downsampleDelete boxpoint =>
    obtain ⟨-, hw', hpoints, -⟩ := hw.deleteByRange c (fun _ => false) boxpoint false true
    exact ⟨⟨hw', KdTree.isNull_deleteByRange.trans hnull⟩, hpoints⟩
  | pushDown td tds =>
    obtain rfl : td = true := hmarks
    exact Standing.receive ⟨hw, hnull⟩ tds

/-- `run_operation` does what the main thread has done, below another father. -/
lemma runOperation_eq (h : t.runOperation c operation = some t') :
    ∃ axis, t' = t.operate c axis operation := by
  cases operation with
  | addPoint point =>
    obtain ⟨axis, -, rfl⟩ := Option.map_eq_some_iff.mp h
    exact ⟨axis, rfl⟩
  | deleteBox boxpoint => exact ⟨0, (Option.some.inj h).symm⟩
  | downsampleDelete boxpoint => exact ⟨0, (Option.some.inj h).symm⟩
  | pushDown td tds =>
    obtain ⟨-, -, rfl⟩ := Option.map_eq_some_iff.mp h
    exact ⟨0, rfl⟩

lemma samePoints_look (h : t.WellFormed) (call : Look P K) : KdTree.SamePoints t (t.look call) := by
  cases call with
  | searchByRange boxpoint => exact (h.searchByRange boxpoint).1
  | search kNearest point maxDistSqr q => exact samePoints_search h

/-- A subtree that has a son goes on having one. -/
lemma hasSon_operate (hnull : t.isNull = false) (h : t.HasSon) :
    (t.operate c fatherAxis operation).HasSon := by
  cases operation with
  | addPoint point => exact KdTree.hasSon_addByPoint _ _ hnull
  | deleteBox boxpoint => exact KdTree.hasSon_deleteByRange h
  | downsampleDelete boxpoint => exact KdTree.hasSon_deleteByRange h
  | pushDown td tds => exact KdTree.hasSon_receive h

lemma lawful_multiThreadRebuild :
    Shadow.Lawful (multiThreadRebuild c fatherAxis) Standing Operation.Marks KdTree.points
      Operation.act where
  copy h := by
    obtain ⟨hsame, -⟩ := h.1.flatten
    exact ⟨⟨hsame.wellFormed, hsame.isNull.trans h.2⟩, hsame.points⟩
  build := by
    intro t new h hnew
    obtain ⟨-, hstore, -⟩ := h.1.flatten
    simp only [multiThreadRebuild, hstore, Option.ite_none_left_eq_some, Option.some.injEq] at hnew
    obtain ⟨hne, rfl⟩ := hnew
    obtain ⟨hw, hpoints, -⟩ := KdTree.buildTree_spec (K := K) c.nthElement t.live
    exact ⟨⟨hw, KdTree.isNull_buildTree _ (by simpa using hne)⟩, hpoints⟩
  operate h hmarks ho := by
    obtain rfl := Option.some.inj ho
    exact h.operate c fatherAxis hmarks
  replay h hmarks ho := by
    obtain ⟨axis, rfl⟩ := runOperation_eq ho
    exact h.operate c axis hmarks
  look {call t} h := by
    have hsame := samePoints_look h.1 call
    exact ⟨⟨hsame.wellFormed, hsame.isNull.trans h.2⟩, hsame.points⟩

lemma lasting_multiThreadRebuild :
    Shadow.Lasting (multiThreadRebuild c fatherAxis) Standing Operation.Marks KdTree.HasSon where
  wanted h hwanted := h.1.hasSon (lt_of_lt_of_le (by decide) (of_decide_eq_true hwanted))
  copy h hson := h.1.flatten.1.hasSon hson
  operate h _ ho hson := by
    obtain rfl := Option.some.inj ho
    exact hasSon_operate h.2 hson
  look {call t} h hson := (samePoints_look h.1 call).hasSon hson

/-! ### The way of a rebuild -/

/-- `run_operation` on a tree that has a root. -/
lemma exists_runOperation (hnull : t.isNull = false) (operation : Operation P K) :
    ∃ t', t.runOperation c operation = some t' := by
  cases t with
  | null => simp at hnull
  | node d l r => cases operation <;> exact ⟨_, rfl⟩

omit [PointType P K] [Field K] [LinearOrder K] in
lemma live_ne_nil (hmany : 1500 ≤ t.points.card) : t.live ≠ [] := by
  intro hnil
  simp [KdTree.points, hnil] at hmany

/-- A rebuild of a subtree with many points comes to where the new one is built. -/
lemma run_built (h : t.WellFormed) (hmany : 1500 ≤ t.points.card) (requested recording : Bool)
    (log : List (Operation P K)) :
    Run (Shadow.step (multiThreadRebuild c fatherAxis)) ⟨t, requested, recording, log, none, .idle⟩
      [.request, .start, .build]
      ⟨t.flatten.1, true, true, log, none, .built (.buildTree c.nthElement t.live) none⟩ := by
  obtain ⟨-, hstore, -⟩ := h.flatten
  have hsize : 1500 ≤ t.treeSize := hmany.trans (h.treeSize_eq ▸ Nat.le_add_left _ _)
  have hlive : t.live ≠ [] := live_ne_nil hmany
  simp only [run_cons_iff, run_nil_iff]
  refine ⟨⟨t, true, recording, log, none, .idle⟩, ?_,
    ⟨t.flatten.1, true, true, log, none, .copied t.live⟩, ?_, _, ?_, rfl⟩
  · simp [Shadow.step, multiThreadRebuild, hsize]
  · simp [Shadow.step, multiThreadRebuild, hstore]
  · simp [Shadow.step, multiThreadRebuild, hlive]

/-- The rebuild ends with the one operation that is in the log. -/
lemma run_replaced (hnew : new.isNull = false) (operation : Operation P K) :
    ∃ new', new.runOperation c operation = some new' ∧
      Run (Shadow.step (multiThreadRebuild c fatherAxis))
        ⟨t, true, true, [operation], none, .built new none⟩ [.pop, .replay, .replace]
        ⟨new', false, true, [], none, .replaced⟩ := by
  obtain ⟨new', hnew'⟩ := exists_runOperation (c := c) hnew operation
  refine ⟨new', hnew', ?_⟩
  simp only [run_cons_iff, run_nil_iff]
  refine ⟨⟨t, true, true, [], none, .built new (some operation)⟩, rfl,
    ⟨t, true, true, [], none, .built new' none⟩, ?_, _, rfl, rfl⟩
  simp [Shadow.step, multiThreadRebuild, hnew']

/-! ### Whole runs -/

/-- Many points in one place. -/
def crowd : KdTree (Fin 3 → ℚ) ℚ := .buildTree NthElement.sort (List.replicate 1500 0)

lemma standing_crowd : Standing crowd ∧ crowd.points.card = 1500 := by
  obtain ⟨hw, hpoints, -⟩ := KdTree.buildTree_spec (K := ℚ) (P := Fin 3 → ℚ) NthElement.sort
    (List.replicate 1500 0)
  have hcard : crowd.points.card = 1500 := by
    rw [crowd, hpoints, Multiset.coe_card, List.length_replicate]
  exact ⟨⟨hw, KdTree.isNull_buildTree _ (List.ne_nil_of_length_eq_add_one
    List.length_replicate)⟩, hcard⟩

variable {es : List (Shadow.Event (Operation P K) (Look P K))}
  {s s' u : Shadow.State (KdTree P K) (List P) (Operation P K)}

/-- Whatever the order of the steps of the two threads, the points of the subtree are those that the
main thread's operations make of them, the one that waits for the lock still to come. -/
theorem rebuild_invisible (ht : t.WellFormed) (hnull : t.isNull = false)
    (hrun : Run (Shadow.step (multiThreadRebuild c fatherAxis)) (.init t) es s)
    (hmarks : ∀ o ∈ Shadow.operations es, o.Marks)
    (htimely : Always (Shadow.step (multiThreadRebuild c fatherAxis)) (.init t) Shadow.Timely es) :
    s.object.WellFormed ∧ Shadow.after Operation.act s.waiting.toList s.object.points =
      Shadow.after Operation.act (Shadow.operations es) t.points := by
  obtain ⟨hinv, hview⟩ :=
    Shadow.invisible lawful_multiThreadRebuild ⟨ht, hnull⟩ hrun hmarks htimely
  exact ⟨hinv.object.1, hview⟩

/-- A point is added and the subtree is rebuilt. -/
theorem rebuild_invisible_crowd : ∃ s,
    Run (Shadow.step (multiThreadRebuild KdParams.node 0)) (.init crowd)
      [.operate (.addPoint 0), .request, .start, .build, .replace] s ∧
    s.object.WellFormed ∧ s.object.points = 0 ::ₘ crowd.points := by
  obtain ⟨⟨hw, hnull⟩, hcard⟩ := standing_crowd
  have hmarks : (Operation.addPoint 0 : Operation (Fin 3 → ℚ) ℚ).Marks := trivial
  obtain ⟨⟨hw', -⟩, hpoints⟩ := standing_crowd.1.operate KdParams.node 0 hmarks
  have hmany : 1500 ≤ (crowd.operate KdParams.node 0 (.addPoint 0)).points.card := by
    rw [hpoints, Operation.act, Multiset.card_cons, hcard]
    decide
  have hrun : Run (Shadow.step (multiThreadRebuild KdParams.node 0)) (.init crowd)
      [.operate (.addPoint 0), .request, .start, .build, .replace] _ :=
    run_cons_iff.mpr ⟨_, rfl, run_append_iff.mpr ⟨_, run_built hw' hmany false false [],
      run_cons_iff.mpr ⟨_, rfl, .nil⟩⟩⟩
  exact ⟨_, hrun, rebuild_invisible hw hnull hrun (by simp [Shadow.operations, Operation.Marks])
    (Shadow.timely_of_ne_locked (by simp))⟩

/-- When a run has come to where the new subtree is put in, the whole tree keeps its points and
stays well-formed. -/
theorem swap_of_run {path : List Side} {working : WorkingFlags} (hroot : root.WellFormed)
    (hsub : root.subtree path = s.object) (hsafe : root.swapSafe working false path = true)
    (ht : t.WellFormed) (hnull : t.isNull = false)
    (hrun : Run (Shadow.step (multiThreadRebuild c fatherAxis)) (.init t) es s)
    (hmarks : ∀ o ∈ Shadow.operations es, o.Marks)
    (htimely : Always (Shadow.step (multiThreadRebuild c fatherAxis)) (.init t) Shadow.Timely es)
    (hphase : s.phase = .built new none) (hlog : s.log = []) :
    KdTree.Replaces root (KdTree.swap new working false path root).1 := by
  obtain ⟨hinv, -⟩ := Shadow.invisible lawful_multiThreadRebuild ⟨ht, hnull⟩ hrun hmarks htimely
  obtain ⟨⟨hw, hnew⟩, hpoints⟩ := hinv.replacement hphase hlog
  have hrequested : s.requested = true := by
    have hbuilt := hinv.phase
    rw [hphase] at hbuilt
    exact hbuilt.2.1
  have hson : s.object.HasSon := Shadow.requested_of_run lawful_multiThreadRebuild
    lasting_multiThreadRebuild ⟨ht, hnull⟩ hrun hmarks htimely hrequested
  refine hroot.swap (by rw [hsub, hinv.object.2]) hsafe ?_
  rw [hsub]
  exact ⟨hw, hnew.trans hinv.object.2.symm, hpoints, fun hf => absurd hf hson.not_fresh⟩

/-- The subtree is the left son of a node. -/
theorem swap_of_run_crowd :
    let root := KdTree.update (.init 0 0) crowd.flatten.1 .null
    KdTree.Replaces root (KdTree.swap (.buildTree NthElement.sort crowd.live) (fun _ => false) false
      [.left] root).1 := by
  obtain ⟨⟨hw, hnull⟩, hcard⟩ := standing_crowd
  have hrun : Run (Shadow.step (multiThreadRebuild KdParams.node 0)) (.init crowd)
      [.request, .start, .build] _ := run_built hw hcard.ge false false []
  exact swap_of_run (KdTree.wellFormed_update hw.flatten.1.wellFormed trivial
      (by simp [KdTreeNode.init]) (by simp [KdTreeNode.init]) (by simp [KdTreeNode.init]))
    rfl rfl hw hnull hrun (by simp [Shadow.operations]) (Shadow.timely_of_ne_locked (by simp))
    rfl rfl

/-- A box that has none of these points in it. -/
def besideCrowd : BoxPointType ℚ := ⟨1, 2⟩

lemma filter_besideCrowd :
    (1 ::ₘ crowd.points).filter (besideCrowd.contains · = false) = crowd.points := by
  obtain ⟨-, hcrowd, -⟩ := KdTree.buildTree_spec (K := ℚ) (P := Fin 3 → ℚ) NthElement.sort
    (List.replicate 1500 0)
  have hin : ¬besideCrowd.contains (1 : Fin 3 → ℚ) = false := by decide +kernel
  have hout : besideCrowd.contains (0 : Fin 3 → ℚ) = false := by decide +kernel
  rw [Multiset.filter_cons_of_neg (p := fun p => besideCrowd.contains p = false) _ hin]
  refine Multiset.filter_eq_self.mpr fun p hp => ?_
  rw [crowd, hcrowd, Multiset.mem_coe] at hp
  rw [List.eq_of_mem_replicate hp, hout]

/-- `Q_LEN`. -/
def qLen : ℕ := 1000000

/-- As long as at most `Q_LEN` operations wait, the thread gets the oldest one from `MANUAL_Q`.
Otherwise it gets the last one that has overwritten it. -/
theorem rebuildLogger_of_run {logger r : RingBuffer (Operation P K)}
    (hrun : Run (Shadow.stepLogged qLen (multiThreadRebuild c fatherAxis))
      (.init t, logger.clear) es (s, r)) :
    r.counter = s.log.length ∧ (r.isEmpty = true ↔ s.log = []) ∧
      (s.log ≠ [] → s.log[qLen * ((s.log.length - 1) / qLen)]? = some r.front) ∧
      (s.log ≠ [] → s.log.length ≤ qLen → s.log.head? = some r.front) := by
  have h : r.Holds qLen s.log := Shadow.holds_of_run (by decide) hrun
  refine ⟨h.counter, h.isEmpty, h.front, fun hlog hlen => ?_⟩
  obtain ⟨o, log, hcons⟩ := List.exists_cons_of_ne_nil hlog
  rw [hcons] at h hlen ⊢
  rw [List.head?_cons, h.front_eq hlen]

/-- A point is added while the new subtree is built. -/
theorem rebuildLogger_of_run_crowd : ∃ s r,
    Run (Shadow.stepLogged qLen (multiThreadRebuild KdParams.node 0))
      (.init crowd, (RingBuffer.mk 5 7 3 false fun _ => .addPoint 1).clear)
      [.request, .start, .build, .await (.addPoint 0), .locked] (s, r) ∧
    r.counter = 1 ∧ r.isEmpty = false ∧ r.front = .addPoint 0 := by
  obtain ⟨⟨hw, -⟩, hcard⟩ := standing_crowd
  have hrun : Run (Shadow.step (multiThreadRebuild KdParams.node 0)) (.init crowd)
      [.request, .start, .build, .await (.addPoint 0), .locked] _ :=
    run_append_iff.mpr ⟨_, run_built hw hcard.ge false false [],
      run_cons_iff.mpr ⟨_, rfl, run_cons_iff.mpr ⟨_, rfl, .nil⟩⟩⟩
  obtain ⟨r, hr⟩ := Shadow.exists_stepLogged_run qLen
    (RingBuffer.mk 5 7 3 false fun _ => .addPoint 1).clear hrun
  obtain ⟨hcounter, hempty, -, hfront⟩ := rebuildLogger_of_run hr
  refine ⟨_, r, hr, hcounter, ?_, ?_⟩
  · rw [← Bool.not_eq_true, hempty]
    exact List.cons_ne_nil _ _
  · exact (Option.some.inj (hfront (List.cons_ne_nil _ _) (by simp [qLen]))).symm

end IkdTree
