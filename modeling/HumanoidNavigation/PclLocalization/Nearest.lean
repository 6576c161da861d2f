import HumanoidNavigation.Numeric.CppDouble
import HumanoidNavigation.PclLocalization.Node
import HumanoidNavigation.Search.Nearest

/-!
# The nearest odometry pose

`nearestTimedPose` looks through the odometry history from its end and stops early. The history is
sorted by its stamps, since `cacheAbsoluteOdomPose` clears it when the stamps go back, and on a
sorted history the early exit is sound: the result is that of an exhaustive search, in the
arithmetic of doubles.
-/

namespace PclLocalization

open Binary64 CppFloat Search Transition

variable {M : Type} {lib : Lib Binary64 M} {cfg : Config Binary64}
  {history : List (TimedPoseMatrix Binary64 M)} {q tolerance : Binary64}
  {entry back : TimedPoseMatrix Binary64 M}

/-- `lib` has the `std::isfinite` of the C++ library. -/
def FiniteTest (lib : Lib Binary64 M) : Prop := ∀ a, lib.isFinite a = true ↔ a.IsFinite

/-! ### The history -/

/-- Is the stamp of `b` not before that of `a`? -/
def InOrder (a b : TimedPoseMatrix Binary64 M) : Prop := lt b.stampSec a.stampSec = false

/-- The history of a node: at most `absolute_odom_history_size_` entries in the order of their
stamps, which are finite. -/
structure Chronicle (cfg : Config Binary64) (history : List (TimedPoseMatrix Binary64 M)) :
    Prop where
  sorted : history.Pairwise InOrder
  length_le : history.length ≤ cfg.absoluteOdomHistorySize
  finite : ∀ entry ∈ history, entry.stampSec.IsFinite

lemma Chronicle.nil : Chronicle (M := M) cfg [] := ⟨List.Pairwise.nil, Nat.zero_le _, by simp⟩

/-- Nothing in a sorted list is after its last entry. -/
lemma inOrder_getLast (hsorted : history.Pairwise InOrder)
    (hfinite : ∀ entry ∈ history, entry.stampSec.IsFinite) (hback : history.getLast? = some back)
    (hq : q.IsFinite) (hlt : lt q back.stampSec = false) (hentry : entry ∈ history) :
    lt q entry.stampSec = false := by
  obtain ⟨init, rfl⟩ := List.getLast?_eq_some_iff.mp hback
  rcases List.mem_append.mp hentry with hinit | hlast
  · have horder := (List.pairwise_append.mp hsorted).2.2 entry hinit back (by simp)
    exact not_lt_trans (hfinite entry hentry) (hfinite back (by simp)) hq horder hlt
  · rwa [List.mem_singleton.mp hlast]

/-- Appending an entry that is not before the last one, and dropping the oldest ones. -/
lemma Chronicle.push {size : ℕ} (hsorted : history.Pairwise InOrder)
    (hfinite : ∀ entry ∈ history, entry.stampSec.IsFinite)
    (hsize : cfg.absoluteOdomHistorySize = size)
    (hentry : entry.stampSec.IsFinite) (hlast : ∀ old ∈ history, InOrder old entry) :
    Chronicle cfg ((history ++ [entry]).drop ((history ++ [entry]).length - size)) := by
  refine ⟨List.Pairwise.drop ?_, ?_, fun e he => ?_⟩
  · rw [List.pairwise_append]
    refine ⟨hsorted, List.pairwise_singleton _ _, fun a ha b hb => ?_⟩
    rw [List.mem_singleton.mp hb]
    exact hlast a ha
  · rw [List.length_drop]
    omega
  · rcases List.mem_append.mp (List.mem_of_mem_drop he) with he | he
    · exact hfinite e he
    · rwa [List.mem_singleton.mp he]

lemma Chronicle.cache (hlib : FiniteTest lib) {s : Node Binary64 M}
    (h : Chronicle cfg s.absoluteOdomHistory) (stamp : Binary64) (pose : M) :
    Chronicle cfg (s.cacheAbsoluteOdomPose lib cfg stamp pose).absoluteOdomHistory := by
  simp only [Node.cacheAbsoluteOdomPose]
  split_ifs with hguard
  · exact h
  simp only [Bool.or_eq_true, Bool.not_eq_true', not_or, Bool.not_eq_false] at hguard
  have hstamp := (hlib stamp).mp hguard.1
  cases hback : s.absoluteOdomHistory.getLast? with
  | none => exact Chronicle.push List.Pairwise.nil (by simp) rfl hstamp (by simp)
  | some back =>
    simp only
    split_ifs with hregress
    · exact Chronicle.push List.Pairwise.nil (by simp) rfl hstamp (by simp)
    · refine Chronicle.push h.sorted h.finite rfl hstamp fun old hold => ?_
      exact inOrder_getLast h.sorted h.finite hback hstamp (eq_false_of_ne_true hregress) hold

/-- A call of `cacheAbsoluteOdomPose`. -/
noncomputable def cacheStep (lib : Lib Binary64 M) (cfg : Config Binary64) (s : Node Binary64 M)
    (call : Binary64 × M) : Option (Node Binary64 M) :=
  some (s.cacheAbsoluteOdomPose lib cfg call.1 call.2)

lemma chronicle_of_run (hlib : FiniteTest lib) {s : Node Binary64 M} {es : List (Binary64 × M)}
    (hrun : Run (cacheStep lib cfg) (Node.init lib) es s) :
    Chronicle cfg s.absoluteOdomHistory := by
  refine Run.invariant_state (I := fun s => Chronicle cfg s.absoluteOdomHistory) Chronicle.nil ?_
    hrun
  rintro s call t h ⟨⟩
  exact h.cache hlib call.1 call.2

/-! ### The search -/

/-- The difference of the stamps, as the code computes it. -/
noncomputable def difference (q : Binary64) (entry : TimedPoseMatrix Binary64 M) : WithTop ℝ :=
  (distance entry.stampSec q).extent

/-- Is the entry before the query? -/
noncomputable def isPast (q : Binary64) (entry : TimedPoseMatrix Binary64 M) : Bool :=
  lt entry.stampSec q

/-- What the loop keeps of the best entry so far. -/
noncomputable def withDistance (q : Binary64) (entry : TimedPoseMatrix Binary64 M) :
    TimedPoseMatrix Binary64 M × Binary64 :=
  (entry, distance entry.stampSec q)

/-- The loop with the best entry that it has after one more entry. -/
lemma nearestLoop_cons (hlib : FiniteTest lib) (hq : q.IsFinite) (hentry : entry.stampSec.IsFinite)
    {best : Option (TimedPoseMatrix Binary64 M)}
    (hbest : ∀ entry, best = some entry → entry.stampSec.IsFinite) :
    nearestLoop lib q (best.map (withDistance q)) (entry :: history) =
      if isPast q entry && decide (reach (difference q) (nearer (difference q) best entry) <
          difference q entry) then
        (nearer (difference q) best entry).map (withDistance q)
      else nearestLoop lib q ((nearer (difference q) best entry).map (withDistance q)) history := by
  have habove := distance_above hentry hq
  have hdelta : CppFloat.abs (entry.stampSec - q) = distance entry.stampSec q := rfl
  have hself : lt (distance entry.stampSec q) (distance entry.stampSec q) = false := by
    rw [← Bool.not_eq_true, lt_iff_extent habove habove]
    exact lt_irrefl _
  cases best with
  | none =>
    have hfin : lib.isFinite (distance entry.stampSec q) = true ↔ difference q entry < ⊤ :=
      (hlib _).trans (isFinite_iff_extent habove)
    by_cases hlt : difference q entry < ⊤
    · simp [nearestLoop, hdelta, hfin.mpr hlt, nearer, reach, hlt, withDistance, hself]
    · have hnot := eq_false_of_ne_true (hfin.not.mpr hlt)
      simp [nearestLoop, hdelta, hnot, nearer, reach, hlt]
  | some best =>
    have hbestAbove := distance_above (hbest best rfl) hq
    have hlt : lt (distance entry.stampSec q) (distance best.stampSec q) = true ↔
        difference q entry < difference q best := lt_iff_extent habove hbestAbove
    have hgt : lt (distance best.stampSec q) (distance entry.stampSec q) =
        decide (difference q best < difference q entry) := by
      rw [Bool.eq_iff_iff, decide_eq_true_eq]
      exact lt_iff_extent hbestAbove habove
    by_cases hnear : difference q entry < difference q best
    · simp [nearestLoop, hdelta, nearer, reach, hnear, withDistance, hlt.mpr hnear, hself]
    · have hnot := eq_false_of_ne_true (hlt.not.mpr hnear)
      simp [nearestLoop, hdelta, nearer, reach, hnear, withDistance, hnot, hgt, isPast]

/-- The loop is the scan that stops early. -/
lemma nearestLoop_eq_scan (hlib : FiniteTest lib) (hq : q.IsFinite)
    (hfinite : ∀ entry ∈ history, entry.stampSec.IsFinite)
    {best : Option (TimedPoseMatrix Binary64 M)}
    (hbest : ∀ entry, best = some entry → entry.stampSec.IsFinite) :
    nearestLoop lib q (best.map (withDistance q)) history =
      (scan (difference q) (isPast q) best history).map (withDistance q) := by
  induction history generalizing best with
  | nil => rfl
  | cons entry history ih =>
    have hentry := hfinite entry (by simp)
    rw [nearestLoop_cons hlib hq hentry hbest, scan]
    split_ifs with hstop
    · rfl
    · refine ih (fun e he => hfinite e (by simp [he])) fun e he => ?_
      rw [nearer] at he
      split_ifs at he
      · rwa [← Option.some.inj he]
      · exact hbest e he

/-- In a sorted history an entry in the past is not farther than those before it. -/
lemma Chronicle.past_le (h : Chronicle cfg history) (hq : q.IsFinite) :
    history.reverse.Pairwise fun x y => isPast q x = true → difference q x ≤ difference q y := by
  rw [List.pairwise_reverse]
  refine h.sorted.imp_of_mem fun {a b} ha hb hab hpast => ?_
  exact distance_anti (h.finite a ha) (h.finite b hb) hq hab hpast

/-- What the loop finds in a history. -/
lemma Chronicle.found (h : Chronicle cfg history) (hlib : FiniteTest lib) (hq : q.IsFinite) :
    ∃ found, nearestLoop lib q none history.reverse = found.map (withDistance q) ∧
      Found (difference q) history found := by
  have hfinite : ∀ e ∈ history.reverse, e.stampSec.IsFinite := fun e he =>
    h.finite e (List.mem_reverse.mp he)
  have hnone : ∀ e : TimedPoseMatrix Binary64 M, none = some e → e.stampSec.IsFinite := by simp
  have hfound : Found (difference q) (history.reverse.reverse ++ [])
      (scan (difference q) (isPast q) none history.reverse) :=
    Found.scan (h.past_le hq) (by simp [Found])
  rw [List.reverse_reverse, List.append_nil] at hfound
  exact ⟨_, nearestLoop_eq_scan hlib hq hfinite hnone, hfound⟩

lemma lt_zero_of_val {t : ℝ} (htolerance : tolerance.val = .fin t) (ht : 0 ≤ t) :
    lt tolerance (lit 0) = false := by
  have hzero : (lit 0 : Binary64).val = .fin 0 := by
    show (ofReal ((0 : ℚ) : ℝ)).val = .fin 0
    rw [Rat.cast_zero]
    exact ofReal_zero_val
  rw [cpp_lt, htolerance, hzero, ExtFloat.fin_lt_fin, decide_eq_false ht.not_gt]

/-- Every entry is infinitely far from an infinite query. -/
lemma difference_of_not_finite (hentry : entry.stampSec.IsFinite) (hq : q.val ≠ .nan)
    (hinf : ¬q.IsFinite) : difference q entry = ⊤ := by
  refine extent_posInf (distance_of_isInf hentry ?_)
  cases hval : q.val with
  | fin x => exact absurd ⟨x, hval⟩ hinf
  | posInf => exact Or.inl hval
  | negInf => exact Or.inr hval
  | nan => exact absurd hval hq

/-- The search on a history that is not empty. -/
lemma Chronicle.nearestTimedPose_eq (h : Chronicle cfg history) (hlib : FiniteTest lib)
    (hq : q.val ≠ .nan) {t : ℝ} (htolerance : tolerance.val = .fin t) (ht : 0 ≤ t)
    (hentry : LastNearest (difference q) history entry) :
    nearestTimedPose lib history q tolerance =
      if (t : WithTop ℝ) < difference q entry ∨ lib.allFinite entry.poseMatrix = false then none
      else some entry.poseMatrix := by
  have hnil : history ≠ [] := List.ne_nil_of_mem hentry.mem
  have hstamp := h.finite entry hentry.mem
  have htolFinite : tolerance.IsFinite := ⟨t, htolerance⟩
  by_cases hqFinite : q.IsFinite
  · obtain ⟨found, hloop, hfound⟩ := h.found hlib hqFinite
    simp only [nearestTimedPose, hnil, (hlib q).mpr hqFinite, (hlib tolerance).mpr htolFinite,
      lt_zero_of_val htolerance ht, hloop, decide_false, Bool.not_true, Bool.or_self,
      Bool.false_eq_true, if_false]
    cases found with
    | none =>
      have htop : difference q entry = ⊤ := hfound entry hentry.mem
      rw [if_pos (Or.inl (htop ▸ WithTop.coe_lt_top t))]
      rfl
    | some best =>
      obtain rfl := hfound.1.unique hentry
      have hfar : lt tolerance (distance best.stampSec q) = true ↔
          (t : WithTop ℝ) < difference q best := by
        rw [lt_iff_extent (Or.inr htolFinite) (distance_above hstamp hqFinite),
          extent_fin htolerance]
        rfl
      simp only [Option.map_some, withDistance, Bool.or_eq_true, hfar, Bool.not_eq_true']
  · have htop := difference_of_not_finite hstamp hq hqFinite
    have hguard : lib.isFinite q = false := eq_false_of_ne_true ((hlib q).not.mpr hqFinite)
    rw [if_pos (Or.inl (htop ▸ WithTop.coe_lt_top t))]
    simp only [nearestTimedPose, hguard, Bool.not_false, Bool.or_true, Bool.true_or, if_true]

/-- After any calls of `cacheAbsoluteOdomPose` the history is sorted and bounded, and
`nearestTimedPose` finds in it what an exhaustive search would choose, the newest entry with the
smallest difference of the stamps; it fails exactly when there is no such entry, or its difference
exceeds the tolerance or its pose is not finite. -/
theorem nearestTimedPose_search (hlib : FiniteTest lib) {s : Node Binary64 M}
    {calls : List (Binary64 × M)}
    (hrun : Run (cacheStep lib cfg) (Node.init lib) calls s) (hq : q.val ≠ .nan) {t : ℝ}
    (htolerance : tolerance.val = .fin t) (ht : 0 ≤ t) :
    s.absoluteOdomHistory.Pairwise InOrder ∧
      s.absoluteOdomHistory.length ≤ cfg.absoluteOdomHistorySize ∧
      (∀ pose, nearestTimedPose lib s.absoluteOdomHistory q tolerance = some pose ↔
        ∃ entry, LastNearest (difference q) s.absoluteOdomHistory entry ∧
          difference q entry ≤ t ∧ lib.allFinite entry.poseMatrix = true ∧
          entry.poseMatrix = pose) ∧
      (nearestTimedPose lib s.absoluteOdomHistory q tolerance = none ↔
        s.absoluteOdomHistory = [] ∨ ∃ entry,
          LastNearest (difference q) s.absoluteOdomHistory entry ∧
            ((t : WithTop ℝ) < difference q entry ∨ lib.allFinite entry.poseMatrix = false)) := by
  have hchronicle := chronicle_of_run hlib hrun
  refine ⟨hchronicle.sorted, hchronicle.length_le, ?_⟩
  by_cases hnil : s.absoluteOdomHistory = []
  · rw [hnil]
    have hnone : ∀ entry : TimedPoseMatrix Binary64 M, ¬LastNearest (difference q) [] entry :=
      fun entry hentry => by simpa using hentry.mem
    simp [nearestTimedPose, hnone]
  obtain ⟨entry, hentry⟩ := exists_lastNearest (d := difference q) hnil
  rw [hchronicle.nearestTimedPose_eq hlib hq htolerance ht hentry]
  simp only [hentry.exists_and_iff, hnil, false_or]
  split_ifs with hfail
  · refine ⟨fun pose => ?_, by simp [hfail]⟩
    rcases hfail with hfar | hpose
    · simp [hfar.not_ge]
    · simp [hpose]
  · rw [not_or, not_lt, Bool.not_eq_false] at hfail
    exact ⟨fun pose => by simp [hfail], by simp [hfail]⟩

/-! Poses are positions on an axis. The second call goes back in time; the query is as far from the
second entry as from the third. -/

open Classical in
/-- Eigen on an axis, in double precision. -/
noncomputable def Lib.onAxis : Lib Binary64 Binary64 where
  isFinite a := decide a.IsFinite
  toFloat a := a
  norm _ := ofReal 1
  normalized a := a
  slerp _ a _ := a
  identity := ofReal 0
  mul a b := a + b
  inverse a := -a
  allFinite a := decide a.IsFinite
  rotation _ := ⟨ofReal 0, ofReal 0, ofReal 0, ofReal 1⟩
  rotationDouble _ := ⟨ofReal 0, ofReal 0, ofReal 0, ofReal 1⟩
  translation a := ⟨a, ofReal 0, ofReal 0⟩
  rigid _ v := v.x
  fromMsg pose := pose.position.x
  mulInverse a b :=
    ⟨⟨a.translation.x - b.translation.x, ofReal 0, ofReal 0⟩,
      ⟨ofReal 0, ofReal 0, ofReal 0, ofReal 1⟩⟩

noncomputable def integer (n : ℤ) : Binary64 := ofReal n

noncomputable def entryAt (stamp x : ℤ) : TimedPoseMatrix Binary64 Binary64 :=
  ⟨integer stamp, integer x⟩

lemma integer_val {n : ℤ} (hn : |n| < 2 ^ 53) : (integer n).val = .fin (n : ℝ) :=
  ofReal_intCast_val hn

lemma lt_integer {m n : ℤ} (hm : |m| < 2 ^ 53) (hn : |n| < 2 ^ 53) :
    lt (integer m) (integer n) = decide (m < n) := by
  rw [cpp_lt, integer_val hm, integer_val hn, ExtFloat.fin_lt_fin]
  simp

noncomputable def calls : List (Binary64 × Binary64) :=
  [(integer 2, integer 5), (integer 1, integer 7), (integer 3, integer 8)]

lemma run_calls : ∃ s, Run (cacheStep .onAxis .parameters) (Node.init .onAxis) calls s ∧
    s.absoluteOdomHistory = [entryAt 1 7, entryAt 3 8] := by
  have hfin : ∀ n : ℤ, |n| < 2 ^ 53 → (Lib.onAxis).isFinite (integer n) = true := by
    intro n hn
    simp [Lib.onAxis, IsFinite, integer_val hn]
  have hall : ∀ n : ℤ, |n| < 2 ^ 53 → (Lib.onAxis).allFinite (integer n) = true := hfin
  have h₁ : Run (cacheStep .onAxis .parameters) (Node.init .onAxis) [(integer 2, integer 5)] _ :=
    Run.snoc Run.nil rfl
  have h₂ : Run (cacheStep .onAxis .parameters) (Node.init .onAxis)
      [(integer 2, integer 5), (integer 1, integer 7)] _ := h₁.snoc rfl
  refine ⟨_, h₂.snoc rfl, ?_⟩
  simp [Node.cacheAbsoluteOdomPose, Node.init, hfin, hall, lt_integer, Config.parameters, entryAt]

theorem nearestTimedPose_search_tie :
    ∃ s, Run (cacheStep .onAxis .parameters) (Node.init .onAxis) calls s ∧
      nearestTimedPose .onAxis s.absoluteOdomHistory (integer 2) (integer 1) =
        some (integer 8) := by
  obtain ⟨s, hrun, hhistory⟩ := run_calls
  have hlib : FiniteTest .onAxis := fun a => by simp [Lib.onAxis]
  have hquery := integer_val (n := 2) (by norm_num)
  have htolerance := integer_val (n := 1) (by norm_num)
  obtain ⟨-, -, hsome, -⟩ :=
    nearestTimedPose_search hlib hrun (by rw [hquery]; simp) htolerance (by norm_num)
  have hfirst : difference (integer 2) (entryAt 1 7) = (1 : ℝ) := by
    simpa [difference, entryAt, integer] using distance_intCast (m := 1) (n := 2)
  have hlast : difference (integer 2) (entryAt 3 8) = (1 : ℝ) := by
    simpa [difference, entryAt, integer] using distance_intCast (m := 3) (n := 2)
  refine ⟨s, hrun, (hsome _).mpr ⟨entryAt 3 8, ?_, ?_, ?_, rfl⟩⟩
  · exact ⟨[entryAt 1 7], [], hhistory, by simp [hfirst, hlast], by simp⟩
  · simp [hlast]
  · simp [Lib.onAxis, entryAt, IsFinite, integer_val]

end PclLocalization
