import SetScaler.Proofs.Bookie.Plan
import SetScaler.Words

/-!
# The scaling arithmetic in words

Each operation on words has a condition under which its result is the exact one, whatever becomes of others
(`Overflow.add_exact` and its like). The counts of a set's bookies meet these conditions, since none is above
the number of bookies and there are no more at risk than writable (`BookieStats.ofNodes_le`). So every
function of the scaling arithmetic comes to the exact value in words (`arithmetic_exact`).
-/

namespace SetScaler

theorem toInt_max (a b : Int32) : (max a b).toInt = max a.toInt b.toInt := by
  change (if a ≤ b then b else a).toInt = _
  simp only [Int32.le_iff_toInt_le]
  split <;> omega

theorem toInt_min (a b : Int32) : (min a b).toInt = min a.toInt b.toInt := by
  change (if a ≤ b then a else b).toInt = _
  simp only [Int32.le_iff_toInt_le]
  split <;> omega

theorem toNat_min (a b : UInt32) : (min a b).toNat = min a.toNat b.toNat := by
  change (if a ≤ b then a else b).toNat = _
  simp only [UInt32.le_iff_toNat_le]
  split <;> omega

theorem toInt_toInt32 {a : UInt32} (fits : a.toNat < 2147483648) : a.toInt32.toInt = a.toNat := by
  rw [← Int32.toInt_toBitVec, UInt32.toBitVec_toInt32]
  exact BitVec.toInt_eq_toNat_of_lt (by change 2 * a.toNat < 2 ^ 32; omega)

theorem toInt_saturatingSum (a b : Int32) : (saturatingSum a b).toInt = saturate (a.toInt + b.toInt) := by
  unfold saturatingSum
  refine Int32.toInt_ofInt_of_le ?_ ?_
  · unfold saturate countMin countMax
    omega
  · unfold saturate countMin countMax
    omega

namespace BookieStats

theorem ofNodes_le (nodes : List BookieNode) (high : Float) :
    (ofNodes nodes high).atRisk ≤ (ofNodes nodes high).writable ∧
      (ofNodes nodes high).writable ≤ nodes.length :=
  ⟨List.countP_mono_left fun _ _ risky => BookieNode.writable_of_atRisk risky, List.countP_le_length⟩

end BookieStats

/-- Whether so many bookies more can be counted. -/
def WordStats.Room (stats : WordStats) (more : Nat) : Prop :=
  stats.writable.toNat + more < UInt32.size ∧ stats.atRisk.toNat + more < UInt32.size ∧
    stats.readOnly.toNat + more < UInt32.size

namespace Overflow

variable (overflow : Overflow)

theorem keep_of_fits {α : Type} {fits : Bool} (exact : fits = true) (wrapped : α) :
    overflow.keep fits wrapped = some wrapped := by
  rw [keep, exact]
  rfl

theorem add_exact {a b : UInt32} (fits : a.toNat + b.toNat < UInt32.size) :
    ∃ sum, overflow.add a b = some sum ∧ sum.toNat = a.toNat + b.toNat := by
  refine ⟨_, overflow.keep_of_fits (decide_eq_true fits) _, ?_⟩
  rw [UInt32.toNat_add]
  exact Nat.mod_eq_of_lt fits

example : fails.add 4294967295 1 = none ∧ wraps.add 4294967295 1 = some 0 := by decide

theorem sub_exact {a b : UInt32} (fits : b.toNat ≤ a.toNat) :
    ∃ rest, overflow.sub a b = some rest ∧ rest.toNat = a.toNat - b.toNat := by
  have below := UInt32.le_iff_toNat_le.mpr fits
  exact ⟨_, overflow.keep_of_fits (decide_eq_true below) _, UInt32.toNat_sub_of_le _ _ below⟩

theorem neg_exact {a : Int32} (fits : -2147483648 < a.toInt) :
    ∃ negated, overflow.neg a = some negated ∧ negated.toInt = -a.toInt := by
  have apart : (a != Int32.minValue) = true := by
    rw [bne_iff_ne]
    rintro rfl
    revert fits
    decide
  refine ⟨_, overflow.keep_of_fits apart _, ?_⟩
  have high := a.toInt_lt
  rw [Int32.toInt_neg]
  exact Int.bmod_eq_of_le (by omega) (by omega)

theorem unsigned_exact {a : Int32} (fits : 0 ≤ a.toInt) :
    ∃ word, overflow.unsigned a = some word ∧ (word.toNat : Int) = a.toInt := by
  have positive : 0 ≤ a := Int32.le_iff_toInt_le.mpr fits
  refine ⟨_, overflow.keep_of_fits (decide_eq_true positive) _, ?_⟩
  rw [Int32.toNat_toUInt32_of_le positive]
  exact Int.toNat_of_nonneg fits

theorem signed_exact {a : UInt32} (fits : a.toNat < 2147483648) :
    ∃ word, overflow.signed a = some word ∧ word.toInt = a.toNat := by
  have below : a ≤ 2147483647 := UInt32.le_iff_toNat_le.mpr (Nat.le_of_lt_succ fits)
  exact ⟨_, overflow.keep_of_fits (decide_eq_true below) _, toInt_toInt32 fits⟩

theorem cut_exact (count : Nat) (fits : count < UInt32.size) :
    ∃ word, overflow.cut count = some word ∧ word.toNat = count :=
  ⟨_, overflow.keep_of_fits (decide_eq_true fits) _, UInt32.toNat_ofNat_of_lt' fits⟩

section Counting

variable (high : Float) {stats : WordStats}

theorem countNode_exact (node : BookieNode) (room : stats.Room 1) :
    ∃ after, overflow.countNode high stats node = some after ∧
      after.writable.toNat = stats.writable.toNat + (if node.writable then 1 else 0) ∧
      after.atRisk.toNat = stats.atRisk.toNat + (if node.atRisk high then 1 else 0) ∧
      after.readOnly.toNat = stats.readOnly.toNat + (if !node.writable then 1 else 0) := by
  obtain ⟨wide, risky, spare⟩ := room
  unfold countNode
  cases writable : node.writable with
  | true =>
      obtain ⟨more, added, counted⟩ := overflow.add_exact (a := stats.writable) (b := 1) wide
      cases risk : node.atRisk high with
      | true =>
          obtain ⟨worse, raised, counted'⟩ := overflow.add_exact (a := stats.atRisk) (b := 1) risky
          refine ⟨{ stats with writable := more, atRisk := worse }, ?_, counted, counted', rfl⟩
          simp [added, raised]
      | false => exact ⟨{ stats with writable := more }, by simp [added], counted, rfl, rfl⟩
  | false =>
      obtain ⟨more, added, counted⟩ := overflow.add_exact (a := stats.readOnly) (b := 1) spare
      have safe : node.atRisk high = false := by simp [BookieNode.atRisk, writable]
      exact ⟨{ stats with readOnly := more }, by simp [added], rfl, by simp [safe], counted⟩

theorem foldlM_countNode {nodes : List BookieNode} (room : stats.Room nodes.length) :
    ∃ after, nodes.foldlM (overflow.countNode high) stats = some after ∧
      after.writable.toNat = stats.writable.toNat + (nodes.countP fun node => node.writable) ∧
      after.atRisk.toNat = stats.atRisk.toNat + (nodes.countP fun node => node.atRisk high) ∧
      after.readOnly.toNat = stats.readOnly.toNat + (nodes.countP fun node => !node.writable) := by
  induction nodes generalizing stats with
  | nil => exact ⟨stats, rfl, rfl, rfl, rfl⟩
  | cons node rest ih =>
      obtain ⟨wide, risky, spare⟩ := room
      rw [List.length_cons] at wide risky spare
      have here : stats.Room 1 := ⟨by omega, by omega, by omega⟩
      obtain ⟨next, counted, writable, atRisk, readOnly⟩ := overflow.countNode_exact high node here
      have roomy : next.Room rest.length := by
        refine ⟨?_, ?_, ?_⟩
        · split at writable <;> omega
        · split at atRisk <;> omega
        · split at readOnly <;> omega
      obtain ⟨after, others, writable', atRisk', readOnly'⟩ := ih roomy
      refine ⟨after, ?_, ?_, ?_, ?_⟩
      · rw [List.foldlM_cons, counted]
        exact others
      · rw [writable', writable, List.countP_cons]
        omega
      · rw [atRisk', atRisk, List.countP_cons]
        omega
      · rw [readOnly', readOnly, List.countP_cons]
        omega

/-- The bookies of a set that has not more of them than a word holds. -/
theorem count_exact {nodes : List BookieNode} (few : nodes.length < UInt32.size) :
    ∃ words, overflow.count nodes high = some words ∧ words.toStats = .ofNodes nodes high := by
  have roomy : ({} : WordStats).Room nodes.length := by
    refine ⟨?_, ?_, ?_⟩ <;> simpa using few
  obtain ⟨words, counted, writable, atRisk, readOnly⟩ := overflow.foldlM_countNode high roomy
  refine ⟨words, counted, ?_⟩
  rw [WordStats.toStats, writable, atRisk, readOnly]
  simp [BookieStats.ofNodes]

end Counting

section Planning

variable {spec : BookieSpec} {words : WordStats} {floor : UInt32}

theorem floor_exact (spec : BookieSpec) :
    ∃ floor, overflow.unsigned (max spec.minWritableBookies 0) = some floor ∧ floor.toNat = spec.floor ∧
      floor.toNat < 2147483648 := by
  have high := spec.minWritableBookies.toInt_lt
  have positive : (max spec.minWritableBookies 0).toInt = max spec.minWritableBookies.toInt 0 := toInt_max _ 0
  obtain ⟨floor, taken, exact⟩ := overflow.unsigned_exact (a := max spec.minWritableBookies 0) (by omega)
  refine ⟨floor, taken, ?_, by omega⟩
  unfold BookieSpec.floor
  omega

/-- A step is at least one bookie. -/
theorem step_exact (stride : Int32) :
    ∃ step, overflow.unsigned (max stride 1) = some step ∧ step.toNat = (max stride.toInt 1).toNat ∧
      step.toNat < 2147483648 := by
  have high := stride.toInt_lt
  have positive : (max stride 1).toInt = max stride.toInt 1 := toInt_max _ 1
  obtain ⟨step, taken, exact⟩ := overflow.unsigned_exact (a := max stride 1) (by omega)
  exact ⟨step, taken, by omega, by omega⟩

theorem missing_exact (words : WordStats) (floor : UInt32) :
    ∃ missing, overflow.missing words floor = some missing ∧
      missing.toNat = floor.toNat - words.writable.toNat := by
  unfold missing
  simp only [UInt32.lt_iff_toNat_lt]
  split
  · exact overflow.sub_exact (by omega)
  · refine ⟨0, rfl, ?_⟩
    rw [UInt32.toNat_zero]
    omega

theorem shortage_exact (ordered : words.atRisk.toNat ≤ words.writable.toNat)
    (few : words.writable.toNat < 2147483648) (same : floor.toNat = spec.floor)
    (low : floor.toNat < 2147483648) :
    ∃ shortage, overflow.shortage spec words floor = some shortage ∧
      shortage.toNat = spec.shortage words.toStats := by
  obtain ⟨missing, lacking, missed⟩ := overflow.missing_exact words floor
  obtain ⟨rest, taken, left⟩ := overflow.sub_exact ordered
  obtain ⟨healthy, added, after⟩ :=
    overflow.add_exact (a := rest) (b := missing) (by simp only [UInt32.size]; omega)
  obtain ⟨step, stepped, far, short⟩ := overflow.step_exact spec.scaleUpBy
  obtain ⟨more, raised, sum⟩ :=
    overflow.add_exact (a := missing) (b := step) (by simp only [UInt32.size]; omega)
  unfold shortage
  simp only [Option.bind_eq_bind, Option.bind_some, lacking, taken, added, stepped, raised, UInt32.lt_iff_toNat_lt,
    UInt32.toNat_zero]
  unfold BookieSpec.shortage
  simp only [WordStats.toStats, ← same]
  by_cases risk : 0 < words.atRisk.toNat
  · rw [if_pos risk]
    by_cases weak : healthy.toNat < floor.toNat
    · refine ⟨more, if_pos weak, ?_⟩
      rw [if_pos ⟨risk, by omega⟩]
      omega
    · refine ⟨missing, if_neg weak, ?_⟩
      rw [if_neg (by omega)]
      omega
  · refine ⟨missing, if_neg risk, ?_⟩
    rw [if_neg (by omega)]
    omega

theorem plan_exact (spec : BookieSpec) (nodes : List BookieNode)
    (ordered : words.atRisk.toNat ≤ words.writable.toNat) (few : words.writable.toNat < 2147483648) :
    overflow.plan spec words nodes = some (spec.plan words.toStats nodes) := by
  obtain ⟨floor, floored, same, low⟩ := overflow.floor_exact spec
  obtain ⟨shortage, lacking, short⟩ := overflow.shortage_exact ordered few same low
  obtain ⟨step, stepped, far, -⟩ := overflow.step_exact spec.scaleDownBy
  unfold plan
  simp only [Option.bind_eq_bind, Option.bind_some, floored, lacking, stepped, UInt32.lt_iff_toNat_lt,
    UInt32.toNat_zero]
  unfold BookieSpec.plan
  simp only [← short, gt_iff_lt]
  by_cases lacks : 0 < shortage.toNat
  · rw [if_pos lacks, if_pos lacks]
    rfl
  · rw [if_neg lacks, if_neg lacks]
    by_cases spare : floor.toNat < words.writable.toNat
    · obtain ⟨rest, taken, left⟩ := overflow.sub_exact (Nat.le_of_lt spare)
      have size : (min step rest).toNat =
          min (max spec.scaleDownBy.toInt 1).toNat (words.writable.toNat - spec.floor) := by
        rw [toNat_min, far, left, same]
      have more : spec.floor < words.toStats.writable := same ▸ spare
      simp only [taken, Option.bind_some, size, spare, more, true_and]
      split <;> rfl
    · have enough : ¬spec.floor < words.toStats.writable := same ▸ spare
      simp [spare, enough]

end Planning

section Changing

theorem delta_exact (direction : Direction) (magnitude : UInt32) :
    ∃ change, overflow.delta direction magnitude = some change ∧
      change.toInt = (Decision.mk direction magnitude.toNat).delta := by
  have stepped : (if magnitude ≤ 2147483647 then magnitude.toInt32 else Int32.maxValue).toInt =
      min (magnitude.toNat : Int) countMax.toNat := by
    change _ = min (magnitude.toNat : Int) 2147483647
    split
    · rename_i small
      have small := UInt32.le_iff_toNat_le.mp small
      change magnitude.toNat ≤ 2147483647 at small
      rw [toInt_toInt32 (by omega)]
      omega
    · rename_i great
      have great := mt UInt32.le_iff_toNat_le.mpr great
      change ¬magnitude.toNat ≤ 2147483647 at great
      change (2147483647 : Int) = _
      omega
  unfold delta Decision.delta
  dsimp only
  rw [← stepped]
  cases direction with
  | up => exact ⟨_, rfl, rfl⟩
  | down => exact overflow.neg_exact (by rw [stepped]; omega)
  | none => exact ⟨0, rfl, rfl⟩

theorem applied_exact (summary : WordSummary) (exact : Removal.Summary)
    (requested : summary.requested.toNat = exact.requested) (removed : summary.removed.toNat = exact.removed)
    (outcome : summary.outcome = exact.outcome) (few : exact.requested < 2147483648) :
    ∃ change, overflow.applied summary = some change ∧ change.toInt = exact.delta := by
  have least : (min summary.removed summary.requested).toNat = min exact.removed exact.requested := by
    rw [toNat_min, removed, requested]
  obtain ⟨positive, taken, same⟩ :=
    overflow.signed_exact (a := min summary.removed summary.requested) (by omega)
  obtain ⟨change, negated, opposite⟩ := overflow.neg_exact (a := positive) (by omega)
  rw [same, least] at opposite
  unfold applied Removal.Summary.delta
  rw [outcome]
  cases exact.outcome with
  | aborted reason => exact ⟨0, rfl, rfl⟩
  | complete | partially => exact ⟨change, by simp [taken, negated], opposite⟩

/-- A removal of not more candidates than a signed word holds. -/
theorem summary_exact {attempts : List Removal.Attempt} (few : attempts.length < 2147483648)
    (abandoned : Option Removal.Reason) :
    ∃ summary change, overflow.summary attempts abandoned = some summary ∧
      overflow.applied summary = some change ∧
      summary.requested.toNat = (Removal.Summary.ofAttempts attempts abandoned).requested ∧
      summary.removed.toNat = (Removal.Summary.ofAttempts attempts abandoned).removed ∧
      summary.outcome = (Removal.Summary.ofAttempts attempts abandoned).outcome ∧
      change.toInt = (Removal.Summary.ofAttempts attempts abandoned).delta := by
  have fewer : attempts.countP Removal.Attempt.isRemoved ≤ attempts.length := List.countP_le_length
  obtain ⟨requested, asked, all⟩ :=
    overflow.cut_exact attempts.length (by simp only [UInt32.size]; omega)
  obtain ⟨removed, gone, part⟩ :=
    overflow.cut_exact (attempts.countP Removal.Attempt.isRemoved) (by simp only [UInt32.size]; omega)
  have ended : (if abandoned.isSome ∧ removed = 0 then Removal.Outcome.aborted (abandoned.getD .blocked)
      else if removed = requested ∧ 0 < requested then .complete
      else if 0 < removed then .partially
      else .aborted (abandoned.getD .blocked)) = (Removal.Summary.ofAttempts attempts abandoned).outcome := by
    simp only [← UInt32.toNat_inj, UInt32.lt_iff_toNat_lt, UInt32.toNat_zero, all, part]
    change _ = if attempts.countP Removal.Attempt.isRemoved = 0 then _ else _
    split
    · rw [if_pos (by omega)]
    · split
      · rw [if_neg (by omega), if_pos (by omega)]
      · split
        · rw [if_neg (by omega), if_neg (by omega)]
        · rw [if_pos (by omega)]
  have summed : overflow.summary attempts abandoned =
      some ⟨requested, removed, (Removal.Summary.ofAttempts attempts abandoned).outcome⟩ := by
    rw [← ended]
    simp [summary, asked, gone]
  obtain ⟨change, applied, exact⟩ :=
    overflow.applied_exact ⟨requested, removed, _⟩ (.ofAttempts attempts abandoned) all part rfl few
  exact ⟨_, change, summed, applied, all, part, rfl, exact⟩

end Changing

end Overflow

theorem BookieSpec.toInt_clampWord (spec : BookieSpec) (count : Int32) :
    (spec.clampWord count).toInt = spec.clamp count.toInt := by
  rw [clampWord, toInt_max, toInt_min, clamp]

theorem BookieSpec.targetWord_exact (spec : BookieSpec) (current delta : Int32) :
    (spec.targetWord current delta).toInt = spec.target current.toInt delta.toInt := by
  unfold targetWord target
  dsimp only
  rw [← toInt_saturatingSum, ← toInt_clampWord]
  simp only [Int32.lt_iff_toInt_lt, Int32.toInt_zero]
  split
  · exact toInt_max _ _
  · split
    · rw [toInt_min, toInt_max]
    · rfl

theorem Overflow.brokerTarget_exact (overflow : Overflow) (spec : BrokerSpec) (current : Int32)
    (direction : Direction) (magnitude : UInt32) :
    ∃ target, overflow.brokerTarget spec current direction magnitude = some target ∧
      target.toInt = spec.target current.toInt ⟨direction, magnitude.toNat⟩ := by
  obtain ⟨change, changed, exact⟩ := overflow.delta_exact direction magnitude
  unfold brokerTarget
  simp only [changed, Option.bind_eq_bind, Option.bind_some]
  refine ⟨_, rfl, ?_⟩
  unfold BrokerSpec.target BrokerSpec.bounded
  dsimp only
  rw [← exact, ← toInt_saturatingSum]
  cases direction with
  | none => rfl
  | up | down =>
      cases spec.maxReplicas <;> simp [toInt_max, toInt_min]

/-- Whether an overflow fails or wraps around makes no difference to the scaling arithmetic: every function of
it comes to its exact value in words, for every spec and every count. -/
theorem arithmetic_exact (overflow : Overflow) {nodes : List BookieNode} (few : nodes.length < 2147483648)
    (high : Float) (spec : BookieSpec) (brokers : BrokerSpec) (current : Int32) :
    let stats := BookieStats.ofNodes nodes high
    (stats.atRisk ≤ stats.writable ∧ stats.writable ≤ nodes.length) ∧
    (∃ words, overflow.count nodes high = some words ∧ words.toStats = stats ∧
      overflow.plan spec words nodes = some (spec.plan stats nodes)) ∧
    (∀ (direction : Direction) (magnitude : UInt32), ∃ change target,
      overflow.delta direction magnitude = some change ∧
      change.toInt = (Decision.mk direction magnitude.toNat).delta ∧
      overflow.brokerTarget brokers current direction magnitude = some target ∧
      target.toInt = brokers.target current.toInt ⟨direction, magnitude.toNat⟩) ∧
    (∀ (attempts : List Removal.Attempt) (abandoned : Option Removal.Reason), attempts.length ≤ nodes.length →
      let exact := Removal.Summary.ofAttempts attempts abandoned
      ∃ summary change, overflow.summary attempts abandoned = some summary ∧
        overflow.applied summary = some change ∧
        summary.requested.toNat = exact.requested ∧ summary.removed.toNat = exact.removed ∧
        summary.outcome = exact.outcome ∧ change.toInt = exact.delta) ∧
    ∀ change : Int32,
      (spec.targetWord current change).toInt = spec.target current.toInt change.toInt ∧
      (0 < change.toInt → (spec.targetWord current change).toInt =
        max current.toInt (spec.clamp (saturate (current.toInt + change.toInt)))) := by
  intro stats
  have bounds : stats.atRisk ≤ stats.writable ∧ stats.writable ≤ nodes.length :=
    BookieStats.ofNodes_le nodes high
  refine ⟨bounds, ?_, ?_, ?_, ?_⟩
  · have held : nodes.length < UInt32.size := Nat.lt_trans few (by decide)
    obtain ⟨words, counted, same⟩ := overflow.count_exact high held
    have writable : words.writable.toNat = stats.writable := congrArg BookieStats.writable same
    have atRisk : words.atRisk.toNat = stats.atRisk := congrArg BookieStats.atRisk same
    have ordered : words.atRisk.toNat ≤ words.writable.toNat := by omega
    have planned := overflow.plan_exact spec nodes ordered (by omega)
    rw [same] at planned
    exact ⟨words, counted, same, planned⟩
  · intro direction magnitude
    obtain ⟨change, changed, exact⟩ := overflow.delta_exact direction magnitude
    obtain ⟨target, reached, same⟩ := overflow.brokerTarget_exact brokers current direction magnitude
    exact ⟨change, target, changed, exact, reached, same⟩
  · intro attempts abandoned within exact
    exact overflow.summary_exact (by omega) abandoned
  · intro change
    have exact := spec.targetWord_exact current change
    refine ⟨exact, fun grows => ?_⟩
    rw [exact, BookieSpec.target, if_pos grows]
    exact Int.max_comm _ _

/-- The only bookie is full, and as many as a signed word holds are to be kept: the plan is for more than such a
word holds, and the change and the count stop at its limit. -/
theorem arithmetic_exact_limits :
    let spec : BookieSpec :=
      { minWritableBookies := 2147483647, scaleUpBy := 2147483647, scaleUpMaxLimit := 2147483647 }
    let nodes : List BookieNode := [⟨"bk-0", "bk-0", true, [⟨10, 10⟩]⟩]
    (∃ words, Overflow.fails.count nodes 0.92 = some words ∧
      Overflow.fails.plan spec words nodes = some (.scaleUp 4294967293)) ∧
    (∃ change, Overflow.fails.delta .up 4294967293 = some change ∧ change.toInt = 2147483647) ∧
    (spec.targetWord 1 2147483647).toInt = 2147483647 := by
  intro spec nodes
  obtain ⟨-, ⟨words, counted, -, planned⟩, changes, -, targets⟩ :=
    arithmetic_exact .fails (show nodes.length < 2147483648 by decide) 0.92 spec {} 1
  obtain ⟨change, -, changed, exact, -⟩ := changes .up 4294967293
  have great : spec.plan (.ofNodes nodes 0.92) nodes = .scaleUp 4294967293 := by decide +kernel
  refine ⟨⟨words, counted, great ▸ planned⟩, ⟨change, changed, exact⟩, ?_⟩
  rw [(targets 2147483647).1]
  decide

end SetScaler
