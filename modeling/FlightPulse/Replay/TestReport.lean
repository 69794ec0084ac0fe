import FlightPulse.Analytics.DataTests
import FlightPulse.Lib.Rounding

/-!
# The pass rate of the data tests (`replay/report.py`)

Read from the results that dbt leaves behind. A test that only warns has not passed.
-/

open Lib Lib.DataTest Lib.Python Lib.Postgres Lib.Rounding
open scoped List

namespace FlightPulse.Replay

open Analytics Ingestion Worker

/-! ## `run_results.json` -/

/-- What the report reads of an entry. -/
structure NodeResult where
  uniqueId : Option PyStr
  status : Option PyStr

structure RunResults where
  results : Option (List NodeResult)

structure TestPassRate where
  testsPassed : ℕ
  testsTotal : ℕ
  passRatePct : ℚ
  failingTests : List PyStr

def isTest (r : NodeResult) : Bool := (str "test.").isPrefixOf (r.uniqueId.getD [])

def hasPassed (r : NodeResult) : Bool := r.status = some (str "pass")

/-- `round(100 * passed / total, 1)`. -/
def passRate (passed total : ℕ) : ℚ := toDigits 1 (binary64 (100 * passed / total))

/-- Without the file, or without a test in it, there is nothing to report. -/
def fetchDbtTestPassRate : Option RunResults → Option TestPassRate
  | none => none
  | some runResults =>
    let testResults := (runResults.results.getD []).filter isTest
    if testResults = [] then none
    else some
      { testsPassed := testResults.countP hasPassed
        testsTotal := testResults.length
        passRatePct := passRate (testResults.countP hasPassed) testResults.length
        failingTests := (testResults.filter fun r => !hasPassed r).filterMap NodeResult.uniqueId }

/-! ## The results of the suite -/

def statusText : Status → PyStr
  | .pass => str "pass"
  | .warn => str "warn"
  | .fail => str "fail"

def suiteResults (uniqueId : TestId → PyStr) (status : TestId → Status) : List NodeResult :=
  TestId.all.map fun t => ⟨some (uniqueId t), some (statusText (status t))⟩

/-- The tests that are not reported as passed. -/
def notPassed (status : TestId → Status) : List TestId := TestId.all.filter fun t => status t ≠ .pass

section

variable {uniqueId : TestId → PyStr} {status : TestId → Status} {others results : List NodeResult}

theorem hasPassed_suite (t : TestId) :
    hasPassed ⟨some (uniqueId t), some (statusText (status t))⟩ = decide (status t = .pass) := by
  have htext : ∀ s : Status, decide (some (statusText s) = some (str "pass")) = decide (s = .pass) := by
    intro s
    cases s <;> decide
  exact htext (status t)

theorem countP_passed : (suiteResults uniqueId status).countP hasPassed + (notPassed status).length = 33 := by
  have hcount : (suiteResults uniqueId status).countP hasPassed = TestId.all.countP fun t => status t = .pass := by
    unfold suiteResults
    rw [List.countP_map]
    exact List.countP_congr fun t _ => by rw [Function.comp_apply, hasPassed_suite]
  have hrest : (notPassed status).length = TestId.all.countP fun t => ¬ decide (status t = .pass) = true := by
    unfold notPassed
    rw [← List.countP_eq_length_filter]
    exact List.countP_congr fun t _ => by simp
  rw [hcount, hrest, ← List.length_eq_countP_add_countP]
  rfl

theorem failing_suite : ((suiteResults uniqueId status).filter fun r => !hasPassed r).filterMap NodeResult.uniqueId =
    (notPassed status).map uniqueId := by
  unfold suiteResults notPassed
  rw [List.filter_map, List.filterMap_map]
  have hfilter : TestId.all.filter
      ((fun r => !hasPassed r) ∘ fun t => ⟨some (uniqueId t), some (statusText (status t))⟩) =
        TestId.all.filter fun t => status t ≠ .pass := by
    refine List.filter_congr fun t _ => ?_
    rw [Function.comp_apply, hasPassed_suite]
    simp
  rw [hfilter]
  exact congrFun List.filterMap_eq_map _

theorem fetch_suite (hids : ∀ t, str "test." <+: uniqueId t) (hothers : ∀ r ∈ others, isTest r = false)
    (hresults : results ~ others ++ suiteResults uniqueId status) :
    ∃ report, fetchDbtTestPassRate (some ⟨some results⟩) = some report ∧ report.testsTotal = 33 ∧
      report.testsPassed + (notPassed status).length = 33 ∧
      report.passRatePct = passRate report.testsPassed 33 ∧
      report.failingTests ~ (notPassed status).map uniqueId := by
  have htests : results.filter isTest ~ suiteResults uniqueId status := by
    refine (hresults.filter isTest).trans ?_
    rw [List.filter_append, List.filter_eq_nil_iff.mpr fun r hr => by simp [hothers r hr], List.nil_append,
      List.filter_eq_self.mpr]
    intro r hr
    obtain ⟨t, -, rfl⟩ := List.mem_map.mp hr
    exact List.isPrefixOf_iff_prefix.mpr (hids t)
  have hlength : (results.filter isTest).length = 33 := htests.length_eq
  have hne : results.filter isTest ≠ [] := by
    intro hnil
    rw [hnil] at hlength
    cases hlength
  refine ⟨_, if_neg hne, hlength, ?_, ?_, ?_⟩
  · show (results.filter isTest).countP hasPassed + _ = 33
    rw [htests.countP_eq]
    exact countP_passed
  · show passRate _ (results.filter isTest).length = _
    rw [hlength]
  · rw [← failing_suite]
    exact (htests.filter _).filterMap _

end

/-! ## How bad it can be -/

/-- The tests that a violation can make fail. -/
def fallible : List TestId :=
  [.relationshipsFactAircraftStateIcao24, .notNullMartTelemetryQualityObservationDate,
    .assertNonNegativeTelemetryAge, .assertValidCoordinates, .assertValidIcao24]

theorem passRate_of_fallible {passed failing : ℕ} (h : passed + failing = 33) (hfew : failing ≤ 5) :
    (passRate passed 33 = 100 ↔ failing = 0) ∧ 84.8 ≤ passRate passed 33 := by
  obtain rfl : passed = 33 - failing := by omega
  have hall : ∀ k ≤ 5, (passRate (33 - k) 33 = 100 ↔ k = 0) ∧ 84.8 ≤ passRate (33 - k) 33 := by decide +kernel
  exact hall failing hfew

section

variable {pg : Server} {forDim forFact forQuality : Snapshot} {m : Marts} {now : TestId → Snapshot}
  {v : TestId → Views} {uniqueId : TestId → PyStr} {others results : List NodeResult}

theorem mem_fallible {s : Snapshot} {t : TestId} (h : Violated pg forDim forFact s t) : t ∈ fallible := by
  cases t <;> first | exact h.elim | decide

theorem mem_notPassed (dbt : GenericTests) (hrun : dbtRun pg forDim forFact forQuality = some m)
    (hviews : ∀ t, views pg (now t) = some (v t)) (t : TestId) :
    t ∈ notPassed (fun t => t.status dbt m (now t) (v t)) ↔ Violated pg forDim forFact (now t) t := by
  have hpass : t.status dbt m (now t) (v t) = .pass ↔ ¬ Violated pg forDim forFact (now t) t := by
    rw [TestId.status, status_eq_pass]
    exact failures_eq_zero dbt hrun (hviews t) t
  unfold notPassed
  rw [List.mem_filter, decide_eq_true_eq, Ne, hpass, not_not]
  exact and_iff_right (TestId.mem_all t)

/-- Each test sees the tables at a time of its own. The report names the tests with a violation and no others, and its
rate is never below 84.8. -/
theorem test_report_exact (dbt : GenericTests) (hrun : dbtRun pg forDim forFact forQuality = some m)
    (hviews : ∀ t, views pg (now t) = some (v t)) (hids : ∀ t, str "test." <+: uniqueId t)
    (hothers : ∀ r ∈ others, isTest r = false)
    (hresults : results ~ others ++ suiteResults uniqueId fun t => t.status dbt m (now t) (v t)) :
    ∃ report bad, fetchDbtTestPassRate (some ⟨some results⟩) = some report ∧
      bad.Nodup ∧ (∀ t, t ∈ bad ↔ Violated pg forDim forFact (now t) t) ∧
      report.failingTests ~ bad.map uniqueId ∧ report.testsTotal = 33 ∧
      report.testsPassed + bad.length = 33 ∧ (report.passRatePct = 100 ↔ bad = []) ∧ 84.8 ≤ report.passRatePct := by
  obtain ⟨report, hfetch, htotal, hpassed, hrate, hfailing⟩ := fetch_suite hids hothers hresults
  have hmem := mem_notPassed dbt hrun hviews
  have hnodup : (notPassed fun t => t.status dbt m (now t) (v t)).Nodup :=
    List.Nodup.filter _ (by decide)
  have hfew : (notPassed fun t => t.status dbt m (now t) (v t)).length ≤ fallible.length :=
    (List.subperm_of_subset hnodup fun t ht => mem_fallible ((hmem t).mp ht)).length_le
  obtain ⟨hfull, hleast⟩ := passRate_of_fallible hpassed hfew
  refine ⟨report, _, hfetch, hnodup, hmem, hfailing, htotal, hpassed, ?_, ?_⟩
  · rw [hrate, hfull, List.length_eq_zero_iff]
  · rw [hrate]
    exact hleast

end

def numberedId (t : TestId) : PyStr := str "test.flightpulse." ++ intStr (TestId.all.idxOf t)

theorem test_report_exact_silent : ∃ s m v report, SnapshotOf (sampleEvent sampleId) s ∧
    dbtRun writtenServer s s s = some m ∧ views writtenServer s = some v ∧
    fetchDbtTestPassRate (some ⟨some (suiteResults numberedId fun t => t.status byQuery m s v)⟩) = some report ∧
      report.testsTotal = 33 ∧ report.passRatePct ≠ 100 ∧ 84.8 ≤ report.passRatePct := by
  obtain ⟨s, m, v, hs, hm, hv, hcontacts⟩ := snapshotOf_computed (sampleEvent sampleId) [some none] (by decide +kernel)
  have hids : ∀ t, str "test." <+: numberedId t := fun t =>
    (show str "test." <+: str "test.flightpulse." by decide).trans (List.prefix_append _ _)
  have hothers : ∀ r ∈ ([] : List NodeResult), isTest r = false := fun r hr => absurd hr List.not_mem_nil
  obtain ⟨report, bad, hfetch, -, hbad, -, htotal, -, hfull, hleast⟩ :=
    test_report_exact byQuery hm (fun _ => hv) hids hothers (List.Perm.refl _)
  refine ⟨s, m, v, report, hs, hm, hv, hfetch, htotal, fun hrate => ?_, hleast⟩
  have hmem : some none ∈ contactsOf s := by
    rw [hcontacts]
    exact List.mem_cons_self
  obtain ⟨r, hr, hnone⟩ := List.mem_map.mp hmem
  have hnot : TestId.notNullMartTelemetryQualityObservationDate ∈ bad := (hbad _).mpr ⟨r, hr, hnone⟩
  rw [hfull.mp hrate] at hnot
  cases hnot

end FlightPulse.Replay
