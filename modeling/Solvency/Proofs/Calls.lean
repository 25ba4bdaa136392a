import Solvency.Oracle.Aggregation
import Solvency.Proofs.Traversal

/-! Calls: the courses that an aggregation can take. What its caller asks for decides whether it starts at all and
    whether it waits for its races; only what waits concludes from their results. -/

namespace Solvency

namespace AggregationCall

/-- The caller cancels the call by the time that a number of fetches has started. -/
def CancelledBy (call : AggregationCall) (fetches : Int) : Prop :=
  ∃ count, call.cancelAfter = some count ∧ count ≤ fetches

/-- The call waits for its races: its timeout, if it has one, ends later. -/
def Waits (call : AggregationCall) : Prop := ∀ timeout, call.timeout = some timeout → timeout.deadline = .later

theorem cancelledBy_iff {call : AggregationCall} {fetches : Int} :
    (call.cancelAfter.any fun count => count ≤ fetches) = true ↔ call.CancelledBy fetches := by
  unfold CancelledBy
  cases call.cancelAfter with
  | none => simp
  | some count => simp

theorem CancelledBy.mono {call : AggregationCall} {fetches fetches' : Int} (h : call.CancelledBy fetches)
    (hle : fetches ≤ fetches') : call.CancelledBy fetches' := by
  obtain ⟨count, hcount, hreached⟩ := h
  exact ⟨count, hcount, Int.le_trans hreached hle⟩

end AggregationCall

namespace Aggregation

section
variable (d : Deployment) (codec : Codec) (transport : Transport) (now : Instant) (call : AggregationCall)

/-- The oracles that a call fetches. -/
abbrev oraclesOf : List OracleSpec := call.oracles.getD d.feed.oracles

/-- The endpoints that a call fetches from. -/
abbrev endpointsOf : List Endpoint := call.endpoints.getD d.feed.endpoints

/-- The number of fetches that a call starts. -/
abbrev fetchCount : Int := (oraclesOf d call).length * (endpointsOf d call).length

/-- The courses of a call: it is refused, it is given up once its fetches have started, or its races are run. -/
inductive Course : Aggregation → Prop where
  | cancelled (early : call.CancelledBy 0) : Course (refused .cancelled)
  | passed (kept : ¬call.CancelledBy 0) {timeout : Duration} (timed : call.timeout = some timeout)
    (ended : timeout.deadline = .passed) : Course (refused (timeoutError timeout))
  | unreachable (kept : ¬call.CancelledBy 0) {timeout : Duration} (timed : call.timeout = some timeout)
    (beyond : timeout.deadline = .unreachable) : Course (refused (.clock .tooLarge))
  | immediate (kept : ¬call.CancelledBy 0) {timeout : Duration} (timed : call.timeout = some timeout)
    (short : timeout.deadline = .immediate) :
    Course (brokenOff (.transport (.timedOut timeout))
      ((oraclesOf d call).map (Race.brokenOff transport (endpointsOf d call))))
  | brokenOff (kept : ¬call.CancelledBy 0) (waits : call.Waits) (late : call.CancelledBy (fetchCount d call)) :
    Course (brokenOff .cancelled ((oraclesOf d call).map (Race.brokenOff transport (endpointsOf d call))))
  | settled (waits : call.Waits) (kept : ¬call.CancelledBy (fetchCount d call)) :
    Course (settle d codec now call.timeout ((oraclesOf d call).map (Race.run codec transport (endpointsOf d call))))

/-- A call that waits for its races runs them unless it is cancelled before. -/
theorem course_of_waits {timeout : Option Duration} (timed : call.timeout = timeout) (kept : ¬call.CancelledBy 0)
    (waits : call.Waits) :
    Course d codec transport now call
      (if call.cancelAfter.any fun count => count ≤ fetchCount d call then
        Aggregation.brokenOff .cancelled ((oraclesOf d call).map (Race.brokenOff transport (endpointsOf d call)))
      else settle d codec now timeout ((oraclesOf d call).map (Race.run codec transport (endpointsOf d call)))) := by
  subst timed
  split
  · rename_i hcancelled
    exact .brokenOff kept waits (AggregationCall.cancelledBy_iff.mp hcancelled)
  · rename_i hkept
    exact .settled waits (mt AggregationCall.cancelledBy_iff.mpr hkept)

theorem course_run : Course d codec transport now call (run d codec transport now call) := by
  unfold run
  simp only
  split
  · rename_i hearly
    exact .cancelled (AggregationCall.cancelledBy_iff.mp hearly)
  · rename_i hkept
    have kept : ¬call.CancelledBy 0 := mt AggregationCall.cancelledBy_iff.mpr hkept
    cases htimed : call.timeout with
    | none =>
      have waits : call.Waits := fun timeout h => nomatch htimed.symm.trans h
      exact course_of_waits d codec transport now call htimed kept waits
    | some timeout =>
      simp only [Option.map_some]
      cases hdeadline : timeout.deadline with
      | passed => exact .passed kept htimed hdeadline
      | unreachable => exact .unreachable kept htimed hdeadline
      | immediate => exact .immediate kept htimed hdeadline
      | later =>
        have waits : call.Waits := fun timeout' h => by
          obtain rfl := Option.some.inj (htimed.symm.trans h)
          exact hdeadline
        exact course_of_waits d codec transport now call htimed kept waits

end

section Conclusions
variable {d : Deployment} {codec : Codec} {transport : Transport} {now : Instant} {call : AggregationCall}

theorem run_of_waits (waits : call.Waits) (kept : ¬call.CancelledBy (fetchCount d call)) :
    run d codec transport now call =
      settle d codec now call.timeout ((oraclesOf d call).map (Race.run codec transport (endpointsOf d call))) := by
  have hpos : 0 ≤ fetchCount d call := Int.mul_nonneg (Int.natCast_nonneg _) (Int.natCast_nonneg _)
  have hcourse := course_run d codec transport now call
  generalize run d codec transport now call = a at hcourse ⊢
  cases hcourse with
  | cancelled early => exact absurd (early.mono hpos) kept
  | passed _ timed ended => cases (waits _ timed).symm.trans ended
  | unreachable _ timed beyond => cases (waits _ timed).symm.trans beyond
  | immediate _ timed short => cases (waits _ timed).symm.trans short
  | brokenOff _ _ late => exact absurd late kept
  | settled => rfl

section Refused
variable (kept : ¬call.CancelledBy 0) {timeout : Duration} (timed : call.timeout = some timeout)
include kept timed

theorem run_of_passed (ended : timeout.deadline = .passed) :
    run d codec transport now call = refused (timeoutError timeout) := by
  have hkept := mt AggregationCall.cancelledBy_iff.mp kept
  simp [run, hkept, timed, ended]

theorem run_of_unreachable (beyond : timeout.deadline = .unreachable) :
    run d codec transport now call = refused (.clock .tooLarge) := by
  have hkept := mt AggregationCall.cancelledBy_iff.mp kept
  simp [run, hkept, timed, beyond]

end Refused

/-- A call that waits concludes once every race has a result. -/
theorem outcome_of_waits (waits : call.Waits) (kept : ¬call.CancelledBy (fetchCount d call))
    {results : List RaceResult}
    (h : ((oraclesOf d call).map fun oracle => (Race.run codec transport (endpointsOf d call) oracle).result) =
      results.map some) :
    (run d codec transport now call).outcome = some (conclude d codec now results) := by
  have hresults : ((oraclesOf d call).map (Race.run codec transport (endpointsOf d call))).mapM Race.result =
      some results := mapM_eq_some.mpr (List.map_map.trans h)
  rw [run_of_waits waits kept, settle, hresults]

end Conclusions

end Aggregation

end Solvency
