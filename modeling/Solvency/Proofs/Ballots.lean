import Solvency.Oracle.Aggregation
import Solvency.Proofs.Deployments
import Solvency.Proofs.Freshness
import Solvency.Proofs.Medians
import Solvency.Proofs.Races

/-! Ballots: the oracles that take part in an aggregation, each with the attestation that it delivered and that passed
    the verification. An aggregation ranks them from the newest on, those of one time in the configured order, and a
    result comes from the first ones, as many as are required. -/

namespace Solvency.Aggregation

/-- An oracle with its attestation. -/
abbrev Ballot := OracleSpec × Attestation

/-- The attestation of a result that passes the verification. -/
def accept? (assets : List Text) (now : Instant) (ttl : Int) : RaceResult → Option Attestation
  | .won a =>
    match a.verify assets now ttl with
    | .ok none => some a
    | _ => none
  | _ => none

theorem accept?_eq_some {assets : List Text} {now : Instant} {ttl : Int} {result : RaceResult} {a : Attestation} :
    accept? assets now ttl result = some a ↔ result = .won a ∧ a.verify assets now ttl = .ok none := by
  cases result with
  | won b =>
    cases hb : b.verify assets now ttl with
    | error e =>
      simp only [accept?, hb, reduceCtorEq, RaceResult.won.injEq, false_iff]
      rintro ⟨rfl, ha⟩
      rw [hb] at ha
      cases ha
    | ok rejection =>
      cases rejection with
      | some r =>
        simp only [accept?, hb, reduceCtorEq, RaceResult.won.injEq, false_iff]
        rintro ⟨rfl, ha⟩
        rw [hb] at ha
        cases ha
      | none =>
        simp only [accept?, hb, Option.some.injEq, RaceResult.won.injEq]
        exact ⟨fun h => ⟨h, h ▸ hb⟩, And.left⟩
  | lost e => simp [accept?]
  | unreportable => simp [accept?]
  | cancelled => simp [accept?]

theorem sift_accepted {assets : List Text} {now : Instant} {ttl : Int} {results : List RaceResult} {s : Sifted}
    (h : sift assets now ttl results = .ok s) : s.accepted = results.filterMap (accept? assets now ttl) := by
  induction results generalizing s with
  | nil => cases h; rfl
  | cons result results ih =>
    cases result with
    | cancelled | unreportable => cases h
    | lost e =>
      obtain ⟨later, hlater, h⟩ := bind_eq_ok.mp h
      cases h
      exact ih (s := later) hlater
    | won a =>
      obtain ⟨rejection, hverify, h⟩ := bind_eq_ok.mp h
      obtain ⟨later, hlater, h⟩ := bind_eq_ok.mp h
      have hverify := mapError_eq_ok.mp hverify
      cases rejection with
      | some r =>
        cases h
        rw [List.filterMap_cons_none (by simp [accept?, hverify])]
        exact ih hlater
      | none =>
        cases h
        rw [List.filterMap_cons_some (accept?_eq_some.mpr ⟨rfl, hverify⟩), ih hlater]

/-! ### Ballots of a deployment -/

section Ranking
variable (d : Deployment) (codec : Codec) (transport : Transport) (endpoints : List Endpoint) (now : Instant)

/-- The ballots in the configured order of the oracles. -/
def ballots : List Ballot :=
  d.feed.oracles.filterMap fun oracle =>
    ((Race.run codec transport endpoints oracle).result.bind (accept? d.assetIds.keys now d.feed.ttl)).map fun a =>
      (oracle, a)

/-- The ballots from the newest on; those of one time keep their order. -/
def ranking : List Ballot :=
  sortBy (fun b b' => decide (b'.2.timestamp ≤ b.2.timestamp)) (ballots d codec transport endpoints now)

/-- The first ballots of the ranking, as many as are required. -/
def elected : List Ballot := (ranking d codec transport endpoints now).take d.feed.minimalOracles.toNat

end Ranking

/-- A ballot stands before another one: it is newer, or as new and of an oracle that is configured earlier. -/
def Precedes (oracles : List OracleSpec) (b b' : Ballot) : Prop :=
  b'.2.timestamp < b.2.timestamp ∨
    (b.2.timestamp = b'.2.timestamp ∧ oracles.idxOf b.1 < oracles.idxOf b'.1)

section
variable {d : Deployment} {codec : Codec} {transport : Transport} {endpoints : List Endpoint} {now : Instant}

theorem mem_ballots {b : Ballot} :
    b ∈ ballots d codec transport endpoints now ↔ b.1 ∈ d.feed.oracles ∧
      Race.Delivers codec transport endpoints b.1 b.2 ∧ b.2.verify d.assetIds.keys now d.feed.ttl = .ok none := by
  unfold ballots
  rw [List.mem_filterMap]
  constructor
  · rintro ⟨oracle, horacle, h⟩
    obtain ⟨a, ha, rfl⟩ := Option.map_eq_some_iff.mp h
    obtain ⟨result, hresult, ha⟩ := Option.bind_eq_some_iff.mp ha
    obtain ⟨rfl, hverify⟩ := accept?_eq_some.mp ha
    exact ⟨horacle, hresult, hverify⟩
  · rintro ⟨horacle, hdelivers, hverify⟩
    refine ⟨b.1, horacle, Option.map_eq_some_iff.mpr ⟨b.2, ?_, rfl⟩⟩
    exact Option.bind_eq_some_iff.mpr ⟨.won b.2, hdelivers, accept?_eq_some.mpr ⟨rfl, hverify⟩⟩

theorem mem_ranking {b : Ballot} :
    b ∈ ranking d codec transport endpoints now ↔ b ∈ ballots d codec transport endpoints now := mem_sortBy

theorem mem_ballots_of_elected {b : Ballot} (h : b ∈ elected d codec transport endpoints now) :
    b ∈ ballots d codec transport endpoints now := mem_ranking.mp (List.mem_of_mem_take h)

theorem pairwise_idxOf {oracles : List OracleSpec} (h : oracles.Nodup) :
    oracles.Pairwise fun o o' => oracles.idxOf o < oracles.idxOf o' := by
  rw [List.pairwise_iff_getElem]
  intro i j hi hj hij
  rw [h.idxOf_getElem i hi, h.idxOf_getElem j hj]
  exact hij

theorem ballots_ordered (h : d.feed.oracles.Nodup) :
    (ballots d codec transport endpoints now).Pairwise fun b b' =>
      d.feed.oracles.idxOf b.1 < d.feed.oracles.idxOf b'.1 := by
  refine (pairwise_idxOf h).filterMap _ fun o o' hlt b hb b' hb' => ?_
  obtain ⟨a, -, rfl⟩ := Option.map_eq_some_iff.mp hb
  obtain ⟨a', -, rfl⟩ := Option.map_eq_some_iff.mp hb'
  exact hlt

/-- The ranking is that of time, and among ballots of one time that of the configuration. -/
theorem ranking_ordered (h : d.feed.oracles.Nodup) :
    (ranking d codec transport endpoints now).Pairwise (Precedes d.feed.oracles) := by
  have hballots : (ballots d codec transport endpoints now).Pairwise fun b b' =>
      d.feed.oracles.idxOf b.1 < d.feed.oracles.idxOf b'.1 := ballots_ordered h
  have hstable := pairwise_sortBy (fun b b' => total_le (fun b : Ballot => b.2.timestamp) b' b)
    (fun b b' b'' h h' => trans_le (fun b : Ballot => b.2.timestamp) b'' b' b h' h) hballots
  refine hstable.imp fun {b b'} hbb' => ?_
  simp only [decide_eq_true_eq] at hbb'
  by_cases hsame : b.2.timestamp ≤ b'.2.timestamp
  · exact Or.inr ⟨by omega, hbb'.2 hsame⟩
  · exact Or.inl (by omega)

theorem elected_ordered (h : d.feed.oracles.Nodup) :
    (elected d codec transport endpoints now).Pairwise (Precedes d.feed.oracles) :=
  (ranking_ordered h).sublist (List.take_sublist _ _)

/-- Every ballot that is not elected stands behind all that are. -/
theorem elected_precedes (h : d.feed.oracles.Nodup) {b b' : Ballot} (hb : b ∈ elected d codec transport endpoints now)
    (hb' : b' ∈ ballots d codec transport endpoints now) (hout : b' ∉ elected d codec transport endpoints now) :
    Precedes d.feed.oracles b b' := by
  have hordered : (ranking d codec transport endpoints now).Pairwise (Precedes d.feed.oracles) := ranking_ordered h
  rw [← List.take_append_drop d.feed.minimalOracles.toNat (ranking d codec transport endpoints now)] at hordered
  refine (List.pairwise_append.mp hordered).2.2 b hb b' ?_
  have hmem := mem_ranking.mpr hb'
  rw [← List.take_append_drop d.feed.minimalOracles.toNat (ranking d codec transport endpoints now)] at hmem
  exact (List.mem_append.mp hmem).resolve_left hout

end

end Solvency.Aggregation
