import Solvency.Json.Writer
import Solvency.Oracle.Race
import Solvency.Proofs.Ordering
import Solvency.Proofs.Traversal

/-! Races: what the order in which fetches settle decides. A fetch either decides its race or leaves it to the next one,
    so that the first fetch with a text that can be read decides it, unless a fetch in front of it has decided it
    already. Of the fetches that bring nothing, two kinds do that: those with a text that escapes its reading, and those
    whose failure names an oracle by an id that cannot be written. -/

namespace Solvency

namespace Fetch

/-- The attestation that a fetch brings: it settles with a text that can be read. -/
def attestation? (codec : Codec) (f : Fetch) : Option Attestation :=
  match f.response with
  | .settles _ (.text raw) => (Attestation.read codec raw).toOption
  | _ => none

/-- The fetch ends at some time. -/
def Settles (f : Fetch) : Prop := ∃ delay outcome, f.response = .settles delay outcome

/-- The fetch is cancelled from outside. -/
def Cancelled (f : Fetch) : Prop := ∃ delay, f.response = .settles delay .cancelled

/-- The transport reports that the fetch failed; the report stands as it is. -/
def Refused (f : Fetch) : Prop := ∃ delay message, f.response = .settles delay (.refused message)

/-- The fetch brings no attestation, but does not leave the race for its oracle to the next one. -/
inductive Ends (codec : Codec) (oracle : OracleSpec) (f : Fetch) : Prop
  /-- The reading of its text ends without a report. -/
  | escape {delay : Nat} {raw : Text} {escape : AttestationEscape} (answers : f.response = .settles delay (.text raw))
      (escapes : Attestation.read codec raw = .error (.escaped escape))
  /-- The report would name the oracle, and cannot. -/
  | unreadable {delay : Nat} {raw : Text} {fault : AttestationFault} (wide : ¬Text.isWritable oracle.id = true)
      (answers : f.response = .settles delay (.text raw))
      (unreadable : Attestation.read codec raw = .error (.unreadable fault))
  | failed {delay : Nat} {kind message : Text} (wide : ¬Text.isWritable oracle.id = true)
      (fails : f.response = .settles delay (.failed kind message))

theorem attestation?_eq_some {codec : Codec} {f : Fetch} {a : Attestation} :
    f.attestation? codec = some a ↔
      ∃ delay raw, f.response = .settles delay (.text raw) ∧ Attestation.read codec raw = .ok a := by
  constructor
  · intro h
    unfold attestation? at h
    split at h
    · rename_i delay raw hf
      cases hr : Attestation.read codec raw with
      | ok b =>
        rw [hr] at h
        exact ⟨delay, raw, hf, Option.some.inj h ▸ hr⟩
      | error e => rw [hr] at h; cases h
    · cases h
  · rintro ⟨delay, raw, hf, hr⟩
    rw [attestation?, hf]
    show (Attestation.read codec raw).toOption = some a
    rw [hr]
    rfl

theorem settlesBefore_iff {f g : Fetch} :
    f.settlesBefore g = true ↔ ∀ delay' outcome', g.response = .settles delay' outcome' →
      ∃ delay outcome, f.response = .settles delay outcome ∧ delay ≤ delay' := by
  unfold settlesBefore
  cases hf : f.response <;> cases hg : g.response <;> simp

theorem settlesBefore_total (f g : Fetch) : f.settlesBefore g = true ∨ g.settlesBefore f = true := by
  rw [settlesBefore_iff, settlesBefore_iff]
  cases hf : f.response with
  | hangs => exact Or.inr fun _ _ h => absurd h (by simp)
  | settles delay outcome =>
    cases hg : g.response with
    | hangs => exact Or.inl fun _ _ h => absurd h (by simp)
    | settles delay' outcome' =>
      rcases Nat.le_total delay delay' with hle | hle
      · exact Or.inl fun _ _ h => by cases h; exact ⟨delay, outcome, rfl, hle⟩
      · exact Or.inr fun _ _ h => by cases h; exact ⟨delay', outcome', rfl, hle⟩

theorem settlesBefore_trans (f g h : Fetch) (hfg : f.settlesBefore g = true) (hgh : g.settlesBefore h = true) :
    f.settlesBefore h = true := by
  rw [settlesBefore_iff] at hfg hgh ⊢
  intro delay outcome hh
  obtain ⟨delay', outcome', hg, hle'⟩ := hgh delay outcome hh
  obtain ⟨delay'', outcome'', hf, hle⟩ := hfg delay' outcome' hg
  exact ⟨delay'', outcome'', hf, Nat.le_trans hle hle'⟩

end Fetch

/-- A race that was lost, whether or not this could be reported. -/
inductive RaceResult.IsLoss : RaceResult → Prop
  | lost (e : TransportError) : IsLoss (.lost e)
  | unreportable : IsLoss .unreportable

theorem RaceResult.IsLoss.ne_won {result : RaceResult} (h : result.IsLoss) (a : Attestation) : result ≠ .won a := by
  rintro rfl
  cases h

namespace OracleSpec
variable {oracle : OracleSpec} {e : TransportError}

theorem lose_of_writable (h : Text.isWritable oracle.id = true) : oracle.lose e = .lost e := if_pos h

theorem lose_of_wide (h : ¬Text.isWritable oracle.id = true) : oracle.lose e = .unreportable := if_neg h

theorem isLoss_lose : (oracle.lose e).IsLoss := by
  by_cases h : Text.isWritable oracle.id = true
  · rw [lose_of_writable h]
    exact .lost e
  · rw [lose_of_wide h]
    exact .unreportable

theorem report_of_writable (h : Text.isWritable oracle.id = true) : oracle.report e = .error e := if_pos h

theorem report_of_wide (h : ¬Text.isWritable oracle.id = true) : oracle.report e = .ok .unreportable := if_neg h

/-- What is reported of an oracle is no attestation and no cancellation. -/
theorem isLoss_of_report {result : RaceResult} (h : oracle.report e = .ok result) : result.IsLoss := by
  unfold report at h
  split at h
  · cases h
  · obtain rfl := Except.ok.inj h
    exact .unreportable

end OracleSpec

namespace FetchOutcome
variable {codec : Codec} {oracle : OracleSpec} {raw : Text}

theorem judge_of_read {a : Attestation} (h : Attestation.read codec raw = .ok a) :
    (text raw).judge codec oracle = .ok (.won { a with oracleId := some oracle.id }) := by
  rw [judge, h]

theorem judge_of_unreadable {fault : AttestationFault} (h : Attestation.read codec raw = .error (.unreadable fault)) :
    (text raw).judge codec oracle = oracle.report (.unreadable oracle.id fault) := by
  rw [judge, h]

theorem judge_of_escaped {escape : AttestationEscape} (h : Attestation.read codec raw = .error (.escaped escape)) :
    (text raw).judge codec oracle = .ok (oracle.lose (.escaped oracle.id escape)) := by
  rw [judge, h]

end FetchOutcome

/-- An end that brings no attestation loses the race, or leaves it to the next fetch. -/
theorem FetchOutcome.judge_of_unread {codec : Codec} (oracle : OracleSpec) {f : Fetch} {delay : Nat}
    {outcome : FetchOutcome} (hf : f.response = .settles delay outcome) (unread : f.attestation? codec = none)
    (ordinary : ¬f.Cancelled) :
    (f.Ends codec oracle ∧ ∃ loss, loss.IsLoss ∧ outcome.judge codec oracle = .ok loss) ∨
      (¬f.Ends codec oracle ∧ ∃ e, outcome.judge codec oracle = .error e) := by
  cases outcome with
  | cancelled => exact absurd ⟨delay, hf⟩ ordinary
  | refused message =>
    refine Or.inr ⟨?_, _, rfl⟩
    rintro (⟨hf', -⟩ | ⟨-, hf', -⟩ | ⟨-, hf'⟩) <;> cases hf.symm.trans hf'
  | failed kind message =>
    by_cases hwide : Text.isWritable oracle.id = true
    · refine Or.inr ⟨?_, _, OracleSpec.report_of_writable hwide⟩
      rintro (⟨hf', -⟩ | ⟨hwide', -, -⟩ | ⟨hwide', -⟩)
      · cases hf.symm.trans hf'
      · exact hwide' hwide
      · exact hwide' hwide
    · exact Or.inl ⟨.failed hwide hf, .unreportable, .unreportable, OracleSpec.report_of_wide hwide⟩
  | text raw =>
    cases hr : Attestation.read codec raw with
    | ok a => rw [Fetch.attestation?_eq_some.mpr ⟨delay, raw, hf, hr⟩] at unread; cases unread
    | error e =>
      cases e with
      | escaped escape => exact Or.inl ⟨.escape hf hr, _, OracleSpec.isLoss_lose, judge_of_escaped hr⟩
      | unreadable fault =>
        by_cases hwide : Text.isWritable oracle.id = true
        · refine Or.inr ⟨?_, _, (judge_of_unreadable hr).trans (OracleSpec.report_of_writable hwide)⟩
          rintro (⟨hf', hr'⟩ | ⟨hwide', -, -⟩ | ⟨hwide', -⟩)
          · cases hf.symm.trans hf'
            cases hr.symm.trans hr'
          · exact hwide' hwide
          · exact hwide' hwide
        · exact Or.inl ⟨.unreadable hwide hf hr, .unreportable, .unreportable,
            (judge_of_unreadable hr).trans (OracleSpec.report_of_wide hwide)⟩

/-- What the end of a fetch comes to: a cancellation, an attestation, a lost race, or an error that leaves the race to
    the next fetch. -/
theorem FetchOutcome.judge_cases (codec : Codec) (oracle : OracleSpec) (outcome : FetchOutcome) :
    (outcome = .cancelled ∧ outcome.judge codec oracle = .ok .cancelled) ∨
      (∃ raw b, outcome = .text raw ∧ Attestation.read codec raw = .ok b ∧
        outcome.judge codec oracle = .ok (.won { b with oracleId := some oracle.id })) ∨
      (∃ loss, loss.IsLoss ∧ outcome.judge codec oracle = .ok loss) ∨
      ∃ e, outcome.judge codec oracle = .error e := by
  have report : ∀ e, (∃ loss, loss.IsLoss ∧ oracle.report e = .ok loss) ∨ ∃ e', oracle.report e = .error e' := by
    intro e
    cases hreport : oracle.report e with
    | ok loss => exact Or.inl ⟨loss, OracleSpec.isLoss_of_report hreport, rfl⟩
    | error e' => exact Or.inr ⟨e', rfl⟩
  cases outcome with
  | cancelled => exact Or.inl ⟨rfl, rfl⟩
  | refused message => exact Or.inr (Or.inr (Or.inr ⟨_, rfl⟩))
  | failed kind message => exact Or.inr (Or.inr (report _))
  | text raw =>
    cases hr : Attestation.read codec raw with
    | ok b => exact Or.inr (Or.inl ⟨raw, b, rfl, hr, judge_of_read hr⟩)
    | error e =>
      cases e with
      | unreadable fault =>
        rw [judge_of_unreadable hr]
        exact Or.inr (Or.inr (report _))
      | escaped escape => exact Or.inr (Or.inr (Or.inl ⟨_, OracleSpec.isLoss_lose, judge_of_escaped hr⟩))

theorem FetchOutcome.judge_eq_won {codec : Codec} {oracle : OracleSpec} {outcome : FetchOutcome} {a : Attestation} :
    outcome.judge codec oracle = .ok (.won a) ↔
      ∃ raw b, outcome = .text raw ∧ Attestation.read codec raw = .ok b ∧
        a = { b with oracleId := some oracle.id } := by
  constructor
  · intro h
    rcases judge_cases codec oracle outcome with
      ⟨-, hj⟩ | ⟨raw, b, hraw, hread, hj⟩ | ⟨loss, hloss, hj⟩ | ⟨e, hj⟩ <;> cases hj.symm.trans h
    · exact ⟨raw, b, hraw, hread, rfl⟩
    · cases hloss
  · rintro ⟨raw, b, rfl, hr, rfl⟩
    exact judge_of_read hr

theorem FetchOutcome.wide_of_judge {codec : Codec} {oracle : OracleSpec} {outcome : FetchOutcome}
    (h : outcome.judge codec oracle = .ok .unreportable) : ¬Text.isWritable oracle.id = true := by
  intro hwide
  cases outcome with
  | cancelled | refused message => cases h
  | failed kind message => cases (OracleSpec.report_of_writable hwide).symm.trans h
  | text raw =>
    cases hr : Attestation.read codec raw with
    | ok a => cases (judge_of_read hr).symm.trans h
    | error e =>
      cases e with
      | unreadable fault =>
        cases (OracleSpec.report_of_writable hwide).symm.trans ((judge_of_unreadable hr).symm.trans h)
      | escaped escape =>
        rw [judge_of_escaped hr, OracleSpec.lose_of_writable hwide] at h
        cases h

section
variable {codec : Codec} {oracle : OracleSpec} {f : Fetch} {delay : Nat} {outcome : FetchOutcome}

theorem Fetch.ends_of_judge (hf : f.response = .settles delay outcome)
    (h : outcome.judge codec oracle = .ok .unreportable) : f.Ends codec oracle := by
  have wide := FetchOutcome.wide_of_judge h
  cases outcome with
  | cancelled | refused message => cases h
  | failed kind message => exact .failed wide hf
  | text raw =>
    cases hr : Attestation.read codec raw with
    | ok a => cases (FetchOutcome.judge_of_read hr).symm.trans h
    | error e =>
      cases e with
      | unreadable fault => exact .unreadable wide hf hr
      | escaped escape => exact .escape hf hr

variable (wide : ¬Text.isWritable oracle.id = true)
include wide

theorem Fetch.Ends.exists_judge (ends : f.Ends codec oracle) :
    ∃ delay outcome, f.response = .settles delay outcome ∧ outcome.judge codec oracle = .ok .unreportable := by
  cases ends with
  | escape answers escapes =>
    exact ⟨_, _, answers, (FetchOutcome.judge_of_escaped escapes).trans (congrArg _ (OracleSpec.lose_of_wide wide))⟩
  | unreadable _ answers unreadable =>
    exact ⟨_, _, answers, (FetchOutcome.judge_of_unreadable unreadable).trans (OracleSpec.report_of_wide wide)⟩
  | failed _ fails => exact ⟨_, _, fails, OracleSpec.report_of_wide wide⟩

theorem Fetch.refused_of_judge (hf : f.response = .settles delay outcome) {e : TransportError}
    (h : outcome.judge codec oracle = .error e) : f.Refused := by
  cases outcome with
  | cancelled => cases h
  | refused message => exact ⟨delay, message, hf⟩
  | failed kind message => cases (OracleSpec.report_of_wide wide).symm.trans h
  | text raw =>
    cases hr : Attestation.read codec raw with
    | ok a => cases (FetchOutcome.judge_of_read hr).symm.trans h
    | error e =>
      cases e with
      | unreadable fault =>
        cases (OracleSpec.report_of_wide wide).symm.trans ((FetchOutcome.judge_of_unreadable hr).symm.trans h)
      | escaped escape => cases (FetchOutcome.judge_of_escaped hr).symm.trans h

end

theorem FetchOutcome.judge_eq_cancelled {codec : Codec} {oracle : OracleSpec} {outcome : FetchOutcome} :
    outcome.judge codec oracle = .ok .cancelled ↔ outcome = .cancelled := by
  constructor
  · intro h
    rcases judge_cases codec oracle outcome with
      ⟨hcancelled, -⟩ | ⟨raw, b, hraw, hread, hj⟩ | ⟨loss, hloss, hj⟩ | ⟨e, hj⟩
    · exact hcancelled
    · cases hj.symm.trans h
    · cases hj.symm.trans h
      cases hloss
    · cases hj.symm.trans h
  · rintro rfl
    rfl

namespace Race

section Order
variable {codec : Codec} {oracle : OracleSpec}

theorem runFrom_cons_of_hangs {f : Fetch} {rest : List Fetch} {last : RaceResult} (hf : f.response = .hangs) :
    runFrom codec oracle last (f :: rest) = ⟨none, [], f :: rest⟩ := by
  rw [runFrom, hf]

theorem runFrom_cons_of_ok {f : Fetch} {rest : List Fetch} {last : RaceResult} {delay : Nat}
    {outcome : FetchOutcome} {result : RaceResult} (hf : f.response = .settles delay outcome)
    (hj : outcome.judge codec oracle = .ok result) :
    runFrom codec oracle last (f :: rest) = ⟨some result, [f], rest⟩ := by
  rw [runFrom, hf]
  simp only [hj]

theorem runFrom_cons_of_error {f : Fetch} {rest : List Fetch} {last : RaceResult} {e : TransportError} {delay : Nat}
    {outcome : FetchOutcome} (hf : f.response = .settles delay outcome) (hj : outcome.judge codec oracle = .error e) :
    runFrom codec oracle last (f :: rest) =
      { runFrom codec oracle (.lost e) rest with
        settled := f :: (runFrom codec oracle (.lost e) rest).settled } := by
  rw [runFrom, hf]
  simp only [hj]

theorem runFrom_of_judge_ok {f : Fetch} {rest : List Fetch} {last : RaceResult} {delay : Nat}
    {outcome : FetchOutcome} {result : RaceResult} (hf : f.response = .settles delay outcome)
    (hj : outcome.judge codec oracle = .ok result) :
    (runFrom codec oracle last (f :: rest)).result = some result := by
  rw [runFrom_cons_of_ok hf hj]

theorem runFrom_of_judge_error {f : Fetch} {rest : List Fetch} {last : RaceResult} {e : TransportError} {delay : Nat}
    {outcome : FetchOutcome} (hf : f.response = .settles delay outcome) (hj : outcome.judge codec oracle = .error e) :
    (runFrom codec oracle last (f :: rest)).result = (runFrom codec oracle (.lost e) rest).result := by
  rw [runFrom_cons_of_error hf hj]

theorem runFrom_of_attestation? {f : Fetch} {rest : List Fetch} {last : RaceResult} {a : Attestation}
    (h : f.attestation? codec = some a) :
    (runFrom codec oracle last (f :: rest)).result = some (.won { a with oracleId := some oracle.id }) := by
  obtain ⟨delay, raw, hf, hr⟩ := Fetch.attestation?_eq_some.mp h
  exact runFrom_of_judge_ok hf (FetchOutcome.judge_of_read hr)

/-- However the fetches in front of the first readable one fail, the race is won by that one, or it is lost by the first
    of them that ends it. -/
theorem runFrom_of_first_readable (oracle : OracleSpec) {earlier : List Fetch} {winner : Fetch} (later : List Fetch)
    {a : Attestation} (reads : winner.attestation? codec = some a) (unread : ∀ f ∈ earlier, f.attestation? codec = none)
    (settled : ∀ f ∈ earlier, f.Settles) (ordinary : ∀ f ∈ earlier, ¬f.Cancelled) (last : RaceResult) :
    ((∀ f ∈ earlier, ¬f.Ends codec oracle) ∧
        (runFrom codec oracle last (earlier ++ winner :: later)).result =
          some (.won { a with oracleId := some oracle.id })) ∨
      ((∃ f ∈ earlier, f.Ends codec oracle) ∧
        ∃ loss, loss.IsLoss ∧ (runFrom codec oracle last (earlier ++ winner :: later)).result = some loss) := by
  induction earlier generalizing last with
  | nil => exact Or.inl ⟨fun f hf => absurd hf List.not_mem_nil, runFrom_of_attestation? reads⟩
  | cons f earlier ih =>
    rw [List.cons_append]
    obtain ⟨delay, outcome, hf⟩ := settled f List.mem_cons_self
    rcases FetchOutcome.judge_of_unread oracle hf (unread f List.mem_cons_self)
      (ordinary f List.mem_cons_self) with ⟨hends, loss, hloss, hj⟩ | ⟨hgoes, e, hj⟩
    · exact Or.inr ⟨⟨f, List.mem_cons_self, hends⟩, loss, hloss, runFrom_of_judge_ok hf hj⟩
    · rw [runFrom_of_judge_error hf hj]
      rcases ih (fun g hg => unread g (List.mem_cons_of_mem f hg)) (fun g hg => settled g (List.mem_cons_of_mem f hg))
        (fun g hg => ordinary g (List.mem_cons_of_mem f hg)) (.lost e) with ⟨hnone, hr⟩ | ⟨⟨g, hg, hends⟩, hr⟩
      · exact Or.inl ⟨List.forall_mem_cons.mpr ⟨hgoes, hnone⟩, hr⟩
      · exact Or.inr ⟨⟨g, List.mem_cons_of_mem f hg, hends⟩, hr⟩

end Order

section Results
variable {codec : Codec} {oracle : OracleSpec} {order : List Fetch} {last : RaceResult} (loss : last.IsLoss)
include loss

/-- A race is won by an attestation that one of its fetches brought, under the id of its oracle. -/
theorem exists_attestation?_of_won {a : Attestation} (h : (runFrom codec oracle last order).result = some (.won a)) :
    ∃ f ∈ order, ∃ b, f.attestation? codec = some b ∧ a = { b with oracleId := some oracle.id } := by
  induction order generalizing last with
  | nil => exact absurd (Option.some.inj h) (loss.ne_won a)
  | cons f order ih =>
    cases hf : f.response with
    | hangs => rw [runFrom, hf] at h; cases h
    | settles delay outcome =>
      cases hj : outcome.judge codec oracle with
      | error e =>
        rw [runFrom_of_judge_error hf hj] at h
        obtain ⟨g, hg, hb⟩ := ih (.lost e) h
        exact ⟨g, List.mem_cons_of_mem f hg, hb⟩
      | ok result =>
        rw [runFrom_of_judge_ok hf hj] at h
        obtain rfl := Option.some.inj h
        obtain ⟨raw, b, rfl, hr, rfl⟩ := FetchOutcome.judge_eq_won.mp hj
        exact ⟨f, List.mem_cons_self, b, Fetch.attestation?_eq_some.mpr ⟨delay, raw, hf, hr⟩, rfl⟩

theorem exists_cancelled_of_result (h : (runFrom codec oracle last order).result = some .cancelled) :
    ∃ f ∈ order, f.Cancelled := by
  induction order generalizing last with
  | nil =>
    obtain rfl := Option.some.inj h
    cases loss
  | cons f order ih =>
    cases hf : f.response with
    | hangs => rw [runFrom, hf] at h; cases h
    | settles delay outcome =>
      cases hj : outcome.judge codec oracle with
      | error e =>
        rw [runFrom_of_judge_error hf hj] at h
        obtain ⟨g, hg, hcancelled⟩ := ih (.lost e) h
        exact ⟨g, List.mem_cons_of_mem f hg, hcancelled⟩
      | ok result =>
        rw [runFrom_of_judge_ok hf hj] at h
        obtain rfl := Option.some.inj h
        obtain rfl := FetchOutcome.judge_eq_cancelled.mp hj
        exact ⟨f, List.mem_cons_self, delay, hf⟩

end Results

/-- A race whose fetches all settle has a result. -/
theorem exists_result_of_settled {codec : Codec} {oracle : OracleSpec} {order : List Fetch} {last : RaceResult}
    (settled : ∀ f ∈ order, f.Settles) : ∃ result, (runFrom codec oracle last order).result = some result := by
  induction order generalizing last with
  | nil => exact ⟨last, rfl⟩
  | cons f order ih =>
    obtain ⟨⟨delay, outcome, hf⟩, hrest⟩ := List.forall_mem_cons.mp settled
    cases hj : outcome.judge codec oracle with
    | error e =>
      rw [runFrom_of_judge_error hf hj]
      exact ih hrest
    | ok result => exact ⟨result, runFrom_of_judge_ok hf hj⟩

/-- Only the race of an oracle whose id cannot be written is lost without a report. -/
theorem wide_of_unreportable {codec : Codec} {oracle : OracleSpec} {order : List Fetch} {last : RaceResult}
    (reported : last = .unreportable → ¬Text.isWritable oracle.id = true)
    (h : (runFrom codec oracle last order).result = some .unreportable) : ¬Text.isWritable oracle.id = true := by
  induction order generalizing last with
  | nil => exact reported (Option.some.inj h)
  | cons f order ih =>
    cases hf : f.response with
    | hangs => rw [runFrom, hf] at h; cases h
    | settles delay outcome =>
      cases hj : outcome.judge codec oracle with
      | error e =>
        rw [runFrom_of_judge_error hf hj] at h
        exact ih (fun hlost => by cases hlost) h
      | ok result =>
        rw [runFrom_of_judge_ok hf hj] at h
        obtain rfl := Option.some.inj h
        exact FetchOutcome.wide_of_judge hj

/-- The race of an oracle whose id cannot be written is lost without a report by the first fetch that is not refused, if
    that ends it. -/
theorem runFrom_eq_unreportable {codec : Codec} {oracle : OracleSpec} (wide : ¬Text.isWritable oracle.id = true)
    {order : List Fetch} {last : RaceResult} : (runFrom codec oracle last order).result = some .unreportable ↔
      (order = [] ∧ last = .unreportable) ∨ ∃ earlier f later, order = earlier ++ f :: later ∧
        (∀ g ∈ earlier, g.Refused) ∧ f.Ends codec oracle := by
  constructor
  · intro h
    induction order generalizing last with
    | nil => exact Or.inl ⟨rfl, Option.some.inj h⟩
    | cons f order ih =>
      right
      cases hf : f.response with
      | hangs => rw [runFrom, hf] at h; cases h
      | settles delay outcome =>
        cases hj : outcome.judge codec oracle with
        | error e =>
          rw [runFrom_of_judge_error hf hj] at h
          rcases ih h with ⟨-, hlost⟩ | ⟨earlier, g, later, rfl, refused, ends⟩
          · cases hlost
          · exact ⟨f :: earlier, g, later, rfl,
              List.forall_mem_cons.mpr ⟨Fetch.refused_of_judge wide hf hj, refused⟩, ends⟩
        | ok result =>
          rw [runFrom_of_judge_ok hf hj] at h
          obtain rfl := Option.some.inj h
          exact ⟨[], f, order, rfl, List.forall_mem_nil _, Fetch.ends_of_judge hf hj⟩
  · rintro (⟨rfl, rfl⟩ | ⟨earlier, f, later, rfl, refused, ends⟩)
    · rfl
    · induction earlier generalizing last with
      | nil =>
        obtain ⟨delay, outcome, hf, hj⟩ := ends.exists_judge wide
        exact runFrom_of_judge_ok hf hj
      | cons g earlier ih =>
        obtain ⟨⟨delay, message, hg⟩, hrest⟩ := List.forall_mem_cons.mp refused
        rw [List.cons_append, runFrom_of_judge_error hg rfl]
        exact ih hrest

/-! ### Races of an oracle -/

/-- The fetches of an oracle in the order in which they settle: by their delays, those of one delay in the order of
    their endpoints, and those that never settle last. -/
def settlementOrder (transport : Transport) (endpoints : List Endpoint) (oracle : OracleSpec) : List Fetch :=
  sortBy Fetch.settlesBefore (fetches transport endpoints oracle)

section Oracle
variable {codec : Codec} {transport : Transport} {endpoints : List Endpoint} {oracle : OracleSpec}

/-- The oracle delivers an attestation: that is the result of its race. -/
def Delivers (codec : Codec) (transport : Transport) (endpoints : List Endpoint) (oracle : OracleSpec)
    (a : Attestation) : Prop :=
  (run codec transport endpoints oracle).result = some (.won a)

instance decidableExistsDelivers {P : Attestation → Prop} [DecidablePred P] :
    Decidable (∃ a, Delivers codec transport endpoints oracle a ∧ P a) :=
  match h : (run codec transport endpoints oracle).result with
  | some (.won a) => decidable_of_iff (P a) (by simp [Delivers, h])
  | none | some (.lost _) | some .unreportable | some .cancelled => isFalse (by simp [Delivers, h])

/-- What an oracle delivers depends on the answers for its own address alone. -/
theorem delivers_congr {transport' : Transport} {a : Attestation}
    (h : ∀ endpoint, transport endpoint oracle.address = transport' endpoint oracle.address) :
    Delivers codec transport endpoints oracle a ↔ Delivers codec transport' endpoints oracle a := by
  have hfetches : fetches transport endpoints oracle = fetches transport' endpoints oracle := by
    unfold fetches
    simp only [h]
  unfold Delivers run
  rw [hfetches]

theorem mem_settlementOrder {f : Fetch} :
    f ∈ settlementOrder transport endpoints oracle ↔ f ∈ fetches transport endpoints oracle := mem_sortBy

section Ordinary
variable (ordinary : ∀ endpoint ∈ endpoints, ∀ delay, transport endpoint oracle.address ≠ .settles delay .cancelled)
include ordinary

theorem not_cancelled_of_ordinary : ∀ f ∈ settlementOrder transport endpoints oracle, ¬f.Cancelled := by
  rintro f hf ⟨delay, hcancelled⟩
  obtain ⟨endpoint, hendpoint, rfl⟩ := List.mem_map.mp (mem_settlementOrder.mp hf)
  exact ordinary endpoint hendpoint delay hcancelled

theorem result_ne_cancelled : (run codec transport endpoints oracle).result ≠ some .cancelled := fun h => by
  obtain ⟨f, hf, hcancelled⟩ := exists_cancelled_of_result OracleSpec.isLoss_lose h
  exact not_cancelled_of_ordinary ordinary f hf hcancelled

end Ordinary

/-- A race without a result waits for a fetch that hangs. -/
theorem exists_hangs_of_undecided (undecided : (run codec transport endpoints oracle).result = none) :
    ∃ endpoint ∈ endpoints, transport endpoint oracle.address = .hangs := by
  by_contra hnone
  have hsettled : ∀ f ∈ settlementOrder transport endpoints oracle, f.Settles := by
    intro f hf
    obtain ⟨endpoint, hendpoint, rfl⟩ := List.mem_map.mp (mem_settlementOrder.mp hf)
    cases hanswer : transport endpoint oracle.address with
    | hangs => exact absurd ⟨endpoint, hendpoint, hanswer⟩ hnone
    | settles delay outcome => exact ⟨delay, outcome, rfl⟩
  obtain ⟨result, hresult⟩ : ∃ result, (run codec transport endpoints oracle).result = some result :=
    exists_result_of_settled hsettled
  cases undecided.symm.trans hresult

theorem wide_of_result (h : (run codec transport endpoints oracle).result = some .unreportable) :
    ¬Text.isWritable oracle.id = true := by
  refine wide_of_unreportable (fun hlost hwritable => ?_) h
  rw [OracleSpec.lose_of_writable hwritable] at hlost
  cases hlost

/-- The race of an oracle is lost without a report: its id cannot be written, and it has no endpoint or the first of its
    fetches that is not refused ends the race. -/
inductive Unreported (codec : Codec) (transport : Transport) (endpoints : List Endpoint) (oracle : OracleSpec) : Prop
  | noEndpoints (wide : ¬Text.isWritable oracle.id = true) (unset : endpoints = [])
  | fails {earlier later : List Fetch} {f : Fetch} (wide : ¬Text.isWritable oracle.id = true)
    (order : settlementOrder transport endpoints oracle = earlier ++ f :: later) (refused : ∀ g ∈ earlier, g.Refused)
    (ends : f.Ends codec oracle)

theorem unreported_iff : Unreported codec transport endpoints oracle ↔
    (run codec transport endpoints oracle).result = some .unreportable := by
  constructor
  · rintro (⟨wide, rfl⟩ | ⟨wide, order, refused, ends⟩)
    · exact congrArg some (OracleSpec.lose_of_wide wide)
    · exact (runFrom_eq_unreportable wide).mpr (Or.inr ⟨_, _, _, order, refused, ends⟩)
  · intro h
    have wide := wide_of_result h
    rcases (runFrom_eq_unreportable wide).mp h with ⟨hnone, -⟩ | ⟨earlier, f, later, order, refused, ends⟩
    · exact .noEndpoints wide (List.map_eq_nil_iff.mp (sortBy_eq_nil.mp hnone))
    · exact .fails wide order refused ends

/-- A delivered attestation is what one of the endpoints answered, under the id of the oracle. -/
theorem Delivers.provenance {a : Attestation} (h : Delivers codec transport endpoints oracle a) :
    ∃ endpoint ∈ endpoints, ∃ delay raw b, transport endpoint oracle.address = .settles delay (.text raw) ∧
      Attestation.read codec raw = .ok b ∧ a = { b with oracleId := some oracle.id } := by
  obtain ⟨f, hf, b, hb, ha⟩ := exists_attestation?_of_won OracleSpec.isLoss_lose h
  obtain ⟨endpoint, hendpoint, rfl⟩ := List.mem_map.mp (mem_settlementOrder.mp hf)
  obtain ⟨delay, raw, hanswer, hread⟩ := Fetch.attestation?_eq_some.mp hb
  exact ⟨endpoint, hendpoint, delay, raw, b, hanswer, hread, ha⟩

theorem Delivers.oracleId {a : Attestation} (h : Delivers codec transport endpoints oracle a) :
    a.oracleId = some oracle.id := by
  obtain ⟨_, _, _, _, _, _, _, rfl⟩ := h.provenance
  rfl

theorem Delivers.unique {a b : Attestation} (ha : Delivers codec transport endpoints oracle a)
    (hb : Delivers codec transport endpoints oracle b) : a = b := by
  have h := ha.symm.trans hb
  cases h
  rfl

theorem settles_in_front {earlier later : List Fetch} {winner : Fetch}
    (order : settlementOrder transport endpoints oracle = earlier ++ winner :: later) {delay : Nat}
    {outcome : FetchOutcome} (hw : winner.response = .settles delay outcome) :
    ∀ f ∈ earlier, f.Settles := by
  have sorted : (settlementOrder transport endpoints oracle).Pairwise fun f g => f.settlesBefore g = true :=
    sorted_sortBy Fetch.settlesBefore_total Fetch.settlesBefore_trans _
  rw [order] at sorted
  intro f hf
  have hfront := (List.pairwise_append.mp sorted).2.2 f hf winner List.mem_cons_self
  obtain ⟨delay', outcome', hf', -⟩ := Fetch.settlesBefore_iff.mp hfront delay outcome hw
  exact ⟨delay', outcome', hf'⟩

/-- If the answer of an endpoint can be read, the first readable answer in the order of settlement wins the race for its
    oracle, whatever the fetches in front of it came to, exactly when none of these ends the race by itself: that takes
    a text that escapes its reading, or a failure that names the oracle by an id that cannot be written. -/
theorem first_readable_wins_iff (codec : Codec) (transport : Transport) (endpoints : List Endpoint)
    (oracle : OracleSpec)
    (readable : ∃ endpoint ∈ endpoints, ∃ delay raw a,
      transport endpoint oracle.address = .settles delay (.text raw) ∧ Attestation.read codec raw = .ok a) :
    ∃ earlier winner later a,
      settlementOrder transport endpoints oracle = earlier ++ winner :: later ∧
      winner.attestation? codec = some a ∧ (∀ f ∈ earlier, f.attestation? codec = none) ∧
      ((∀ f ∈ earlier, ¬f.Cancelled) →
        ((run codec transport endpoints oracle).result = some (.won { a with oracleId := some oracle.id }) ↔
          ∀ f ∈ earlier, ¬f.Ends codec oracle)) := by
  obtain ⟨endpoint, hendpoint, delay, raw, a, hanswer, hread⟩ := readable
  have hsome : ((settlementOrder transport endpoints oracle).findSome? (Fetch.attestation? codec)).isSome = true := by
    refine List.findSome?_isSome_iff.mpr ⟨⟨oracle, endpoint, transport endpoint oracle.address⟩, ?_, ?_⟩
    · exact mem_settlementOrder.mpr (List.mem_map.mpr ⟨endpoint, hendpoint, rfl⟩)
    · rw [Fetch.attestation?_eq_some.mpr ⟨delay, raw, hanswer, hread⟩]
      rfl
  obtain ⟨b, hfirst⟩ := Option.isSome_iff_exists.mp hsome
  obtain ⟨earlier, winner, later, order, reads, unread⟩ := List.findSome?_eq_some_iff.mp hfirst
  obtain ⟨_, _, hw, -⟩ := Fetch.attestation?_eq_some.mp reads
  refine ⟨earlier, winner, later, b, order, reads, unread, fun ordinary => ?_⟩
  have hrun : run codec transport endpoints oracle =
      runFrom codec oracle (oracle.lose (.noEndpoints oracle.id)) (earlier ++ winner :: later) := by rw [← order]; rfl
  rw [hrun]
  rcases runFrom_of_first_readable oracle later reads unread (settles_in_front order hw) ordinary
    (oracle.lose (.noEndpoints oracle.id)) with ⟨hnone, hr⟩ | ⟨⟨f, hf, hends⟩, loss, hloss, hr⟩
  · exact ⟨fun _ => hnone, fun _ => hr⟩
  · rw [hr]
    exact ⟨fun h => absurd (Option.some.inj h) (hloss.ne_won _), fun h => absurd hends (h f hf)⟩

end Oracle

/-! ### A near node and a far one -/

/-- What an oracle publishes of a bag of prices that it signed. -/
def publication (packed signature : Text) (timestamp : Scalar) : Text :=
  let fields : List (Scalar × Document) :=
    [(.text "packedPrices", .scalar (.text packed)), (.text "signature", .scalar (.text signature)),
      (.text "publicKey", .scalar (.text "")), (.text "timestamp", .scalar timestamp)]
  "0x" ++ Text.ofChars (Text.writeHex (Text.writeUtf8 (Json.write (.map fields))))

/-- The bag that holds a price of TON. -/
def tonBag (price : Int) : Cell :=
  .ofParts [] [.node [] [] (some [(({ name := "TON" } : AssetSpec).id, .ofParts [.varUint priceMaxLength price] [])]) priceKeyBits]

/-- The codec that knows two bags with a price of TON each. -/
def tonCodec : Codec := .ofBags (.ofList [([1], tonBag 5), ([2], tonBag 8)]) false 1000

/-- A near node whose fetches end in a given way, and a far one that publishes an attestation after that. -/
def nearAndFar (near : FetchOutcome) : Transport := fun endpoint _ =>
  if endpoint.display = "near" then .settles 0 near
  else .settles 1 (.text (publication "01" "" (.integer 100)))

theorem first_readable_wins_iff_of_refusal :
    (∃ endpoint ∈ [Document.ofText "near", .ofText "far"], ∃ delay raw a,
      nearAndFar (.refused "gone") endpoint "a" = .settles delay (.text raw) ∧ Attestation.read tonCodec raw = .ok a) ∧
    ∃ earlier winner later a,
      settlementOrder (nearAndFar (.refused "gone")) [.ofText "near", .ofText "far"] ⟨1, "a"⟩ =
        earlier ++ winner :: later ∧
      winner.attestation? tonCodec = some a ∧ (∀ f ∈ earlier, f.attestation? tonCodec = none) ∧
      ((∀ f ∈ earlier, ¬f.Cancelled) →
        ((run tonCodec (nearAndFar (.refused "gone")) [.ofText "near", .ofText "far"] ⟨1, "a"⟩).result =
            some (.won { a with oracleId := some 1 }) ↔
          ∀ f ∈ earlier, ¬f.Ends tonCodec ⟨1, "a"⟩)) := by
  have hread : ∃ a, Attestation.read tonCodec (publication "01" "" (.integer 100)) = .ok a := by decide +kernel
  have readable : ∃ endpoint ∈ [Document.ofText "near", .ofText "far"], ∃ delay raw a,
      nearAndFar (.refused "gone") endpoint "a" = .settles delay (.text raw) ∧
        Attestation.read tonCodec raw = .ok a := by
    obtain ⟨a, ha⟩ := hread
    exact ⟨.ofText "far", by simp, 1, _, a, rfl, ha⟩
  exact ⟨readable, first_readable_wins_iff tonCodec _ _ ⟨1, "a"⟩ readable⟩

/-- An infinite timestamp from the near node loses the race, although none of its fetches is cancelled and the far node
    answers with a text that can be read. -/
theorem race_lost_to_infinite_timestamp :
    let near : FetchOutcome := .text (publication "01" "" (.float (.infinite false)))
    Attestation.read tonCodec (publication "01" "" (.float (.infinite false))) = .error (.escaped .infiniteTimestamp) ∧
      (∃ a, Attestation.read tonCodec (publication "01" "" (.integer 100)) = .ok a) ∧
      nearAndFar near (.ofText "far") "a" = .settles 1 (.text (publication "01" "" (.integer 100))) ∧
      (run tonCodec (nearAndFar near) [.ofText "near", .ofText "far"] ⟨1, "a"⟩).result =
        some (.lost (.escaped 1 .infiniteTimestamp)) := by
  have hread : Attestation.read tonCodec (publication "01" "" (.float (.infinite false))) =
      .error (.escaped .infiniteTimestamp) := by decide +kernel
  have hnear : nearAndFar (.text (publication "01" "" (.float (.infinite false)))) (.ofText "near") "a" =
      .settles 0 (.text (publication "01" "" (.float (.infinite false)))) := rfl
  refine ⟨hread, by decide +kernel, rfl, runFrom_of_judge_ok hnear ?_⟩
  have hwritable : Text.isWritable (1 : Int) = true := by decide +kernel
  exact (FetchOutcome.judge_of_escaped hread).trans (congrArg Except.ok (OracleSpec.lose_of_writable hwritable))

end Race

end Solvency
