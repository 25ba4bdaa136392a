import Solvency.Feed.Http
import Solvency.Proofs.Traversal

/-! Responses: the documents that they bring. As long as requests fail in the ways that a feed explains, whatever is
    wrong with a response is an error of the feed, unless it reaches a limit of the runtime. -/

namespace Solvency

/-- A failure that becomes an error of the feed. -/
def HttpFailure.Ordinary : HttpFailure → Prop
  | .network _ => True
  | .reported _ => True
  | .foreign _ _ => False
  | .cancelled => False

namespace HttpResponse

/-- If the request fails, or the reading of the body does, it does so in an ordinary way. -/
def Ordinary : HttpResponse → Prop
  | .failed failure => failure.Ordinary
  | .answered _ body => ∀ failure, body = .error failure → failure.Ordinary

def Brings (response : HttpResponse) (document : Document) : Prop := response = .answered 200 (.ok document)

theorem Brings.unique {response : HttpResponse} {document : Document} (h : response.Brings document) {other : Document} :
    response.Brings other ↔ document = other := by
  rw [Brings, h]
  simp

end HttpResponse

/-- A step that fails with an error of the feed or a limit of the runtime, if it fails. -/
def Reports {α : Type} (step : Except FeedFailure α) : Prop :=
  ∀ failure, step = .error failure → (∃ e, failure = .feed e) ∨ ∃ limit, failure = .limit limit

section
variable {α β : Type}

theorem Reports.bind {x : Except FeedFailure α} {f : α → Except FeedFailure β} (hx : Reports x)
    (hf : ∀ a, x = .ok a → Reports (f a)) : Reports (x >>= f) := by
  intro failure h
  rcases bind_eq_error.mp h with h | ⟨a, ha, h⟩
  · exact hx failure h
  · exact hf a ha failure h

theorem reports_feed {x : Except FeedError α} : Reports (x.mapError .feed) := by
  intro failure h
  obtain ⟨e, -, rfl⟩ := mapError_eq_error.mp h
  exact Or.inl ⟨e, rfl⟩

theorem reports_limit {x : Except RuntimeLimit α} : Reports (x.mapError .limit) := by
  intro failure h
  obtain ⟨limit, -, rfl⟩ := mapError_eq_error.mp h
  exact Or.inr ⟨limit, rfl⟩

end

theorem HttpFailure.Ordinary.toFeed {failure : HttpFailure} (h : failure.Ordinary) (explain : Text → FeedError) :
    ∃ e, failure.toFeed explain = .feed e := by
  cases failure with
  | network message => exact ⟨explain message, rfl⟩
  | reported message => exact ⟨.reported message, rfl⟩
  | foreign kind message => exact h.elim
  | cancelled => exact h.elim

theorem HttpFailure.toFeed_ne_limit {failure : HttpFailure} {explain : Text → FeedError} {limit : RuntimeLimit} :
    failure.toFeed explain ≠ .limit limit := by
  cases failure <;> simp [toFeed]

namespace HttpResponse
variable {response : HttpResponse} {depths : FeedDepths} {explain : Text → FeedError} {url : Text}

theorem document_of_brings {document : Document} (h : response.Brings document) :
    response.document depths explain url =
      if depths.read < document.height then .error (.limit .depth) else .ok document := by
  rw [h, HttpResponse.document, if_pos rfl]
  exact (bind_of_eq_ok rfl _).trans (by split <;> rfl)

/-- A response without a document fails, in an ordinary way if it is an ordinary one, and reaches no limit. -/
theorem document_of_not_brings (depths : FeedDepths) (explain : Text → FeedError) (url : Text) (h : ∀ document, ¬response.Brings document) :
    ∃ failure, response.document depths explain url = .error failure ∧ (∀ limit, failure ≠ .limit limit) ∧
      (response.Ordinary → ∃ e, failure = .feed e) := by
  cases response with
  | failed cause =>
    exact ⟨_, rfl, fun _ => HttpFailure.toFeed_ne_limit, fun ordinary => HttpFailure.Ordinary.toFeed ordinary explain⟩
  | answered status body =>
    by_cases hstatus : status = 200
    · cases body with
      | ok document => exact absurd (by rw [hstatus]; rfl) (h document)
      | error cause =>
        refine ⟨cause.toFeed explain, ?_, fun _ => HttpFailure.toFeed_ne_limit,
          fun ordinary => (ordinary cause rfl).toFeed explain⟩
        rw [HttpResponse.document, if_pos hstatus]
        rfl
    · exact ⟨.feed (.status status url), if_neg hstatus, by simp, fun _ => ⟨_, rfl⟩⟩

theorem document_eq_ok {document : Document} : response.document depths explain url = .ok document ↔
    response.Brings document ∧ document.height ≤ depths.read := by
  by_cases h : ∃ found, response.Brings found
  · obtain ⟨found, h⟩ := h
    rw [document_of_brings h, h.unique]
    split
    · rename_i hdeep
      simp only [reduceCtorEq, false_iff, not_and]
      rintro rfl
      omega
    · rename_i hshallow
      simp only [Except.ok.injEq]
      constructor
      · rintro rfl
        exact ⟨rfl, by omega⟩
      · exact And.left
  · rw [not_exists] at h
    obtain ⟨failure, hfailure, -⟩ := document_of_not_brings depths explain url h
    simp [hfailure, h]

/-- A limit is reached exactly by a document that is nested too deep. -/
theorem document_eq_limit {limit : RuntimeLimit} : response.document depths explain url = .error (.limit limit) ↔
    limit = .depth ∧ ∃ document, response.Brings document ∧ depths.read < document.height := by
  by_cases h : ∃ found, response.Brings found
  · obtain ⟨found, h⟩ := h
    rw [document_of_brings h]
    simp only [h.unique, exists_eq_left']
    split <;> simp [*, eq_comm]
  · rw [not_exists] at h
    obtain ⟨failure, hfailure, hlimit, -⟩ := document_of_not_brings depths explain url h
    simp [hfailure, h, hlimit]

theorem Ordinary.reports (h : response.Ordinary) : Reports (response.document depths explain url) := by
  intro failure hdocument
  by_cases hbrings : ∃ found, response.Brings found
  · obtain ⟨found, hfound⟩ := hbrings
    rw [document_of_brings hfound] at hdocument
    split at hdocument
    · exact Or.inr ⟨_, (Except.error.inj hdocument).symm⟩
    · cases hdocument
  · rw [not_exists] at hbrings
    obtain ⟨cause, hcause, -, hfeed⟩ := document_of_not_brings depths explain url hbrings
    rw [hcause] at hdocument
    obtain rfl := Except.error.inj hdocument
    exact Or.inl (hfeed h)

end HttpResponse
end Solvency
