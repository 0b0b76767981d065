import Tariff.Page.Operation

set_option autoImplicit false

namespace Tariff.Page

def showing (page : Page) (session : Session) : Page :=
  (page.enter (.loaded session)).publish session.snapshot

theorem enter_publish (page : Page) (state : State) (snapshot : Snapshot) :
    (page.publish snapshot).enter state = (page.enter state).publish snapshot := by
  by_cases older : snapshot.revision < page.snapshot.revision
  · simp [publish, enter, older]
  · simp [publish, enter, older]

theorem showing_state (page : Page) (session : Session) :
    (page.showing session).state = .loaded session := by
  by_cases older : session.snapshot.revision < page.snapshot.revision
  · simp [showing, publish, enter, older]
  · simp [showing, publish, enter, older]

theorem showing_snapshot (page : Page) (session : Session)
    (newest : page.snapshot.revision ≤ session.revision) :
    (page.showing session).snapshot = session.snapshot := by
  have notOlder : ¬ session.snapshot.revision < (page.enter (.loaded session)).snapshot.revision :=
    Nat.not_lt.mpr newest
  rw [showing, publish, if_neg notOlder]

theorem session_loaded {page : Page} {session : Session} (loaded : page.state = .loaded session) :
    page.session? = some session := by
  rw [session?, loaded]
  rfl

theorem conclusion_either (session : Session) (outcome : Except TransportError Receipt) :
    conclusion session outcome = .submitted session ∨
      conclusion session outcome = .submissionError session := by
  cases outcome with
  | error error => exact .inr rfl
  | ok receipt =>
      by_cases success : receipt.isSuccess = true
      · exact .inl (if_pos success)
      · exact .inr (if_neg success)

theorem conclusion_session (session : Session) (outcome : Except TransportError Receipt) :
    (conclusion session outcome).session? = some session := by
  rcases conclusion_either session outcome with same | same
  · rw [same]
    rfl
  · rw [same]
    rfl

theorem require_fetching_passed {α : Type} (page : Page) (next : Unit → Step α)
    (fetching : page.state = .fetching) :
    (requireFetching >>= next).run page = (next ()).run page := by
  obtain ⟨event, state, snapshot, published⟩ := page
  cases fetching
  rfl

theorem require_fetching_refused {α : Type} (page : Page) (next : Unit → Step α)
    (later : page.state ≠ .fetching) :
    (requireFetching >>= next).run page = .error (.invalidTransition .load page.status) page := by
  obtain ⟨event, state, snapshot, published⟩ := page
  cases state with
  | fetching => exact absurd rfl later
  | loaded session => rfl
  | submitting session => rfl
  | submitted session => rfl
  | submissionError session => rfl

theorem loaded_session_passed {α : Type} (page : Page) (action : Action) (next : Session → Step α)
    (session : Session) (loaded : page.state = .loaded session) :
    (loadedSession action >>= next).run page = (next session).run page := by
  obtain ⟨event, state, snapshot, published⟩ := page
  cases loaded
  rfl

theorem loaded_session_refused {α : Type} (page : Page) (action : Action) (next : Session → Step α)
    (closed : ∀ session, page.state ≠ .loaded session) :
    (loadedSession action >>= next).run page =
      .error (.invalidTransition action page.status) page := by
  obtain ⟨event, state, snapshot, published⟩ := page
  cases state with
  | loaded session => exact absurd rfl (closed session)
  | fetching => rfl
  | submitting session => rfl
  | submitted session => rfl
  | submissionError session => rfl

theorem begin_submit_loaded (page : Page) (session : Session)
    (loaded : page.state = .loaded session) :
    beginSubmit.run page =
      .ok (some ⟨session.form, session.quote⟩) (page.enter (.submitting session)) := by
  obtain ⟨event, state, snapshot, published⟩ := page
  cases loaded
  rfl

theorem begin_submit_submitting (page : Page) (session : Session)
    (submitting : page.state = .submitting session) : beginSubmit.run page = .ok none page := by
  obtain ⟨event, state, snapshot, published⟩ := page
  cases submitting
  rfl

theorem begin_submit_refused (page : Page) (closed : ∀ session, page.state ≠ .loaded session)
    (idle : ∀ session, page.state ≠ .submitting session) :
    beginSubmit.run page = .error (.invalidTransition .submit page.status) page := by
  obtain ⟨event, state, snapshot, published⟩ := page
  cases state with
  | loaded session => exact absurd rfl (closed session)
  | submitting session => exact absurd rfl (idle session)
  | fetching => rfl
  | submitted session => rfl
  | submissionError session => rfl

theorem finish_submit_submitting (page : Page) (session : Session)
    (outcome : Except TransportError Receipt) (submitting : page.state = .submitting session) :
    (finishSubmit outcome).run page =
      .ok (conclusion session outcome).status (page.enter (conclusion session outcome)) := by
  obtain ⟨event, state, snapshot, published⟩ := page
  cases submitting
  rfl

theorem finish_submit_refused (page : Page) (outcome : Except TransportError Receipt)
    (idle : ∀ session, page.state ≠ .submitting session) :
    (finishSubmit outcome).run page =
      .error (.invalidTransition .finishSubmission page.status) page := by
  obtain ⟨event, state, snapshot, published⟩ := page
  cases state with
  | submitting session => exact absurd rfl (idle session)
  | fetching => rfl
  | loaded session => rfl
  | submitted session => rfl
  | submissionError session => rfl

-- Reading the state leaves the comparison of the two revisions, which `change` brings out.
theorem complete_recalculation_current (page : Page) (ticket : Ticket) (quote : Quote)
    (session : Session) (loaded : page.state = .loaded session)
    (current : ticket.revision = session.revision) :
    (completeRecalculation ticket quote).run page =
      .ok true (page.showing { session with quote := quote }) := by
  obtain ⟨event, state, snapshot, published⟩ := page
  cases loaded
  change (if ticket.revision = session.revision then _ else _ : Step Bool).run _ = _
  rw [if_pos current]
  rfl

theorem complete_recalculation_stale (page : Page) (ticket : Ticket) (quote : Quote)
    (session : Session) (loaded : page.state = .loaded session)
    (stale : ticket.revision ≠ session.revision) :
    (completeRecalculation ticket quote).run page = .ok false page := by
  obtain ⟨event, state, snapshot, published⟩ := page
  cases loaded
  change (if ticket.revision = session.revision then _ else _ : Step Bool).run _ = _
  rw [if_neg stale]
  rfl

theorem complete_recalculation_closed (page : Page) (ticket : Ticket) (quote : Quote)
    (closed : ∀ session, page.state ≠ .loaded session) :
    (completeRecalculation ticket quote).run page = .ok false page := by
  obtain ⟨event, state, snapshot, published⟩ := page
  cases state with
  | loaded session => exact absurd rfl (closed session)
  | fetching => rfl
  | submitting session => rfl
  | submitted session => rfl
  | submissionError session => rfl

theorem submit_loaded (page : Page) (session : Session)
    (send : Submission → Except TransportError Receipt) (loaded : page.state = .loaded session) :
    (submit send).run page =
      .ok ((conclusion session (send ⟨session.form, session.quote⟩)).status,
          some ⟨session.form, session.quote⟩)
        (page.enter (conclusion session (send ⟨session.form, session.quote⟩))) := by
  rw [submit, EStateM.run_bind, begin_submit_loaded page session loaded]
  dsimp only
  rw [EStateM.run_bind, finish_submit_submitting (page.enter (.submitting session)) session _ rfl]
  rfl

theorem submit_submitting (page : Page) (session : Session)
    (send : Submission → Except TransportError Receipt)
    (submitting : page.state = .submitting session) :
    (submit send).run page = .ok (.submitting, none) page := by
  rw [submit, EStateM.run_bind, begin_submit_submitting page session submitting]
  obtain ⟨event, state, snapshot, published⟩ := page
  cases submitting
  rfl

theorem submit_refused (page : Page) (send : Submission → Except TransportError Receipt)
    (closed : ∀ session, page.state ≠ .loaded session)
    (idle : ∀ session, page.state ≠ .submitting session) :
    (submit send).run page = .error (.invalidTransition .submit page.status) page := by
  rw [submit, EStateM.run_bind, begin_submit_refused page closed idle]

end Tariff.Page
