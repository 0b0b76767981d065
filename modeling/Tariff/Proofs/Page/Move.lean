import Tariff.Proofs.Page.Step

/-! Every operation is one of these moves. What is said of pages elsewhere rests on them, not on how the
steps are written. -/

set_option autoImplicit false

namespace Tariff.Page

def Reply.isRefusal : Reply → Bool
  | .failed _ => true
  | .payload none => true
  | .applied false => true
  | _ => false

-- The answer is part of a move: what a history has been told says what was done to its page.
inductive Move (page : Page) : Operation → Page → Reply → Prop where
  | refused {operation : Operation} {reply : Reply} (refusal : reply.isRefusal = true) :
      Move page operation page reply
  | opened {operation : Operation} {configuration : Configuration} {rules : RuleSet}
      (fetching : page.state = .fetching)
      (usable : RuleSet.ofConfiguration configuration = .ok rules) :
      Move page operation
        (page.showing (openSession configuration rules (page.snapshot.revision + 1))) .opened
  | repriced {operation : Operation} {session : Session} {form : Form}
      (loaded : page.state = .loaded session) :
      Move page operation (page.showing (reprice session form))
        (.priced (session.rules.price form))
  | issued {session : Session} (loaded : page.state = .loaded session) :
      Move page .beginRecalculation page
        (.issued ⟨session.revision, session.rules, session.form⟩)
  | renewed {ticket : Ticket} {quote : Quote} {session : Session}
      (loaded : page.state = .loaded session) (current : ticket.revision = session.revision) :
      Move page (.completeRecalculation ticket quote) (page.showing { session with quote := quote })
        (.applied true)
  | sent {session : Session} (loaded : page.state = .loaded session) :
      Move page .beginSubmit (page.enter (.submitting session))
        (.payload (some ⟨session.form, session.quote⟩))
  | concluded {outcome : Except TransportError Receipt} {session : Session}
      (submitting : page.state = .submitting session) :
      Move page (.finishSubmit outcome) (page.enter (conclusion session outcome))
        (.status (conclusion session outcome).status none)
  | awaited {send : Submission → Except TransportError Receipt} {session : Session}
      (submitting : page.state = .submitting session) :
      Move page (.submit send) page (.status .submitting none)
  | submitted {send : Submission → Except TransportError Receipt} {session : Session}
      (loaded : page.state = .loaded session) :
      Move page (.submit send)
        (page.enter (conclusion session (send ⟨session.form, session.quote⟩)))
        (.status (conclusion session (send ⟨session.form, session.quote⟩)).status
          (some ⟨session.form, session.quote⟩))

section

variable {α : Type} {page next : Page} {step other : Step α} {reply : α → Reply}

theorem answered_ok {value : α} (done : step.run page = .ok value next) :
    page.answered step reply = (next, reply value) := by
  rw [answered, done]

theorem answered_error {error : Error} (undone : step.run page = .error error next) :
    page.answered step reply = (next, .failed error) := by
  rw [answered, undone]

theorem answered_congr (same : step.run page = other.run page) :
    page.answered step reply = page.answered other reply := by
  rw [answered, answered, same]

theorem answered_refused {operation : Operation} {error : Error}
    (undone : step.run page = .error error page) :
    Move page operation (page.answered step reply).1 (page.answered step reply).2 := by
  rw [answered_error undone]
  exact .refused rfl

end

theorem finish_fetch_move (page : Page) (operation : Operation) (configuration : Configuration) :
    Move page operation (page.answered (finishFetch configuration) fun _ => .opened).1
      (page.answered (finishFetch configuration) fun _ => .opened).2 := by
  by_cases fetching : page.state = .fetching
  · cases usable : RuleSet.ofConfiguration configuration with
    | error error =>
        have undone : (finishFetch configuration).run page = .error (.rules error) page := by
          rw [finishFetch, require_fetching_passed page _ fetching, usable]
          rfl
        exact answered_refused undone
    | ok rules =>
        have done : (finishFetch configuration).run page =
            .ok () (page.showing (openSession configuration rules (page.snapshot.revision + 1))) := by
          -- The prices are published before the state is entered, the other way round than in an edit.
          rw [finishFetch, require_fetching_passed page _ fetching, usable, showing, ← enter_publish]
          rfl
        rw [answered_ok done]
        exact .opened fetching usable
  · exact answered_refused (require_fetching_refused page _ fetching)

theorem load_move (page : Page) (operation : Operation)
    (fetched : Except TransportError Configuration) :
    Move page operation (page.answered (load fetched) fun _ => .opened).1
      (page.answered (load fetched) fun _ => .opened).2 := by
  unfold load
  by_cases fetching : page.state = .fetching
  · rw [answered_congr (require_fetching_passed page _ fetching)]
    cases fetched with
    | error error => exact answered_refused rfl
    | ok configuration => exact finish_fetch_move page operation configuration
  · exact answered_refused (require_fetching_refused page _ fetching)

theorem change_form_move (page : Page) (operation : Operation) (form : Form) :
    Move page operation (page.answered (changeForm form) .priced).1
      (page.answered (changeForm form) .priced).2 := by
  cases found : page.state with
  | loaded session =>
      have done : (changeForm form).run page =
          .ok (session.rules.price form) (page.showing (reprice session form)) :=
        loaded_session_passed page .edit _ session found
      rw [answered_ok done]
      exact .repriced found
  | _ => exact answered_refused (loaded_session_refused page _ _ (by simp [found]))

theorem edit_move (page : Page) (operation : Operation) (change : Form → Form) :
    Move page operation (page.answered (edit change) .priced).1
      (page.answered (edit change) .priced).2 := by
  unfold edit
  cases found : page.state with
  | loaded session =>
      rw [answered_congr (loaded_session_passed page .edit _ session found)]
      exact change_form_move page operation (change session.form)
  | _ => exact answered_refused (loaded_session_refused page _ _ (by simp [found]))

theorem remove_camper_move (page : Page) (operation : Operation) (index : Nat) :
    Move page operation (page.answered (removeCamper index) .priced).1
      (page.answered (removeCamper index) .priced).2 := by
  unfold removeCamper
  cases found : page.state with
  | loaded session =>
      rw [answered_congr (loaded_session_passed page .edit _ session found)]
      by_cases missing : session.form.camperCount ≤ index
      · rw [if_pos missing]
        exact answered_refused rfl
      · rw [if_neg missing]
        exact edit_move page operation _
  | _ => exact answered_refused (loaded_session_refused page _ _ (by simp [found]))

theorem begin_recalculation_move (page : Page) :
    Move page .beginRecalculation (page.answered beginRecalculation .issued).1
      (page.answered beginRecalculation .issued).2 := by
  cases found : page.state with
  | loaded session =>
      have done : beginRecalculation.run page =
          .ok ⟨session.revision, session.rules, session.form⟩ page :=
        loaded_session_passed page .recalculate _ session found
      rw [answered_ok done]
      exact .issued found
  | _ => exact answered_refused (loaded_session_refused page _ _ (by simp [found]))

theorem complete_recalculation_move (page : Page) (ticket : Ticket) (quote : Quote) :
    Move page (.completeRecalculation ticket quote)
      (page.answered (completeRecalculation ticket quote) .applied).1
      (page.answered (completeRecalculation ticket quote) .applied).2 := by
  cases found : page.state with
  | loaded session =>
      by_cases current : ticket.revision = session.revision
      · rw [answered_ok (complete_recalculation_current page ticket quote session found current)]
        exact .renewed found current
      · rw [answered_ok (complete_recalculation_stale page ticket quote session found current)]
        exact .refused rfl
  | _ =>
      rw [answered_ok (complete_recalculation_closed page ticket quote (by simp [found]))]
      exact .refused rfl

theorem begin_submit_move (page : Page) :
    Move page .beginSubmit (page.answered beginSubmit .payload).1
      (page.answered beginSubmit .payload).2 := by
  cases found : page.state with
  | loaded session =>
      rw [answered_ok (begin_submit_loaded page session found)]
      exact .sent found
  | submitting session =>
      rw [answered_ok (begin_submit_submitting page session found)]
      exact .refused rfl
  | _ => exact answered_refused (begin_submit_refused page (by simp [found]) (by simp [found]))

theorem finish_submit_move (page : Page) (outcome : Except TransportError Receipt) :
    Move page (.finishSubmit outcome)
      (page.answered (finishSubmit outcome) fun status => .status status none).1
      (page.answered (finishSubmit outcome) fun status => .status status none).2 := by
  cases found : page.state with
  | submitting session =>
      rw [answered_ok (finish_submit_submitting page session outcome found)]
      exact .concluded found
  | _ => exact answered_refused (finish_submit_refused page outcome (by simp [found]))

theorem submit_move (page : Page) (send : Submission → Except TransportError Receipt) :
    Move page (.submit send)
      (page.answered (submit send) fun (status, sent) => .status status sent).1
      (page.answered (submit send) fun (status, sent) => .status status sent).2 := by
  cases found : page.state with
  | loaded session =>
      rw [answered_ok (submit_loaded page session send found)]
      exact .submitted found
  | submitting session =>
      rw [answered_ok (submit_submitting page session send found)]
      exact .awaited found
  | _ => exact answered_refused (submit_refused page send (by simp [found]) (by simp [found]))

theorem perform_move (page : Page) (operation : Operation) :
    Move page operation (page.perform operation).1 (page.perform operation).2 := by
  cases operation with
  | load source => exact load_move page _ source.fetch
  | finishFetch configuration => exact finish_fetch_move page _ configuration
  | changeForm form => exact change_form_move page _ form
  | edit change => exact edit_move page _ change
  | addCamper => exact edit_move page _ _
  | removeCamper index => exact remove_camper_move page _ index
  | beginRecalculation => exact begin_recalculation_move page
  | completeRecalculation ticket quote => exact complete_recalculation_move page ticket quote
  | beginSubmit => exact begin_submit_move page
  | finishSubmit outcome => exact finish_submit_move page outcome
  | submit send => exact submit_move page send

end Tariff.Page
