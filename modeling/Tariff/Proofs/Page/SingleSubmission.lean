import Tariff.Proofs.Page.LiveTotals
import Tariff.Proofs.Pricing.Acceptance

set_option autoImplicit false

namespace Tariff.Page

def Reply.submission? : Reply → Option Submission
  | .payload submission => submission
  | .status _ sent => sent
  | _ => none

def State.isSent : State → Bool
  | .fetching => false
  | .loaded _ => false
  | .submitting _ => true
  | .submitted _ => true
  | .submissionError _ => true

theorem conclusion_is_sent (session : Session) (outcome : Except TransportError Receipt) :
    (conclusion session outcome).isSent = true := by
  rcases conclusion_either session outcome with same | same
  · rw [same]
    rfl
  · rw [same]
    rfl

theorem refusal_no_submission {reply : Reply} (refusal : reply.isRefusal = true) :
    reply.submission? = none := by
  cases reply with
  | payload submission =>
      cases submission with
      | none => rfl
      | some submission => cases refusal
  | status status sent => cases refusal
  | _ => rfl

theorem sent_not_loaded {state : State} {session : Session} (sent : state.isSent = true)
    (loaded : state = .loaded session) : False := by
  subst loaded
  cases sent

theorem sent_move_keeps {page next : Page} {operation : Operation} {reply : Reply}
    (move : Move page operation next reply) (sent : page.state.isSent = true) :
    next.session? = page.session? ∧ next.state.isSent = true ∧ reply.submission? = none := by
  cases move with
  | refused refusal => exact ⟨rfl, sent, refusal_no_submission refusal⟩
  | opened fetching usable =>
      rw [fetching] at sent
      cases sent
  | repriced loaded => exact (sent_not_loaded sent loaded).elim
  | issued loaded => exact (sent_not_loaded sent loaded).elim
  | renewed loaded current => exact (sent_not_loaded sent loaded).elim
  | sent loaded => exact (sent_not_loaded sent loaded).elim
  | @concluded outcome session submitting =>
      have found : page.session? = some session := by
        rw [session?, submitting]
        rfl
      exact ⟨(conclusion_session session outcome).trans found.symm,
        conclusion_is_sent session outcome, rfl⟩
  | awaited submitting => exact ⟨rfl, sent, rfl⟩
  | submitted loaded => exact (sent_not_loaded sent loaded).elim

theorem submission_move {page next : Page} {operation : Operation} {reply : Reply}
    {submission : Submission} (move : Move page operation next reply)
    (handed : reply.submission? = some submission) :
    ∃ session, page.state = .loaded session ∧ submission = ⟨session.form, session.quote⟩ ∧
      next.session? = some session ∧ next.state.isSent = true := by
  cases move with
  | refused refusal =>
      rw [refusal_no_submission refusal] at handed
      cases handed
  | opened fetching usable => cases handed
  | repriced loaded => cases handed
  | issued loaded => cases handed
  | renewed loaded current => cases handed
  | @sent session loaded =>
      cases handed
      exact ⟨session, loaded, rfl, rfl, rfl⟩
  | concluded submitting => cases handed
  | awaited submitting => cases handed
  | @submitted send session loaded =>
      cases handed
      exact ⟨session, loaded, rfl, conclusion_session session _, conclusion_is_sent session _⟩

theorem unsent_move_silent {page next : Page} {operation : Operation} {reply : Reply}
    (move : Move page operation next reply) (unsent : next.state.isSent = false) :
    page.state.isSent = false ∧ reply.submission? = none := by
  have before : page.state.isSent = false := by
    cases sent : page.state.isSent with
    | false => rfl
    | true =>
        have kept := (sent_move_keeps move sent).2.1
        rw [unsent] at kept
        cases kept
  refine ⟨before, ?_⟩
  cases handed : reply.submission? with
  | none => rfl
  | some submission =>
      obtain ⟨_, _, _, _, sent⟩ := submission_move move handed
      rw [unsent] at sent
      cases sent

namespace History

def submissions (history : History) : List Submission :=
  history.replies.filterMap Reply.submission?

theorem perform_submissions (history : History) (operation : Operation) :
    (history.perform operation).submissions =
      history.submissions ++ ((history.page.perform operation).2.submission?).toList := by
  unfold submissions perform
  rw [List.filterMap_append]
  cases handed : (history.page.perform operation).2.submission? with
  | none => rw [List.filterMap_cons_none handed]; rfl
  | some submission => rw [List.filterMap_cons_some handed]; rfl

theorem unsent_no_submissions (event : String) (operations : List Operation) :
    ((start event).run operations).page.state.isSent = false →
      ((start event).run operations).submissions = [] := by
  refine run_keeps (fun history => history.page.state.isSent = false → history.submissions = [])
    ?_ operations (start event) (fun _ => rfl)
  intro history operation before unsent
  obtain ⟨open', silent⟩ := unsent_move_silent (perform_move history.page operation) unsent
  rw [perform_submissions, before open', silent]
  rfl

theorem sent_run_keeps (session : Session) (submissions : List Submission)
    (operations : List Operation) (history : History) (sent : history.page.state.isSent = true)
    (held : history.page.session? = some session) (earlier : history.submissions = submissions) :
    (history.run operations).page.session? = some session ∧
      (history.run operations).submissions = submissions := by
  have kept := run_keeps
    (fun history => history.page.state.isSent = true ∧ history.page.session? = some session ∧
      history.submissions = submissions) ?_ operations history ⟨sent, held, earlier⟩
  · exact kept.2
  · intro history operation ⟨sent, held, earlier⟩
    obtain ⟨sameSession, stillSent, silent⟩ :=
      sent_move_keeps (perform_move history.page operation) sent
    refine ⟨stillSent, sameSession.trans held, ?_⟩
    rw [perform_submissions, earlier, silent]
    exact List.append_nil submissions

/-- `before` ends where the submission is handed out; what follows need not be genuine. -/
theorem submission_once_and_final (event : String) (before after : List Operation)
    (operation : Operation) (submission : Submission)
    (genuine : (start event).GenuineRun before)
    (handed : (((start event).run before).page.perform operation).2.submission? =
      some submission) :
    ∃ session, ((start event).run before).page.session? = some session ∧
      submission = ⟨session.form, session.quote⟩ ∧
      session.rules.verify submission = .ok submission.quote ∧
      ((start event).run (before ++ operation :: after)).submissions = [submission] ∧
      ((start event).run (before ++ operation :: after)).page.session? = some session := by
  have consistent := run_consistent event before genuine
  have none := unsent_no_submissions event before
  rw [run_append]
  generalize (start event).run before = history at consistent none handed ⊢
  obtain ⟨session, loaded, same, held, sent⟩ :=
    submission_move (perform_move history.page operation) handed
  have found := session_loaded loaded
  -- The page was open until here, so nothing has been handed out before.
  have first : (history.perform operation).submissions = [submission] := by
    rw [perform_submissions, none (by rw [loaded]; rfl), handed]
    rfl
  have later := sent_run_keeps session [submission] after (history.perform operation) sent held first
  refine ⟨session, found, same, ?_, later.2, later.1⟩
  rw [same, consistent.priced session found]
  exact session.rules.verify_priced session.form

def offlineSubmission : Submission :=
  ⟨Form.fresh.addCamper .empty, flatFeeRules.price (Form.fresh.addCamper .empty)⟩

-- Sending fails, and whatever is tried afterwards is in vain, also a result made up for a ticket.
theorem submission_once_and_final_offline :
    let before := [.finishFetch flatFee, .addCamper]
    let operation := .submit fun _ => .error (.request "offline")
    let after := [.addCamper, .completeRecalculation ⟨2, flatFeeRules, .empty⟩ .empty, .beginSubmit]
    (start "camp").GenuineRun before ∧
      (((start "camp").run before).page.perform operation).2.submission? =
        some offlineSubmission ∧
      ∃ session, ((start "camp").run before).page.session? = some session ∧
        offlineSubmission = ⟨session.form, session.quote⟩ ∧
        session.rules.verify offlineSubmission = .ok offlineSubmission.quote ∧
        ((start "camp").run (before ++ operation :: after)).submissions = [offlineSubmission] ∧
        ((start "camp").run (before ++ operation :: after)).page.session? = some session := by
  intro before operation after
  have genuine : (start "camp").GenuineRun before := ⟨trivial, trivial, trivial⟩
  exact ⟨genuine, rfl,
    submission_once_and_final "camp" before after operation offlineSubmission genuine rfl⟩

end History

end Tariff.Page
