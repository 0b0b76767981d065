import Tariff.Proofs.Page.History

set_option autoImplicit false

namespace Tariff.Page

-- Does an answer say that the page has a new revision?
def Reply.isEdit : Reply → Bool
  | .opened => true
  | .priced _ => true
  | _ => false

def Reply.ticket? : Reply → Option Ticket
  | .issued ticket => some ticket
  | _ => none

namespace History

def edits (history : History) : Nat := history.replies.countP Reply.isEdit

-- Before the page is opened its snapshot is the initial one, so `counted` and `issued` speak of the
-- snapshot and not of a session.
structure Consistent (history : History) : Prop where
  priced : ∀ session, history.page.session? = some session →
    session.quote = session.rules.price session.form
  published : ∀ session, history.page.session? = some session →
    history.page.snapshot = session.snapshot
  counted : history.page.snapshot.revision = history.edits
  issued : ∀ ticket, .issued ticket ∈ history.replies →
    ticket.revision ≤ history.page.snapshot.revision
  current : ∀ ticket session, .issued ticket ∈ history.replies →
    history.page.session? = some session → ticket.revision = session.revision →
    ticket.rules = session.rules ∧ ticket.form = session.form

theorem start_consistent (event : String) : (start event).Consistent where
  priced := by intro session found; cases found
  published := by intro session found; cases found
  counted := rfl
  issued := by intro ticket member; cases member
  current := by intro ticket session member; cases member

theorem edits_answered (history : History) (next : Page) (reply : Reply) :
    (⟨next, history.replies ++ [reply]⟩ : History).edits =
      history.edits + if reply.isEdit then 1 else 0 := by
  simp only [edits, List.countP_append, List.countP_singleton]

theorem earlier_ticket (history : History) (reply : Reply) (ticket : Ticket)
    (noTicket : reply.ticket? = none)
    (member : .issued ticket ∈ history.replies ++ [reply]) : .issued ticket ∈ history.replies := by
  rcases List.mem_append.mp member with earlier | last
  · exact earlier
  · cases List.mem_singleton.mp last
    cases noTicket

theorem consistent_kept (history : History) (next : Page) (reply : Reply)
    (before : history.Consistent) (sameSession : next.session? = history.page.session?)
    (sameSnapshot : next.snapshot = history.page.snapshot) (noEdit : reply.isEdit = false)
    (noTicket : reply.ticket? = none) :
    (⟨next, history.replies ++ [reply]⟩ : History).Consistent where
  priced := by
    intro session found
    exact before.priced session (sameSession.symm.trans found)
  published := by
    intro session found
    exact sameSnapshot.trans (before.published session (sameSession.symm.trans found))
  counted := by
    rw [edits_answered, noEdit]
    exact (congrArg Snapshot.revision sameSnapshot).trans before.counted
  issued := by
    intro ticket member
    rw [sameSnapshot]
    exact before.issued ticket (earlier_ticket history reply ticket noTicket member)
  current := by
    intro ticket session member found same
    exact before.current ticket session (earlier_ticket history reply ticket noTicket member)
      (sameSession.symm.trans found) same

-- A new revision is above that of every ticket, so no ticket speaks for it yet.
theorem consistent_advanced (history : History) (session : Session) (reply : Reply)
    (before : history.Consistent)
    (newer : session.revision = history.page.snapshot.revision + 1)
    (priced : session.quote = session.rules.price session.form) (isEdit : reply.isEdit = true)
    (noTicket : reply.ticket? = none) :
    (⟨history.page.showing session, history.replies ++ [reply]⟩ : History).Consistent := by
  have shown : (history.page.showing session).session? = some session := by
    rw [session?, showing_state]
    rfl
  have snapshot : (history.page.showing session).snapshot = session.snapshot :=
    showing_snapshot history.page session (by omega)
  refine ⟨?_, ?_, ?_, ?_, ?_⟩
  · intro other found
    cases shown.symm.trans found
    exact priced
  · intro other found
    cases shown.symm.trans found
    exact snapshot
  · rw [edits_answered, isEdit, snapshot, ← before.counted]
    exact newer
  · intro ticket member
    have older := before.issued ticket (earlier_ticket history reply ticket noTicket member)
    rw [snapshot]
    change ticket.revision ≤ session.revision
    omega
  · intro ticket other member found same
    cases shown.symm.trans found
    have older := before.issued ticket (earlier_ticket history reply ticket noTicket member)
    omega

theorem consistent_issued (history : History) (session : Session) (before : history.Consistent)
    (found : history.page.session? = some session) :
    (⟨history.page, history.replies ++
      [.issued ⟨session.revision, session.rules, session.form⟩]⟩ : History).Consistent where
  priced := before.priced
  published := before.published
  counted := by
    rw [edits_answered]
    exact before.counted
  issued := by
    intro ticket member
    rcases List.mem_append.mp member with earlier | last
    · exact before.issued ticket earlier
    · cases List.mem_singleton.mp last
      rw [before.published session found]
      exact Nat.le_refl session.revision
  current := by
    intro ticket other member shown same
    rcases List.mem_append.mp member with earlier | last
    · exact before.current ticket other earlier shown same
    · cases List.mem_singleton.mp last
      cases found.symm.trans shown
      exact ⟨rfl, rfl⟩

theorem refusal_silent {reply : Reply} (refusal : reply.isRefusal = true) :
    reply.isEdit = false ∧ reply.ticket? = none := by
  cases reply with
  | opened => cases refusal
  | priced quote => cases refusal
  | issued ticket => cases refusal
  | _ => exact ⟨rfl, rfl⟩

theorem perform_consistent (history : History) (operation : Operation)
    (genuine : history.Genuine operation) (before : history.Consistent) :
    (history.perform operation).Consistent := by
  have move := perform_move history.page operation
  unfold perform
  generalize (history.page.perform operation).1 = next at move ⊢
  generalize (history.page.perform operation).2 = reply at move ⊢
  cases move with
  | refused refusal =>
      obtain ⟨noEdit, noTicket⟩ := refusal_silent refusal
      exact consistent_kept history history.page reply before rfl rfl noEdit noTicket
  | opened fetching usable =>
      exact consistent_advanced history _ .opened before rfl rfl rfl rfl
  | @repriced _ session form loaded =>
      have found := session_loaded loaded
      refine consistent_advanced history (reprice session form) _ before ?_ rfl rfl rfl
      rw [before.published session found]
      rfl
  | @issued session loaded => exact consistent_issued history session before (session_loaded loaded)
  | @renewed ticket quote session loaded current =>
      -- The ticket speaks for the form that is shown, so its result is the quote that is there already.
      obtain ⟨member, computed⟩ := genuine
      have found := session_loaded loaded
      obtain ⟨sameRules, sameForm⟩ := before.current ticket session member found current
      have same : quote = session.quote := by
        rw [computed, Ticket.compute, sameRules, sameForm, before.priced session found]
      subst same
      have snapshot : (history.page.showing session).snapshot = history.page.snapshot := by
        have published := before.published session found
        rw [showing_snapshot history.page session (Nat.le_of_eq (congrArg Snapshot.revision published)),
          published]
      refine consistent_kept history _ _ before ?_ snapshot rfl rfl
      rw [found]
      exact session_loaded (showing_state history.page session)
  | @sent session loaded =>
      refine consistent_kept history _ _ before ?_ rfl rfl rfl
      exact (session_loaded loaded).symm
  | @concluded outcome session submitting =>
      refine consistent_kept history _ _ before ?_ rfl rfl rfl
      rw [session?, session?, submitting]
      exact conclusion_session session outcome
  | awaited submitting =>
      exact consistent_kept history history.page _ before rfl rfl rfl rfl
  | @submitted send session loaded =>
      refine consistent_kept history _ _ before ?_ rfl rfl rfl
      rw [session_loaded loaded]
      exact conclusion_session session _

theorem run_consistent (event : String) (operations : List Operation)
    (genuine : (start event).GenuineRun operations) : ((start event).run operations).Consistent :=
  genuine_run_keeps Consistent perform_consistent operations (start event) genuine
    (start_consistent event)

/-- The revision of a page counts its opening and its edits, so it fits in a word of 64 bits for as
long as there are fewer than `2 ^ 64` of them. -/
theorem live_totals_match_form (event : String) (operations : List Operation)
    (genuine : (start event).GenuineRun operations) (session : Session)
    (shown : ((start event).run operations).page.session? = some session) :
    session.quote = session.rules.price session.form ∧
      ((start event).run operations).page.snapshot =
        ⟨session.revision, session.quote, session.form.camperCount⟩ ∧
      session.revision = ((start event).run operations).edits := by
  have consistent := run_consistent event operations genuine
  have published := consistent.published session shown
  refine ⟨consistent.priced session shown, published, ?_⟩
  rw [← consistent.counted, published]
  rfl

def ticketAt (revision : Nat) (form : Form) : Ticket := ⟨revision, flatFeeRules, form⟩

-- The first ticket comes back after an edit, the second one twice.
def lateCompletions : List Operation :=
  let early := ticketAt 1 .fresh
  let current := ticketAt 2 (Form.fresh.addCamper .empty)
  [.finishFetch flatFee, .beginRecalculation, .addCamper,
    .completeRecalculation early early.compute, .beginRecalculation,
    .completeRecalculation current current.compute,
    .completeRecalculation current current.compute]

theorem live_totals_match_form_late_completions :
    (start "camp").GenuineRun lateCompletions ∧
      ∃ session, ((start "camp").run lateCompletions).page.session? = some session ∧
        session.quote = session.rules.price session.form ∧
        ((start "camp").run lateCompletions).page.snapshot =
          ⟨session.revision, session.quote, session.form.camperCount⟩ ∧
        session.revision = ((start "camp").run lateCompletions).edits := by
  have first : .issued (ticketAt 1 .fresh) ∈
      ((start "camp").run (lateCompletions.take 3)).replies := .tail _ (.head _)
  have second : .issued (ticketAt 2 (Form.fresh.addCamper .empty)) ∈
      ((start "camp").run (lateCompletions.take 5)).replies :=
    .tail _ (.tail _ (.tail _ (.tail _ (.head _))))
  have third : .issued (ticketAt 2 (Form.fresh.addCamper .empty)) ∈
      ((start "camp").run (lateCompletions.take 6)).replies :=
    List.mem_append_left _ second
  have genuine : (start "camp").GenuineRun lateCompletions :=
    ⟨trivial, trivial, trivial, ⟨first, rfl⟩, trivial, ⟨second, rfl⟩, ⟨third, rfl⟩, trivial⟩
  exact ⟨genuine, _, rfl, live_totals_match_form "camp" lateCompletions genuine _ rfl⟩

end History

end Tariff.Page
