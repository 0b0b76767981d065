import Tariff.Proofs.Page.History

set_option autoImplicit false

namespace Tariff.Page

namespace History

theorem run_issued (operations : List Operation) (history : History) (ticket : Ticket)
    (member : .issued ticket ∈ (history.run operations).replies) :
    .issued ticket ∈ history.replies ∨
      ∃ before after session, operations = before ++ .beginRecalculation :: after ∧
        (history.run before).page.state = .loaded session ∧
        ticket = ⟨session.revision, session.rules, session.form⟩ := by
  induction operations generalizing history with
  | nil => exact .inl member
  | cons operation rest ih =>
      rcases ih (history.perform operation) member with
        earlier | ⟨before, after, session, split, loaded, same⟩
      · rcases List.mem_append.mp earlier with old | new
        · exact .inl old
        · have reply := List.mem_singleton.mp new
          have move := perform_move history.page operation
          rw [← reply] at move
          generalize (history.page.perform operation).1 = next at move
          cases move with
          | refused refusal => cases refusal
          | @issued session loaded => exact .inr ⟨[], rest, session, rfl, loaded, rfl⟩
      · exact .inr ⟨operation :: before, after, session, by rw [split, List.cons_append], loaded, same⟩

end History

theorem applied_move {page : Page} {ticket : Ticket} {quote : Quote}
    (accepted : (page.perform (.completeRecalculation ticket quote)).2 = .applied true) :
    ∃ session, page.state = .loaded session ∧ ticket.revision = session.revision ∧
      (page.perform (.completeRecalculation ticket quote)).1 =
        page.showing { session with quote := quote } := by
  have move := perform_move page (.completeRecalculation ticket quote)
  rw [accepted] at move
  generalize (page.perform (.completeRecalculation ticket quote)).1 = next at move ⊢
  cases move with
  | refused refusal => cases refusal
  | @renewed _ _ session loaded current => exact ⟨session, loaded, current, rfl⟩

namespace History

/-- Only the revision decides, and what the page shows afterwards is right exactly if it is what it has
shown before. -/
theorem accepted_ticket_shows_issuer_price (event : String) (operations : List Operation)
    (ticket : Ticket) (issued : .issued ticket ∈ ((start event).run operations).replies)
    (page : Page) (session : Session) (shown : page.session? = some session)
    (priced : session.quote = session.rules.price session.form) :
    let completed := page.perform (.completeRecalculation ticket ticket.compute)
    (completed.2 = .applied true ↔
        page.state = .loaded session ∧ ticket.revision = session.revision) ∧
      (completed.2 = .applied true →
        ∃ before after issuer renewed, operations = before ++ .beginRecalculation :: after ∧
          ((start event).run before).page.session? = some issuer ∧
          issuer.revision = session.revision ∧
          completed.1.session? = some renewed ∧
          renewed = { session with quote := issuer.rules.price issuer.form } ∧
          (renewed.quote = renewed.rules.price renewed.form ↔
            issuer.rules.price issuer.form = session.quote)) := by
  intro completed
  refine ⟨⟨fun accepted => ?_, fun ⟨loaded, current⟩ => ?_⟩, fun accepted => ?_⟩
  · obtain ⟨own, loaded, current, _⟩ := applied_move accepted
    cases (session_loaded loaded).symm.trans shown
    exact ⟨loaded, current⟩
  · have done := complete_recalculation_current page ticket ticket.compute session loaded current
    exact congrArg Prod.snd (answered_ok done)
  · rcases run_issued operations (start event) ticket issued with
      early | ⟨before, after, issuer, split, issuing, same⟩
    · cases early
    · obtain ⟨own, loaded, current, next⟩ := applied_move accepted
      cases (session_loaded loaded).symm.trans shown
      subst same
      refine ⟨before, after, issuer, _, split, session_loaded issuing, current, ?_, rfl, ?_⟩
      · simp only [completed, next]
        exact session_loaded (showing_state page _)
      · rw [priced]

def secondCamper : Form := Form.fresh.addCamper .empty

def secondCamperTicket : Ticket := ⟨2, flatFeeRules, secondCamper⟩

-- A page is left with a ticket on its way, and the next one for the event has been edited as often.
def abandoned : List Operation := [.finishFetch flatFee, .addCamper, .beginRecalculation]

def reopened (change : Form → Form) : Page :=
  ((start "camp").run [.finishFetch flatFee, .edit change]).page

theorem accepted_ticket_shows_issuer_price_same_edits :
    let page := reopened fun form => form.addCamper .empty
    .issued secondCamperTicket ∈ ((start "camp").run abandoned).replies ∧
      ∃ session, page.session? = some session ∧
        session.quote = session.rules.price session.form ∧
        (page.perform (.completeRecalculation secondCamperTicket secondCamperTicket.compute)).2 =
          .applied true ∧
        ∃ renewed, (page.perform (.completeRecalculation secondCamperTicket
            secondCamperTicket.compute)).1.session? = some renewed ∧
          renewed.quote = renewed.rules.price renewed.form := by
  intro page
  have issued : .issued secondCamperTicket ∈ ((start "camp").run abandoned).replies :=
    .tail _ (.tail _ (.head _))
  obtain ⟨acceptance, shown⟩ := accepted_ticket_shows_issuer_price "camp" abandoned
    secondCamperTicket issued page _ rfl rfl
  have accepted := acceptance.mpr ⟨rfl, rfl⟩
  obtain ⟨before, after, issuer, renewed, split, issuing, _, later, _, right⟩ := shown accepted
  refine ⟨issued, _, rfl, rfl, accepted, renewed, later, right.mpr ?_⟩
  match before with
  | [] => cases split
  | [first] => cases split
  | [first, second] =>
      cases split
      cases issuing
      rfl
  | first :: second :: third :: more => cases more <;> cases split

theorem foreign_ticket_replaces_price :
    let page := reopened fun form => form.setField "club" (.string "owls")
    .issued secondCamperTicket ∈ ((start "camp").run abandoned).replies ∧
      ∃ session, page.session? = some session ∧
        session.quote = session.rules.price session.form ∧
        (page.perform (.completeRecalculation secondCamperTicket secondCamperTicket.compute)).2 =
          .applied true ∧
        ∃ renewed, (page.perform (.completeRecalculation secondCamperTicket
            secondCamperTicket.compute)).1.session? = some renewed ∧
          renewed.quote ≠ renewed.rules.price renewed.form := by
  refine ⟨.tail _ (.tail _ (.head _)), _, rfl, rfl, rfl, _, rfl, fun same => ?_⟩
  have campers : 2 = 1 := congrArg (fun quote : Quote => quote.campers.length) same
  cases campers

end History

end Tariff.Page
