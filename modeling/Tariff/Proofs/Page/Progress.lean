import Mathlib.Logic.Relation
import Tariff.Proofs.Page.History

set_option autoImplicit false

namespace Tariff

namespace Status

inductive Next : Status → Status → Prop where
  | opened : Next .fetching .loaded
  | sent : Next .loaded .submitting
  | accepted : Next .submitting .submitted
  | rejected : Next .submitting .submissionError

def Leads : Status → Status → Prop := Relation.ReflTransGen Next

-- The two outcomes have one rank, so that neither leads to the other.
def rank : Status → Nat
  | .fetching => 0
  | .loaded => 1
  | .submitting => 2
  | .submitted => 3
  | .submissionError => 3

theorem next_rank {first second : Status} (next : Next first second) :
    first.rank < second.rank := by
  cases next with
  | opened => decide
  | sent => decide
  | accepted => decide
  | rejected => decide

theorem leads_rank {first second : Status} (leads : first.Leads second) :
    first = second ∨ first.rank < second.rank := by
  induction leads with
  | refl => exact .inl rfl
  | tail _ next ih =>
      have step := next_rank next
      rcases ih with same | before
      · exact .inr (same ▸ step)
      · exact .inr (Nat.lt_trans before step)

theorem leads_back {first second : Status} (forth : first.Leads second)
    (back : second.Leads first) : second = first := by
  rcases leads_rank forth with same | before
  · exact same.symm
  · rcases leads_rank back with same | after
    · exact same
    · exact absurd (Nat.lt_trans before after) (Nat.lt_irrefl first.rank)

end Status

namespace Page

theorem conclusion_next (session : Session) (outcome : Except TransportError Receipt) :
    Status.Next .submitting (conclusion session outcome).status := by
  rcases conclusion_either session outcome with same | same
  · rw [same]
    exact .accepted
  · rw [same]
    exact .rejected

theorem refusal_move {page next : Page} {operation : Operation} {reply : Reply}
    (move : Move page operation next reply) (refusal : reply.isRefusal = true) : next = page := by
  cases move with
  | refused _ => rfl
  | opened fetching usable => cases refusal
  | repriced loaded => cases refusal
  | issued loaded => cases refusal
  | renewed loaded current => cases refusal
  | sent loaded => cases refusal
  | concluded submitting => cases refusal
  | awaited submitting => cases refusal
  | submitted loaded => cases refusal

theorem showing_status (page : Page) (session : Session) :
    (page.showing session).status = .loaded := by
  rw [status, showing_state]
  rfl

theorem move_leads {page next : Page} {operation : Operation} {reply : Reply}
    (move : Move page operation next reply) : page.status.Leads next.status := by
  cases move with
  | refused refusal => exact .refl
  | opened fetching usable =>
      rw [showing_status, status, fetching]
      exact .single .opened
  | repriced loaded =>
      rw [showing_status, status, loaded]
      exact .refl
  | issued loaded => exact .refl
  | renewed loaded current =>
      rw [showing_status, status, loaded]
      exact .refl
  | sent loaded =>
      rw [status, loaded]
      exact .single .sent
  | @concluded outcome session submitting =>
      rw [status, submitting]
      exact .single (conclusion_next session outcome)
  | awaited submitting => exact .refl
  | @submitted send session loaded =>
      rw [status, loaded]
      exact .tail (.single .sent) (conclusion_next session _)

namespace History

theorem run_leads (history : History) (operations : List Operation) :
    history.page.status.Leads (history.run operations).page.status := by
  refine run_keeps (fun later => history.page.status.Leads later.page.status) ?_ operations history
    .refl
  intro later operation leads
  exact leads.trans (move_leads (perform_move later.page operation))

/-- The run so far need not be genuine. -/
theorem refusal_keeps_page_and_status_advances (event : String)
    (before middle after : List Operation) (operation : Operation) :
    let history := (start event).run before
    ((history.page.perform operation).2.isRefusal = true →
        (history.page.perform operation).1 = history.page) ∧
      history.page.status.Leads (history.run middle).page.status ∧
      ((history.run (middle ++ after)).page.status = history.page.status →
        (history.run middle).page.status = history.page.status) := by
  intro history
  have leads := run_leads history middle
  refine ⟨refusal_move (perform_move history.page operation), leads, ?_⟩
  intro returned
  rw [run_append] at returned
  have back := run_leads (history.run middle) after
  rw [returned] at back
  exact Status.leads_back leads back

theorem refusal_keeps_page_while_submitting :
    let history := (start "camp").run [.finishFetch flatFee, .beginSubmit]
    (history.page.perform .addCamper).2.isRefusal = true ∧
      (history.page.perform .addCamper).1 = history.page ∧
      history.page.status.Leads (history.run [.beginSubmit]).page.status ∧
      (history.run ([.beginSubmit] ++ [.addCamper])).page.status = history.page.status ∧
      (history.run [.beginSubmit]).page.status = history.page.status := by
  intro history
  obtain ⟨kept, leads, forward⟩ := refusal_keeps_page_and_status_advances "camp"
    [.finishFetch flatFee, .beginSubmit] [.beginSubmit] [.addCamper] .addCamper
  exact ⟨rfl, kept rfl, leads, rfl, forward rfl⟩

end History

end Page

end Tariff
