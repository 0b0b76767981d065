import Tariff.Proofs.Page.Move

set_option autoImplicit false

namespace Tariff.Page

structure History where
  page : Page
  replies : List Reply

namespace History

def start (event : String) : History := ⟨Page.new event, []⟩

def perform (history : History) (operation : Operation) : History :=
  ⟨(history.page.perform operation).1, history.replies ++ [(history.page.perform operation).2]⟩

def run (history : History) (operations : List Operation) : History :=
  operations.foldl perform history

def Genuine (history : History) : Operation → Prop
  | .completeRecalculation ticket quote =>
      .issued ticket ∈ history.replies ∧ quote = ticket.compute
  | _ => True

def GenuineRun (history : History) : List Operation → Prop
  | [] => True
  | operation :: rest => history.Genuine operation ∧ (history.perform operation).GenuineRun rest

theorem run_append (history : History) (first second : List Operation) :
    history.run (first ++ second) = (history.run first).run second := by
  simp only [run, List.foldl_append]

theorem run_keeps (property : History → Prop)
    (step : ∀ history operation, property history → property (history.perform operation))
    (operations : List Operation) (history : History) (before : property history) :
    property (history.run operations) := by
  induction operations generalizing history with
  | nil => exact before
  | cons operation rest ih => exact ih (history.perform operation) (step history operation before)

theorem genuine_run_keeps (property : History → Prop)
    (step : ∀ history operation, history.Genuine operation → property history →
      property (history.perform operation))
    (operations : List Operation) (history : History) (genuine : history.GenuineRun operations)
    (before : property history) : property (history.run operations) := by
  induction operations generalizing history with
  | nil => exact before
  | cons operation rest ih =>
      exact ih (history.perform operation) genuine.2 (step history operation genuine.1 before)

end History

def flatFee : Configuration :=
  { Configuration.empty with
    rules :=
      { camper := [⟨none, "fee", .number (.whole 1 (by decide))⟩]
        registration := [⟨none, "total", .object [("var", .string "campers.fee")]⟩] } }

def flatFeeRules : RuleSet :=
  { camper := [⟨"fee", none, .ok (.literal (.number .one))⟩]
    registration := [⟨"total", none, .ok (.field "campers.fee" none)⟩]
    constants := .empty
    total := "total" }

end Tariff.Page
