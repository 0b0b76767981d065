import Tariff.Page.Basic

set_option autoImplicit false

namespace Tariff.Page

inductive Source where
  | fixed (configuration : Configuration)
  | text (document : String)
  | broken (reason : String)

def Source.fetch : Source → Except TransportError Configuration
  | .fixed configuration => .ok configuration
  | .text document => (Configuration.reader.ofText document).mapError .decode
  | .broken reason => .error (.request reason)

inductive Operation where
  | load (source : Source)
  | finishFetch (configuration : Configuration)
  | changeForm (form : Form)
  | edit (change : Form → Form)
  | addCamper
  | removeCamper (index : Nat)
  | beginRecalculation
  | completeRecalculation (ticket : Ticket) (quote : Quote)
  | beginSubmit
  | finishSubmit (outcome : Except TransportError Receipt)
  | submit (send : Submission → Except TransportError Receipt)

inductive Reply where
  | opened
  | priced (quote : Quote)
  | issued (ticket : Ticket)
  | applied (taken : Bool)
  | payload (submission : Option Submission)
  | status (status : Status) (sent : Option Submission)
  | failed (error : Error)

def answered {α : Type} (page : Page) (step : Step α) (reply : α → Reply) : Page × Reply :=
  match step.run page with
  | .ok value next => (next, reply value)
  | .error error next => (next, .failed error)

def perform (page : Page) : Operation → Page × Reply
  | .load source => page.answered (load source.fetch) fun _ => .opened
  | .finishFetch configuration => page.answered (finishFetch configuration) fun _ => .opened
  | .changeForm form => page.answered (changeForm form) .priced
  | .edit change => page.answered (edit change) .priced
  | .addCamper => page.answered addCamper .priced
  | .removeCamper index => page.answered (removeCamper index) .priced
  | .beginRecalculation => page.answered beginRecalculation .issued
  | .completeRecalculation ticket quote =>
      page.answered (completeRecalculation ticket quote) .applied
  | .beginSubmit => page.answered beginSubmit .payload
  | .finishSubmit outcome => page.answered (finishSubmit outcome) fun status => .status status none
  | .submit send => page.answered (submit send) fun (status, sent) => .status status sent

end Tariff.Page
