import Tariff.Configuration
import Tariff.Display.Board
import Tariff.Submission

/-! A recalculation can be done elsewhere: its ticket carries all that it needs, and its result is taken
only while the page still has the revision of the ticket. -/

set_option autoImplicit false

namespace Tariff

structure Session where
  configuration : Configuration
  rules : RuleSet
  form : Form
  quote : Quote
  board : Display.Board
  revision : Nat

inductive Status where
  | fetching
  | loaded
  | submitting
  | submitted
  | submissionError
deriving DecidableEq, Repr

def Status.name : Status → String
  | .fetching => "fetching"
  | .loaded => "loaded"
  | .submitting => "submitting"
  | .submitted => "submitted"
  | .submissionError => "submission error"

structure Snapshot where
  revision : Nat
  quote : Quote
  camperCount : Nat
deriving DecidableEq, Repr

def Snapshot.initial : Snapshot := ⟨0, .empty, 0⟩

def Session.snapshot (session : Session) : Snapshot :=
  ⟨session.revision, session.quote, session.form.camperCount⟩

structure Ticket where
  revision : Nat
  rules : RuleSet
  form : Form

def Ticket.compute (ticket : Ticket) : Quote := ticket.rules.price ticket.form

inductive TransportError where
  | request (reason : String)
  | decode (fault : Json.Fault)
deriving DecidableEq, Repr

namespace Page

inductive State where
  | fetching
  | loaded (session : Session)
  | submitting (session : Session)
  | submitted (session : Session)
  | submissionError (session : Session)

def State.status : State → Status
  | .fetching => .fetching
  | .loaded _ => .loaded
  | .submitting _ => .submitting
  | .submitted _ => .submitted
  | .submissionError _ => .submissionError

def State.session? : State → Option Session
  | .fetching => none
  | .loaded session => some session
  | .submitting session => some session
  | .submitted session => some session
  | .submissionError session => some session

inductive Action where
  | load
  | edit
  | recalculate
  | submit
  | finishSubmission
deriving DecidableEq, Repr

def Action.name : Action → String
  | .load => "load"
  | .edit => "edit"
  | .recalculate => "recalculate"
  | .submit => "submit"
  | .finishSubmission => "finish submission"

inductive Error where
  | invalidTransition (action : Action) (status : Status)
  | noSuchCamper (index count : Nat)
  | rules (error : RuleSet.Error)
  | transport (error : TransportError)
deriving DecidableEq, Repr

end Page

structure Page where
  event : String
  state : Page.State
  snapshot : Snapshot
  published : Nat

namespace Page

def new (event : String) : Page := ⟨event, .fetching, .initial, 0⟩

def status (page : Page) : Status := page.state.status

def session? (page : Page) : Option Session := page.state.session?

def revision (page : Page) : Nat := (page.session?.map (·.revision)).getD 0

def prices (page : Page) : Named (Option String) :=
  match page.session? with
  | some session => session.board.render session.quote
  | none => []

def totalSlot : String := "total"

def publish (page : Page) (snapshot : Snapshot) : Page :=
  if snapshot.revision < page.snapshot.revision then page
  else { page with snapshot := snapshot, published := page.published + 1 }

structure Watch where
  seen : Nat
deriving DecidableEq, Repr

def watch (page : Page) : Watch := ⟨page.published⟩

def Watch.hasNews (watch : Watch) (page : Page) : Bool := watch.seen != page.published

-- A step works on the page as it finds it. What it has written by the time it gives a reason
-- against going on stays written.
abbrev Step := EStateM Error Page

def enter (page : Page) (state : State) : Page := { page with state := state }

-- Takes the state out of the page, which is left without a session until a state is entered again.
def takeState : Step State := do
  let page ← get
  set (page.enter .fetching)
  return page.state

def requireFetching : Step Unit := do
  match (← get).state with
  | .fetching => return
  | state => throw (.invalidTransition .load state.status)

def openSession (configuration : Configuration) (rules : RuleSet) (revision : Nat) : Session :=
  { configuration := configuration
    rules := rules
    form := .fresh
    quote := rules.price .fresh
    board := (Display.Board.ofConstants configuration.constants).addSlot totalSlot .total
    revision := revision }

def finishFetch (configuration : Configuration) : Step Unit := do
  requireFetching
  match RuleSet.ofConfiguration configuration with
  | .error error => throw (.rules error)
  | .ok rules =>
      let session := openSession configuration rules ((← get).snapshot.revision + 1)
      modify fun page => page.publish session.snapshot
      modify fun page => page.enter (.loaded session)

def load (fetched : Except TransportError Configuration) : Step Unit := do
  requireFetching
  match fetched with
  | .error error => throw (.transport error)
  | .ok configuration => finishFetch configuration

def loadedSession (action : Action) : Step Session := do
  match (← get).state with
  | .loaded session => return session
  | state => throw (.invalidTransition action state.status)

def reprice (session : Session) (form : Form) : Session :=
  { session with
    form := form
    quote := session.rules.price form
    revision := session.revision + 1 }

def changeForm (form : Form) : Step Quote := do
  let session ← loadedSession .edit
  let repriced := reprice session form
  modify fun page => page.enter (.loaded repriced)
  modify fun page => page.publish repriced.snapshot
  return repriced.quote

def edit (change : Form → Form) : Step Quote := do
  let session ← loadedSession .edit
  changeForm (change session.form)

def addCamper : Step Quote := edit fun form => form.addCamper .empty

def removeCamper (index : Nat) : Step Quote := do
  let session ← loadedSession .edit
  if session.form.camperCount ≤ index then
    throw (.noSuchCamper index session.form.camperCount)
  else edit fun form => form.removeCamper index

def beginRecalculation : Step Ticket := do
  let session ← loadedSession .recalculate
  return ⟨session.revision, session.rules, session.form⟩

def completeRecalculation (ticket : Ticket) (quote : Quote) : Step Bool := do
  match (← get).state with
  | .loaded session =>
      if ticket.revision = session.revision then
        let renewed := { session with quote := quote }
        modify fun page => page.enter (.loaded renewed)
        modify fun page => page.publish renewed.snapshot
        return true
      else return false
  | _ => return false

def beginSubmit : Step (Option Submission) := do
  match ← takeState with
  | .loaded session =>
      modify fun page => page.enter (.submitting session)
      return some ⟨session.form, session.quote⟩
  | .submitting session =>
      modify fun page => page.enter (.submitting session)
      return none
  | state =>
      modify fun page => page.enter state
      throw (.invalidTransition .submit state.status)

def conclusion (session : Session) : Except TransportError Receipt → State
  | .ok receipt => if receipt.isSuccess then .submitted session else .submissionError session
  | .error _ => .submissionError session

def finishSubmit (outcome : Except TransportError Receipt) : Step Status := do
  match ← takeState with
  | .submitting session =>
      modify fun page => page.enter (conclusion session outcome)
      return (← get).status
  | state =>
      modify fun page => page.enter state
      throw (.invalidTransition .finishSubmission state.status)

def submit (send : Submission → Except TransportError Receipt) :
    Step (Status × Option Submission) := do
  match ← beginSubmit with
  | none => return ((← get).status, none)
  | some submission => return (← finishSubmit (send submission), some submission)

end Page

namespace TransportError

def message : TransportError → String
  | .request reason => "request failed: " ++ reason
  | .decode _ => "invalid response body"

end TransportError

def Page.Error.message : Page.Error → String
  | .invalidTransition action status => "cannot " ++ action.name ++ " while " ++ status.name
  | .noSuchCamper index count =>
      "no camper at index " ++ toString index ++ " (" ++ toString count ++ " campers)"
  | .rules error => error.message
  | .transport error => error.message

end Tariff
