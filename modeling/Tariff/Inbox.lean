import Tariff.Json.Text
import Tariff.Submission

set_option autoImplicit false

namespace Tariff

structure Inbox where
  received : List (String × Submission)

namespace Inbox

def empty : Inbox := ⟨[]⟩

def keep (inbox : Inbox) (event : String) (submission : Submission) : Inbox :=
  ⟨inbox.received ++ [(event, submission)]⟩

def receipt (inbox : Inbox) : Receipt :=
  let count := (Json.ofInt? inbox.received.length).getD .null
  ⟨201, (Json.object [("accepted", count)]).text⟩

end Inbox

end Tariff
