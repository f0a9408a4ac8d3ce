import Postboard.Database.Connect
import Postboard.Database.Gateway
import Postboard.Reactive.Remote
import Postboard.Service.Router

/-! The service as it runs: it reads from a remote backend and writes to a database. -/

set_option autoImplicit false

namespace Postboard.Service

variable {σ τ : Type}

def remoteOf (c : Config) : Reactive.Remote := ⟨c.reactive.baseUrl, c.reactive.timeoutMs⟩

/-- The service of a configuration, over a database and a way to reach the backend. -/
def assemble (db : Database.Server σ) (t : Reactive.Remote.Transport τ) (c : Config) :
    Service (σ × τ) Database.Error :=
  ofConfig ((remoteOf c).client t).onSecond (Database.gateway db c.db.statementTimeoutMs).onFirst
    c.principal.userId c

end Postboard.Service
