import Postboard.Config.Secret
import Postboard.Database.Direct

/-! Connections to databases. How an address is reached is left to the network. -/

set_option autoImplicit false

namespace Postboard.Database

variable {σ : Type}

abbrev Hosts (σ : Type) := String → Except Cause (Server σ)

def Hosts.single (address : String) (db : Server σ) : Hosts σ := fun a =>
  if a = address then .ok db else .error (.network .refused)

def Hosts.over (outage : Option Network.Fault) (hosts : Hosts σ) : Hosts σ := fun a =>
  match outage with
  | none => hosts a
  | some f => .error (.network f)

def connectTo (failure : String) (hosts : Hosts σ) (address : String) :
    Except Error (Server σ) :=
  (hosts address).mapError (.failed failure)

def connect (hosts : Hosts σ) (secrets : Config.Secrets) : Except Error (Server σ) :=
  connectTo "failed to connect to Postgres" hosts secrets.databaseUrl

/-- Connect to a database that is there to be experimented with, and make its tables. -/
def connectScratch (hosts : Hosts σ) (address : Option String) (state : σ) :
    Except Error (Server σ) × σ :=
  match address with
  | none => (.error (.noAddress Config.databaseUrlName), state)
  | some a =>
    match connectTo "failed to connect to test Postgres" hosts a with
    | .error e => (.error e, state)
    | .ok db =>
      match createTables db state with
      | (.error e, state) => (.error e, state)
      | (.ok _, state) => (.ok db, state)

end Postboard.Database
