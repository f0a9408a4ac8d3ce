import Mathlib.Data.List.Forall2
import Postboard.Service.Router

/-! A service at work: requests one after the other.

`serve_forall` carries an invariant of the state through a sequence of requests, with a law that
every single exchange keeps.
-/

set_option autoImplicit false

namespace Postboard.Service

open Http

variable {σ ε : Type}

/-- Answer requests in order: the answers and the last state. A request whose handling breaks off
does not keep the service from the next one. -/
def serve (s : Service σ ε) : List Request → σ → List (Option Response) × σ
  | [], state => ([], state)
  | r :: rest, state =>
    let (answer, state) := s.respond r state
    let (answers, state) := s.serve rest state
    (answer :: answers, state)

theorem serve_cons (s : Service σ ε) (r : Request) (rest : List Request) (state : σ) :
    s.serve (r :: rest) state =
      ((s.respond r state).1 :: (s.serve rest (s.respond r state).2).1,
        (s.serve rest (s.respond r state).2).2) := rfl

/-- What one exchange keeps, a sequence of them keeps. -/
theorem serve_forall (s : Service σ ε) {inv : σ → Prop} {law : Request → Option Response → Prop}
    (step : ∀ r state, inv state → inv (s.respond r state).2 ∧ law r (s.respond r state).1)
    (requests : List Request) (state : σ) (start : inv state) :
    inv (s.serve requests state).2 ∧ List.Forall₂ law requests (s.serve requests state).1 := by
  induction requests generalizing state with
  | nil => exact ⟨start, .nil⟩
  | cons r rest ih =>
    obtain ⟨next, here⟩ := step r state start
    obtain ⟨last, later⟩ := ih _ next
    exact ⟨last, .cons here later⟩

end Postboard.Service
