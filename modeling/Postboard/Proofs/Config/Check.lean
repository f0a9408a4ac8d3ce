import Postboard.Config.Layer

/-! What settings have to be like to pass the check, and when a value makes settings. -/

set_option autoImplicit false

namespace Postboard.Config

open Text

structure Checked (c : Config) : Prop where
  defaultLimit : c.posts.defaultLimit ≠ 0
  withinMax : c.posts.defaultLimit ≤ c.posts.maxLimit
  reactiveTimeout : c.reactive.timeoutMs ≠ 0
  statementTimeout : c.db.statementTimeoutMs ≠ 0
  acquireTimeout : c.db.acquireTimeoutMs ≠ 0
  urlName : isBlankText c.db.urlEnv = false
  redirectBase : c.streams.redirectBase.toList.head? = some '/'

theorem check_eq_ok {c : Config} : c.check = .ok () ↔ Checked c := by
  constructor
  · intro passed
    unfold check at passed
    split at passed
    · cases passed
    split at passed
    · cases passed
    next limits =>
      split at passed
      · cases passed
      next reactive =>
        split at passed
        · cases passed
        next database =>
          split at passed
          · cases passed
          next named =>
            split at passed
            · cases passed
            next rooted =>
              simp only [Bool.or_eq_true, decide_eq_true_eq, not_or, UInt32.not_lt] at limits database
              exact ⟨limits.1, limits.2, reactive, database.1, database.2,
                eq_false_of_ne_true named, Decidable.of_not_not rooted⟩
  · rintro ⟨limit, within, reactive, statement, acquire, named, rooted⟩
    -- A default limit that is not zero leaves no room for a ceiling of zero.
    have ceiling : c.posts.maxLimit ≠ 0 := by
      intro none
      rw [none, UInt32.le_zero_iff] at within
      exact limit within
    simp [check, ceiling, limit, within, reactive, statement, acquire, named, rooted]

theorem ofJson_eq_ok {v : Json} {c : Config} : ofJson v = .ok c ↔ read v = .ok c ∧ Checked c := by
  unfold ofJson
  cases read v with
  | error why => simp
  | ok c' =>
    cases passed : c'.check with
    | error why =>
      have unchecked : ¬ Checked c' := by simp [← check_eq_ok, passed]
      simp only [passed, reduceCtorEq, Except.ok.injEq, false_iff, not_and]
      exact fun same => same ▸ unchecked
    | ok =>
      have checked : Checked c' := check_eq_ok.mp passed
      simp only [passed, Except.ok.injEq]
      exact ⟨fun same => ⟨same, same ▸ checked⟩, fun both => both.1⟩

end Postboard.Config
