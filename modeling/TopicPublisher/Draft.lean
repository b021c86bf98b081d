import TopicPublisher.Engine.State

/-!
Drafts of configurations, and the check that turns a draft into a configuration. Main
statement: a draft is accepted exactly if its topic can be read, each of its parts is valid, and
there is a runtime to run in.
-/

namespace TopicPublisher

/-- A configuration as it was written down, with the topic as text. -/
structure Draft where
  topic : String
  thresholds : Thresholds := .balanced
  ceilings : Ceilings := {}
  retries : RetryPolicy := {}
  hasRuntime : Bool := false
deriving DecidableEq, Repr, Inhabited

namespace Draft

/-- Chooses what becomes of messages at the ceilings that are set so far. -/
def failOnLimits (d : Draft) (fail : Bool) : Draft :=
  { d with ceilings := { d.ceilings with behavior := if fail then .failFast else .block } }

/-- Checks a draft: topic, thresholds, ceilings and retries in this order, then the runtime,
which is either the draft's own or the one that the check is made in. -/
def build (d : Draft) (inRuntime : Bool) : Except ConfigError Config :=
  match Topic.parse d.topic with
  | .error e => .error e
  | .ok topic =>
    match d.thresholds.validate with
    | .error e => .error e
    | .ok () =>
      match d.ceilings.validate with
      | .error e => .error e
      | .ok () =>
        match d.retries.validate with
        | .error e => .error e
        | .ok () =>
          if d.hasRuntime || inRuntime then .ok ⟨topic, d.thresholds, d.ceilings, d.retries⟩
          else .error .noRuntime

theorem build_eq_ok_iff (d : Draft) (inRuntime : Bool) (c : Config) :
    d.build inRuntime = .ok c ↔
      Topic.parse d.topic = .ok c.topic ∧ d.thresholds = c.thresholds ∧
        d.ceilings = c.ceilings ∧ d.retries = c.retries ∧ c.thresholds.validate = .ok () ∧
        c.ceilings.validate = .ok () ∧ c.retries.validate = .ok () ∧
        (d.hasRuntime || inRuntime) = true := by
  cases c
  unfold build
  cases Topic.parse d.topic with
  | error e => simp
  | ok topic =>
    cases hs : d.thresholds.validate with
    | error e => grind
    | ok =>
      cases hc : d.ceilings.validate with
      | error e => grind
      | ok =>
        cases hr : d.retries.validate with
        | error e => grind
        | ok => grind

end Draft
end TopicPublisher
