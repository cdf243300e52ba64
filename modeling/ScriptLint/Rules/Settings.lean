import ScriptLint.Rules.Rule

/-!
# Rule settings

Which rules are on and with which limits.

Covers `RulesConfig` and `RuleSetting` with their defaults, and `from_config`.
-/

namespace ScriptLint

/-- The setting of one rule. A limit is only read by the rules that have one. -/
structure RuleSetting where
  enabled : Bool := true
  max : Option Nat := none
  deriving DecidableEq, Repr

/-- The settings of all stock rules. The loop rule is off unless it is mentioned. -/
structure RuleSettings where
  tooManyReturns : RuleSetting := {}
  tooManyParams : RuleSetting := {}
  nestedConditional : RuleSetting := {}
  imperativeLoop : RuleSetting := { enabled := false }
  deriving DecidableEq, Repr

namespace RuleSettings

/-- The enabled rules in catalog order, with the default limit where none is set. -/
def rules (settings : RuleSettings) : List Rule :=
  (if settings.tooManyReturns.enabled then
    [.tooManyReturns (settings.tooManyReturns.max.getD Rule.defaultMaxReturns)] else []) ++
  (if settings.tooManyParams.enabled then
    [.tooManyParams (settings.tooManyParams.max.getD Rule.defaultMaxParams)] else []) ++
  (if settings.nestedConditional.enabled then [.nestedConditional] else []) ++
  (if settings.imperativeLoop.enabled then [.imperativeLoop] else [])

/-- The findings of the enabled rules on a tree. -/
def analyze (settings : RuleSettings) (root : Node) : List Finding :=
  (Rule.registry settings.rules).run root

end RuleSettings

end ScriptLint
