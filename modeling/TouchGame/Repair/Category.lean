import TouchGame.Finding

/-!
# Categories of repair

How a finding can be mended: by correcting a number in place, by a change to the rules concerned, or
only by a new rule-set.

* `Code.category` : the category of each code of the catalogue.
* `Finding.category` : that of a finding; outside the catalogue its severity decides.
-/

namespace TouchGame

/-- How a finding can be mended. -/
inductive Category where
  | autoFixable
  | partialRegen
  | fullRegen
  deriving DecidableEq, Repr

namespace Category

/-- The word for a category. -/
def word : Category → String
  | .autoFixable => "auto_fixable"
  | .partialRegen => "partial_regen"
  | .fullRegen => "full_regen"

def all : List Category := [.autoFixable, .partialRegen, .fullRegen]

end Category

/-- How the findings of a code can be mended. -/
def Code.category : Code → Category
  | .invalidCoordinates | .invalidScale | .extremeScale | .invalidSpeed | .unusualSpeed
  | .invalidTimeSeconds | .invalidTimeInterval | .invalidVolume | .invalidProbability
  | .invalidDuration | .invalidEffectDuration | .longEffectDuration | .invalidScaleAmount
  | .largeScaleAmount | .negativePoints | .missingPoints | .missingProbability => .autoFixable
  | .invalidParameterValue | .missingCounterValue | .missingCounterName | .missingTargetId
  | .missingSoundId | .missingFlagId | .missingForce | .missingImpulse | .missingAnimationIndex
  | .duplicateLayoutObject | .invalidObjectId | .invalidCounterName | .undefinedSoundId
  | .noPlayerAction | .noFailure | .unusedCounter | .counterNeverChecked
  | .unreachableObjectState => .partialRegen
  | .malformedRuleset | .missingSection | .invalidConditionType | .invalidActionType
  | .duplicateRuleId | .instantWin | .instantLose | .autoSuccess | .autoFailure | .noSuccess
  | .successFailureConflict | .showHideConflict | .counterConflict | .sameRuleSuccessFailure
  | .sameRuleShowHide | .counterNeverModified | .unreachableSuccess => .fullRegen

namespace Finding

/-- How a finding can be mended. -/
def category (f : Finding) : Category :=
  match f.label with
  | .listed code => code.category
  | .unlisted .. => if f.isCritical then .fullRegen else .partialRegen

/-- Whether a finding is of a category. -/
def isOf (c : Category) (f : Finding) : Bool :=
  f.category == c

end Finding

end TouchGame
