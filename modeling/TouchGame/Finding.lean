import TouchGame.Script.Path

/-!
# Findings

A finding is one defect of a rule-set: how severe it is, its code, a message, a hint how to mend it,
and where it is.

* `Code` : the catalogue of codes; `Label` adds codes that are not in it.
* `Location` : a path, the rule concerned, and the identifier the finding is about.
* `Finding.isCritical` : critical findings make a rule-set invalid, warnings do not.
-/

namespace TouchGame

/-- How severe a finding is. -/
inductive Severity where
  | critical
  | warning
  deriving DecidableEq, Repr

/-- The word for a severity. -/
def Severity.word : Severity → String
  | .critical => "critical"
  | .warning => "warning"

/-- The codes of the catalogue. -/
inductive Code where
  | malformedRuleset
  | missingSection
  | invalidConditionType
  | invalidActionType
  | invalidParameterValue
  | invalidCoordinates
  | invalidScale
  | extremeScale
  | invalidSpeed
  | unusualSpeed
  | invalidTimeSeconds
  | invalidTimeInterval
  | invalidVolume
  | invalidProbability
  | invalidDuration
  | invalidEffectDuration
  | longEffectDuration
  | invalidScaleAmount
  | largeScaleAmount
  | negativePoints
  | missingPoints
  | missingProbability
  | missingCounterValue
  | missingCounterName
  | missingTargetId
  | missingSoundId
  | missingFlagId
  | missingForce
  | missingImpulse
  | missingAnimationIndex
  | duplicateRuleId
  | duplicateLayoutObject
  | invalidObjectId
  | invalidCounterName
  | undefinedSoundId
  | instantWin
  | instantLose
  | autoSuccess
  | autoFailure
  | noPlayerAction
  | noSuccess
  | noFailure
  | successFailureConflict
  | showHideConflict
  | counterConflict
  | sameRuleSuccessFailure
  | sameRuleShowHide
  | unusedCounter
  | counterNeverChecked
  | counterNeverModified
  | unreachableSuccess
  | unreachableObjectState
  deriving DecidableEq, Repr

namespace Code

/-- How a code is written. -/
def name : Code → String
  | .malformedRuleset => "MALFORMED_RULESET"
  | .missingSection => "MISSING_SECTION"
  | .invalidConditionType => "INVALID_CONDITION_TYPE"
  | .invalidActionType => "INVALID_ACTION_TYPE"
  | .invalidParameterValue => "INVALID_PARAMETER_VALUE"
  | .invalidCoordinates => "INVALID_COORDINATES"
  | .invalidScale => "INVALID_SCALE"
  | .extremeScale => "EXTREME_SCALE"
  | .invalidSpeed => "INVALID_SPEED"
  | .unusualSpeed => "UNUSUAL_SPEED"
  | .invalidTimeSeconds => "INVALID_TIME_SECONDS"
  | .invalidTimeInterval => "INVALID_TIME_INTERVAL"
  | .invalidVolume => "INVALID_VOLUME"
  | .invalidProbability => "INVALID_PROBABILITY"
  | .invalidDuration => "INVALID_DURATION"
  | .invalidEffectDuration => "INVALID_EFFECT_DURATION"
  | .longEffectDuration => "LONG_EFFECT_DURATION"
  | .invalidScaleAmount => "INVALID_SCALE_AMOUNT"
  | .largeScaleAmount => "LARGE_SCALE_AMOUNT"
  | .negativePoints => "NEGATIVE_POINTS"
  | .missingPoints => "MISSING_POINTS"
  | .missingProbability => "MISSING_PROBABILITY"
  | .missingCounterValue => "MISSING_COUNTER_VALUE"
  | .missingCounterName => "MISSING_COUNTER_NAME"
  | .missingTargetId => "MISSING_TARGET_ID"
  | .missingSoundId => "MISSING_SOUND_ID"
  | .missingFlagId => "MISSING_FLAG_ID"
  | .missingForce => "MISSING_FORCE"
  | .missingImpulse => "MISSING_IMPULSE"
  | .missingAnimationIndex => "MISSING_ANIMATION_INDEX"
  | .duplicateRuleId => "DUPLICATE_RULE_ID"
  | .duplicateLayoutObject => "DUPLICATE_LAYOUT_OBJECT"
  | .invalidObjectId => "INVALID_OBJECT_ID"
  | .invalidCounterName => "INVALID_COUNTER_NAME"
  | .undefinedSoundId => "UNDEFINED_SOUND_ID"
  | .instantWin => "INSTANT_WIN"
  | .instantLose => "INSTANT_LOSE"
  | .autoSuccess => "AUTO_SUCCESS"
  | .autoFailure => "AUTO_FAILURE"
  | .noPlayerAction => "NO_PLAYER_ACTION"
  | .noSuccess => "NO_SUCCESS"
  | .noFailure => "NO_FAILURE"
  | .successFailureConflict => "SUCCESS_FAILURE_CONFLICT"
  | .showHideConflict => "SHOW_HIDE_CONFLICT"
  | .counterConflict => "COUNTER_CONFLICT"
  | .sameRuleSuccessFailure => "SAME_RULE_SUCCESS_FAILURE"
  | .sameRuleShowHide => "SAME_RULE_SHOW_HIDE"
  | .unusedCounter => "UNUSED_COUNTER"
  | .counterNeverChecked => "COUNTER_NEVER_CHECKED"
  | .counterNeverModified => "COUNTER_NEVER_MODIFIED"
  | .unreachableSuccess => "UNREACHABLE_SUCCESS"
  | .unreachableObjectState => "UNREACHABLE_OBJECT_STATE"

/-- All codes, in the order of the catalogue. -/
def all : List Code := [
  .malformedRuleset, .missingSection, .invalidConditionType, .invalidActionType,
  .invalidParameterValue, .invalidCoordinates, .invalidScale, .extremeScale, .invalidSpeed,
  .unusualSpeed, .invalidTimeSeconds, .invalidTimeInterval, .invalidVolume, .invalidProbability,
  .invalidDuration, .invalidEffectDuration, .longEffectDuration, .invalidScaleAmount,
  .largeScaleAmount, .negativePoints, .missingPoints, .missingProbability, .missingCounterValue,
  .missingCounterName, .missingTargetId, .missingSoundId, .missingFlagId, .missingForce,
  .missingImpulse, .missingAnimationIndex, .duplicateRuleId, .duplicateLayoutObject,
  .invalidObjectId, .invalidCounterName, .undefinedSoundId, .instantWin, .instantLose,
  .autoSuccess, .autoFailure, .noPlayerAction, .noSuccess, .noFailure, .successFailureConflict,
  .showHideConflict, .counterConflict, .sameRuleSuccessFailure, .sameRuleShowHide,
  .unusedCounter, .counterNeverChecked, .counterNeverModified, .unreachableSuccess,
  .unreachableObjectState]

/-- The code that is written so. -/
def ofName? (name : String) : Option Code :=
  all.find? (·.name == name)

end Code

/-- A code of the catalogue, or any other one. -/
inductive Label where
  | listed (code : Code)
  | unlisted (name : String) (outside : Code.ofName? name = none)
  deriving DecidableEq, Repr

namespace Label

/-- How a label is written. -/
def name : Label → String
  | .listed code => code.name
  | .unlisted name _ => name

def ofName (name : String) : Label :=
  match h : Code.ofName? name with
  | some code => .listed code
  | none => .unlisted name h

def code? : Label → Option Code
  | .listed code => some code
  | .unlisted .. => none

end Label

/-- Where a finding applies. -/
structure Location where
  path : Path
  rule : Option String
  subject : Option String
  deriving DecidableEq, Repr

namespace Location

/-- No place in particular. -/
def none : Location := ⟨[], .none, .none⟩

def ofRule (rule : String) : Location := ⟨[], some rule, .none⟩

end Location

/-- One defect of a rule-set. -/
structure Finding where
  severity : Severity
  label : Label
  message : String
  fix : Option String
  location : Location
  deriving DecidableEq, Repr

namespace Finding

def critical (code : Code) (message fix : String) (location : Location) : Finding :=
  ⟨.critical, .listed code, message, some fix, location⟩

def warning (code : Code) (message fix : String) (location : Location) : Finding :=
  ⟨.warning, .listed code, message, some fix, location⟩

/-- Whether a finding makes a rule-set invalid. -/
def isCritical (f : Finding) : Bool :=
  f.severity == .critical

end Finding

/-- Findings without a critical one. -/
def accepts (findings : List Finding) : Bool :=
  !findings.any (·.isCritical)

/-- The critical findings as lines of feedback, nothing for a valid rule-set. -/
def feedback (findings : List Finding) : String :=
  "\n".intercalate <| (findings.filter (·.isCritical)).map fun f =>
    match f.fix with
    | some fix => if fix.isEmpty then s!"- {f.message}" else s!"- {f.message} (fix: {fix})"
    | none => s!"- {f.message}"

end TouchGame
