/-!
# Keys

The name of a field inside paths and its key in a document: words joined by underscores there,
capitals between the words here.
-/

namespace TouchGame

/-- A field's name inside paths and its key in a document. -/
structure Key where
  name : String
  wire : String
  deriving DecidableEq, Repr

/-- A field with one name for both. -/
def Key.word (name : String) : Key := ⟨name, name⟩

namespace Field

/-! ## Conditions -/

def target : Key := Key.word "target"
def touchType : Key := ⟨"touch_type", "touchType"⟩
def timeType : Key := ⟨"time_type", "timeType"⟩
def seconds : Key := Key.word "seconds"
def interval : Key := Key.word "interval"
def counterName : Key := ⟨"counter_name", "counterName"⟩
def comparison : Key := Key.word "comparison"
def value : Key := Key.word "value"
def collisionType : Key := ⟨"collision_type", "collisionType"⟩
def checkMode : Key := ⟨"check_mode", "checkMode"⟩
def flagId : Key := ⟨"flag_id", "flagId"⟩
def flagState : Key := ⟨"flag_state", "flagState"⟩
def state : Key := Key.word "state"
def area : Key := Key.word "area"
def region : Key := Key.word "region"
def condition : Key := Key.word "condition"
def frameNumber : Key := ⟨"frame_number", "frameNumber"⟩
def frameRange : Key := ⟨"frame_range", "frameRange"⟩
def loopCount : Key := ⟨"loop_count", "loopCount"⟩
def probability : Key := Key.word "probability"
def seed : Key := Key.word "seed"

/-! ## Actions -/

def type : Key := Key.word "type"
def score : Key := Key.word "score"
def message : Key := Key.word "message"
def targetId : Key := ⟨"target_id", "targetId"⟩
def fadeOut : Key := ⟨"fade_out", "fadeOut"⟩
def fadeIn : Key := ⟨"fade_in", "fadeIn"⟩
def duration : Key := Key.word "duration"
def movement : Key := Key.word "movement"
def speed : Key := Key.word "speed"
def direction : Key := Key.word "direction"
def constraint : Key := Key.word "constraint"
def smooth : Key := Key.word "smooth"
def force : Key := Key.word "force"
def impulse : Key := Key.word "impulse"
def gravity : Key := Key.word "gravity"
def physics : Key := Key.word "physics"
def operation : Key := Key.word "operation"
def points : Key := Key.word "points"
def effect : Key := Key.word "effect"
def intensity : Key := Key.word "intensity"
def scaleAmount : Key := ⟨"scale_amount", "scaleAmount"⟩
def soundId : Key := ⟨"sound_id", "soundId"⟩
def volume : Key := Key.word "volume"
def animationIndex : Key := ⟨"animation_index", "animationIndex"⟩
def startFrame : Key := ⟨"start_frame", "startFrame"⟩
def autoPlay : Key := ⟨"auto_play", "autoPlay"⟩
def loop : Key := Key.word "loop"
def reverse : Key := Key.word "reverse"
def play : Key := Key.word "play"
def frame : Key := Key.word "frame"
def action : Key := Key.word "action"
def weight : Key := Key.word "weight"
def actions : Key := Key.word "actions"
def selectionMode : Key := ⟨"selection_mode", "selectionMode"⟩
def weights : Key := Key.word "weights"

/-! ## Records of any kind -/

/-- The fields that the kind of a record does not know, as paths name them. -/
def extras : Key := Key.word "model_extra"

/-! ## Shapes and placements -/

def x : Key := Key.word "x"
def y : Key := Key.word "y"
def width : Key := Key.word "width"
def height : Key := Key.word "height"
def objectId : Key := ⟨"object_id", "objectId"⟩
def position : Key := Key.word "position"
def scale : Key := Key.word "scale"
def objects : Key := Key.word "objects"

/-! ## Counters and rules -/

def id : Key := Key.word "id"
def name : Key := Key.word "name"
def initialValue : Key := ⟨"initial_value", "initialValue"⟩
def operator : Key := Key.word "operator"
def conditions : Key := Key.word "conditions"
def targetObjectId : Key := ⟨"target_object_id", "targetObjectId"⟩
def triggers : Key := Key.word "triggers"
def layout : Key := Key.word "layout"
def layoutObjects : Key := ⟨"layout_objects", "layoutObjects"⟩
def counters : Key := Key.word "counters"
def rules : Key := Key.word "rules"

/-! ## The asset plan -/

def purpose : Key := Key.word "purpose"
def visualDescription : Key := ⟨"visual_description", "visualDescription"⟩
def initialPosition : Key := ⟨"initial_position", "initialPosition"⟩
def size : Key := Key.word "size"
def trigger : Key := Key.word "trigger"
def description : Key := Key.word "description"
def mood : Key := Key.word "mood"
def sounds : Key := Key.word "sounds"
def bgm : Key := Key.word "bgm"
def script : Key := Key.word "script"
def assetPlan : Key := ⟨"asset_plan", "assetPlan"⟩

end Field

end TouchGame
