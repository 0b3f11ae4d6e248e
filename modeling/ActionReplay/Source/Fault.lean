import ActionReplay.Clock
import ActionReplay.Source.Basic
import ActionReplay.Text.Quoted

/-!
# Why a payload is rejected

One fault rejects a whole payload before anything is delivered. `Fault.message` is its text and
`Fault.category` the class it is reported under.
-/

set_option autoImplicit false
set_option relaxedAutoImplicit false

namespace ActionReplay

/-- The keys every source must have. -/
inductive SourceField where
  | id
  | type
  | actions
deriving DecidableEq, Inhabited

def SourceField.name : SourceField → String
  | .id => "id"
  | .type => "type"
  | .actions => "actions"

/-- The keys read from items. -/
inductive ItemField where
  | duration
  | button
  | origin
  | x
  | y
  | pressure
  | size
  | value
deriving DecidableEq, Inhabited

def ItemField.name : ItemField → String
  | .duration => "duration"
  | .button => "button"
  | .origin => "origin"
  | .x => "x"
  | .y => "y"
  | .pressure => "pressure"
  | .size => "size"
  | .value => "value"

/-- What is wrong with the value of an item's field. -/
inductive FieldDefect where
  | notInteger
  | notNumber
  | notString
  | notOrigin
  | empty
deriving DecidableEq, Inhabited

def FieldDefect.message : FieldDefect → String
  | .notInteger => "expected an integer"
  | .notNumber => "expected a number"
  | .notString => "expected a string"
  | .notOrigin => "expected a string or an element reference"
  | .empty => "cannot be empty"

inductive Fault where
  | notAnArray
  | missingSourceField (source : Nat) (field : SourceField)
  | duplicateId (id : String)
  | unsupportedKind (id : String) (value : String)
  | unsupportedPointerType (id : String) (value : String)
  | pointerTypeOnNonPointer (id : String)
  | mixedPointerTypes (types : List PointerType)
  | unsupportedItem (id : String) (kind : SourceKind) (type : String)
  | missingItemType (id : String) (item : Nat)
  | missingItemField (id : String) (item : Nat) (type : ItemType) (field : ItemField)
  | invalidItemField (id : String) (item : Nat) (field : ItemField) (defect : FieldDefect)
  | negativeDuration (id : String) (item : Nat) (type : ItemType)
  | unknownElement (id : String) (item : Nat) (handle : String)
  | zeroSizeElement (id : String) (item : Nat) (handle : String)
  | timelineTooLong (id : String) (item : Nat) (type : ItemType)
  | missingStartPosition (id : String) (item : Nat)
  | simultaneousActions (id : String) (type : ItemType) (tick : Tick)
  | upWithoutDown (id : String) (tick : Tick)
  | tooManyPointers (type : PointerType)
deriving DecidableEq, Inhabited

inductive FaultCategory where
  | structural
  | temporal
  | referential
  | sequencing
deriving DecidableEq, Inhabited

def FaultCategory.name : FaultCategory → String
  | .structural => "Structural"
  | .temporal => "Temporal"
  | .referential => "Referential"
  | .sequencing => "Sequencing"

namespace Fault

def category : Fault → FaultCategory
  | .negativeDuration .. | .timelineTooLong .. => .temporal
  | .unknownElement .. | .zeroSizeElement .. => .referential
  | .missingStartPosition .. | .simultaneousActions .. | .upWithoutDown .. => .sequencing
  | _ => .structural

/-- Words in quotes, in brackets. -/
def listed (names : List String) : String :=
  Text.bracketed (names.map Text.quoted)

def message : Fault → String
  | .notAnArray => "Actions payload must be a JSON array of action sources"
  | .missingSourceField source field =>
    s!"All actions must have the {field.name} key set (action #{source})"
  | .duplicateId id => s!"The action id '{id}' has one or more duplicates"
  | .unsupportedKind id value =>
    s!"Only {listed (SourceKind.all.map SourceKind.name)} values are supported for type key. " ++
      s!"'{value}' is passed instead for action '{id}'"
  | .unsupportedPointerType id value =>
    s!"Only {listed (PointerType.all.map PointerType.name)} values are supported for " ++
      s!"pointerType key. '{value}' is passed instead for action '{id}'"
  | .pointerTypeOnNonPointer id =>
    s!"pointerType parameter is only supported for action type 'pointer' in '{id}' action"
  | .mixedPointerTypes types =>
    "It is only allowed to use one pointer type simultaneously. And you have " ++
      listed (types.map PointerType.name)
  | .unsupportedItem id kind type =>
    s!"Only {listed (kind.itemTypes.map ItemType.name)} item type values are supported for " ++
      s!"action type '{kind.name}'. '{type}' is passed instead for action '{id}'"
  | .missingItemType id item =>
    s!"Missing type key for action item #{item} (<unknown>) of action with id '{id}'"
  | .missingItemField id item type field =>
    s!"Missing {field.name} key for action item #{item} ({type.name}) of action with id '{id}'"
  | .invalidItemField id item field defect =>
    s!"Invalid {field.name} value for action item #{item} of action with id '{id}': " ++
      defect.message
  | .negativeDuration id item type =>
    s!"duration key cannot be negative for action item #{item} ({type.name}) of action " ++
      s!"with id '{id}'"
  | .unknownElement id item handle =>
    s!"An unknown element '{handle}' is set for action item #{item} of action '{id}'"
  | .zeroSizeElement id item handle =>
    s!"The element with id '{handle}' has zero width/height in the action item #{item} " ++
      s!"of action '{id}'"
  | .timelineTooLong id item type =>
    s!"Action item #{item} ({type.name}) of action '{id}' would end the timeline after " ++
      s!"{longestTimeline}ms"
  | .missingStartPosition id item =>
    s!"Action item #{item} of action '{id}' should be preceded with at least one item " ++
      "with coordinates"
  | .simultaneousActions id type tick =>
    s!"You cannot perform two or more '{type.name}' actions without a pause between them " ++
      s!"at {tick}ms in '{id}' chain"
  | .upWithoutDown id tick =>
    "You cannot perform 'pointerUp' action without performing 'pointerDown' first " ++
      s!"at {tick}ms in '{id}' chain"
  | .tooManyPointers type =>
    s!"No more than one simultaneous pointer is supported for pointerType {type.name}"

end Fault

end ActionReplay
