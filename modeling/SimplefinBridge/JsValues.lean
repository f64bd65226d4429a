import SimplefinBridge.Host

/-!
# Values of unknown type

What a provider answers reaches the parsers as a JavaScript value of unknown
type.  A field that an object does not have is `undefined`, which is not
`null`; of two fields of one name the last counts.
-/

namespace SimplefinBridge

/-- A JavaScript value without functions and symbols. -/
inductive JsValue
  | undefined
  | null
  | bool (value : Bool)
  /-- A number; `none` is not finite. -/
  | number (value : Option ℚ)
  | string (value : String)
  | array (items : List JsValue)
  | object (fields : List (String × JsValue))

namespace JsValue

/-- The last field of a name. -/
def get (fields : List (String × JsValue)) (key : String) : JsValue :=
  ((fields.reverse.find? (·.1 = key)).map (·.2)).getD undefined

/-- `value && typeof value === 'object' && !Array.isArray(value)` -/
def asRecord : JsValue → Option (List (String × JsValue))
  | object fields => some fields
  | _ => none

def asArray : JsValue → Option (List JsValue)
  | array items => some items
  | _ => none

def asText : JsValue → Option String
  | string value => some value
  | _ => none

end JsValue

def isNull : JsValue → Bool
  | .null => true
  | _ => false

end SimplefinBridge
