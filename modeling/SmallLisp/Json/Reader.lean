import SmallLisp.Json.Token

namespace SmallLisp.Json

/-- What stands around the value that is read next, with everything before it latest first. -/
inductive Context where
  | item (before : List Json)
  | member (before : List (String × Json)) (key : String)

inductive Expected where
  | value
  | itemOrClose
  | keyOrClose
  | key (before : List (String × Json))
  | colon (before : List (String × Json)) (key : String)
  | after (v : Json)

structure Build where
  contexts : List Context := []
  expected : Expected := .value

namespace Build

def startValue (b : Build) : Token → Option Build
  | .openArray => some ⟨.item [] :: b.contexts, .itemOrClose⟩
  | .openObject => some ⟨b.contexts, .keyOrClose⟩
  | .scalar v => some { b with expected := .after v }
  | _ => none

/-- What follows a finished value inside the innermost open array or object. -/
def closeValue (v : Json) : List Context → Token → Option Build
  | .item before :: cs, .comma => some ⟨.item (v :: before) :: cs, .value⟩
  | .item before :: cs, .closeArray => some ⟨cs, .after (array (v :: before).reverse)⟩
  | .member before k :: cs, .comma => some ⟨cs, .key ((k, v) :: before)⟩
  | .member before k :: cs, .closeObject => some ⟨cs, .after (object ((k, v) :: before).reverse)⟩
  | _, _ => none

def step (b : Build) (t : Token) : Option Build :=
  match b.expected, t with
  | .value, t => b.startValue t
  | .itemOrClose, .closeArray => some ⟨b.contexts.tail, .after (array [])⟩
  | .itemOrClose, t => b.startValue t
  | .keyOrClose, .closeObject => some { b with expected := .after (object []) }
  | .keyOrClose, .scalar (.string k) => some { b with expected := .colon [] k }
  | .key before, .scalar (.string k) => some { b with expected := .colon before k }
  | .colon before k, .colon => some ⟨.member before k :: b.contexts, .value⟩
  | .after v, t => closeValue v b.contexts t
  | _, _ => none

def finish (b : Build) : Option Json :=
  match b.contexts, b.expected with
  | [], .after v => some v
  | _, _ => none

end Build

def ofTokens? (ts : List Token) : Option Json := do
  (← ts.foldlM Build.step {}).finish

def read? (source : String) : Option Json := do
  ofTokens? (← Cut.tokens? .gap source.toList)

end SmallLisp.Json
