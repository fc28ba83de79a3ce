import TaskQueue.Lib.JsonUnicode
import TaskQueue.Middleware.AdminAuth

/-!
# Request bodies

`express.json` reads the body of a request that says it is JSON, up to a limit; any
other request goes on with an empty object for its body.
-/

namespace TaskQueue

open Ecma Unicode
open Dashboard (asciiLower)

/-- An error of the body parser, as `http-errors` makes it. -/
structure HttpError where
  status : Nat
  type : JsString

def applicationJson : JsString := js "application/json"

/-- A media type without its parameters, in lower case. -/
def essence (contentType : JsString) : JsString :=
  (trim (contentType.takeWhile fun u => u != 0x3B)).map asciiLower

/-- An object or an array, the values a strict parser takes. -/
def isStructured : Json → Bool
  | .object _ => true
  | .array _ => true
  | _ => false

/-- What `express.json({ limit })` makes of a content type and a body: `req.body`, or
the error it passes on.  The body is one without an encoding, and `req.body` is the value that
the `Json` stands for. -/
structure BodyParser where
  limit : Nat
  parse : Option JsString → List UInt8 → Except HttpError Json
  otherType : ∀ contentType body, contentType.map essence ≠ some applicationJson →
    parse contentType body = .ok (.object [])
  json : ∀ body value, body.length ≤ limit → Json.parse (utf8Decode body) = some value →
    isStructured value = true → parse (some applicationJson) body = .ok value
  tooLarge : ∀ body, limit < body.length →
    ∃ type, parse (some applicationJson) body = .error ⟨413, type⟩

theorem essence_applicationJson : essence applicationJson = applicationJson := by decide

theorem BodyParser.parse_stringify (parser : BodyParser) {value : Json}
    (hstructured : isStructured value = true)
    (hfits : (utf8Encode value.stringify).length ≤ parser.limit) :
    parser.parse (some applicationJson) (utf8Encode value.stringify) = .ok value :=
  parser.json _ value hfits (Json.parse_utf8 value) hstructured

/-! ## A parser -/

def parseStrict (body : List UInt8) : Except HttpError Json :=
  match (Json.parse (utf8Decode body)).filter isStructured with
  | some value => .ok value
  | none => if body.isEmpty then .ok (.object []) else .error ⟨400, js "entity.parse.failed"⟩

/-- The text is UTF-8 without a byte order mark, and the content type is well formed and names no
other charset. -/
def parseJsonBody (limit : Nat) (contentType : Option JsString) (body : List UInt8) :
    Except HttpError Json :=
  if contentType.map essence = some applicationJson then
    if limit < body.length then .error ⟨413, js "entity.too.large"⟩ else parseStrict body
  else .ok (.object [])

/-- The parser with its documented behaviour. -/
def expressJson (limit : Nat) : BodyParser where
  limit
  parse := parseJsonBody limit
  otherType := fun contentType body h => if_neg h
  json := by
    intro body value hfits hparse hstructured
    have hessence : (some applicationJson).map essence = some applicationJson := by
      rw [Option.map_some, essence_applicationJson]
    have hkept : (some value).filter isStructured = some value := by
      rw [Option.filter_some_pos hstructured]
    rw [parseJsonBody, if_pos hessence, if_neg (Nat.not_lt.2 hfits), parseStrict, hparse, hkept]
  tooLarge := by
    intro body hlarge
    have hessence : (some applicationJson).map essence = some applicationJson := by
      rw [Option.map_some, essence_applicationJson]
    exact ⟨js "entity.too.large", by rw [parseJsonBody, if_pos hessence, if_pos hlarge]⟩

end TaskQueue
