import StepSequencer.Json.Writer
import StepSequencer.Pack.Source
import StepSequencer.Report
import StepSequencer.Service.Path
import StepSequencer.Service.Request

/-!
# The service

The answers of the compiler to requests over a network. A compilation that fails is an answer like
any other; only requests that cannot be understood are refused. A refusal quotes the documents at
fault, and fails if they cannot be written.
-/
namespace StepSequencer.Service

/-- A request. -/
structure Request where
  method : String
  address : String
  body : String
deriving DecidableEq, Repr

/-- An answer. -/
inductive Response where
  | document (value : Json)
  /-- The same request at another address is meant. -/
  | redirect (address : String)
  /-- The body of the request cannot be read at all. -/
  | unreadable
  /-- What was asked for is not there. -/
  | notFound (detail : String)
  | wrongMethod
  /-- The body of the request has faults. -/
  | refused (faults : List Fault)
deriving Repr

namespace Response

/-- The status of an answer. -/
def status : Response → Nat
  | document _ => 200
  | redirect _ => 307
  | unreadable => 400
  | notFound _ => 404
  | wrongMethod => 405
  | refused _ => 422

/-- The document of a place. -/
def ofPlace : Place → Json
  | .body => .arr [.str "body"]
  | .field name => .arr [.str "body", .str name]
  | .offset count => .arr [.str "body", .int count]

/-- The document of a fault. -/
def ofFault (fault : Fault) : Json :=
  .obj [("type", .str fault.reason.code), ("loc", ofPlace fault.place), ("input", fault.given)]

/-- The document of a detail. -/
def ofDetail (detail : Json) : Json := .obj [("detail", detail)]

/-- What an answer says. -/
def content : Response → Json
  | document value => value
  | redirect _ => .null
  | unreadable => ofDetail (.str "There was an error parsing the body")
  | notFound detail => ofDetail (.str detail)
  | wrongMethod => ofDetail (.str "Method Not Allowed")
  | refused faults => ofDetail (.arr (faults.map ofFault))

end Response

/-- The version of the service. -/
def version : String := "0.1.0"

/-- The document of a target. -/
def ofTarget (target : Target) : Json :=
  .obj [("key", .str target.key), ("aliases", Report.ofNames target.aliases),
    ("name", .str target.name), ("media_type", .str target.mediaType),
    ("suffix", .str target.suffix)]

/-- The document of a pack in a list. -/
def ofPack (key : String) (pack : Pack) : Json :=
  .obj [("name", .str key), ("year", .int pack.year), ("description", .str pack.description)]

/-- The document of the packs by category. -/
def ofCatalog (catalog : Catalog) : Json :=
  .obj (catalog.byCategory.map fun (category, packs) =>
    (category, .arr (packs.map fun (key, pack) => ofPack key pack)))

/-- The options of a request to compile. -/
def CompileRequest.options (settings : Settings) (request : CompileRequest) : Options :=
  .ofRequest settings (request.target.map .text) (request.title.map .text)
    (request.tempo.map .number) request.clearRests

/-- The answer to a request to compile. -/
def compile (settings : Settings) (body : String) : Response :=
  match readBody body with
  | .error .unreadable => .unreadable
  | .error (.notJson offset) => .refused [⟨.notJson, .offset offset, .obj []⟩]
  | .ok document =>
    match CompileRequest.ofDocument document with
    | .error faults => .refused faults
    | .ok request =>
      .document (Report.ofCompilation
        (Compilation.ofSource (request.options settings) request.source))

/-- The answer to a request for a source. -/
def source (catalog : Catalog) (pack demo : String) : Response :=
  match catalog.source pack demo with
  | .ok text =>
    .document (.obj [("pack", .str pack), ("pattern", .str demo), ("source", .str text)])
  | .error fault => .notFound fault.message

/-- The answer to a request on a route. -/
def serve (settings : Settings) (catalog : Catalog) (body : String) : Route → Response
  | .compile => compile settings body
  | .targets => .document (.arr (Target.all.map ofTarget))
  | .packs => .document (ofCatalog catalog)
  | .source pack demo => source catalog pack demo
  | .health => .document (.obj [("status", .str "ok"), ("version", .str version)])

/-- The answer to a request. -/
def answer (settings : Settings) (catalog : Catalog) (request : Request) :
    Except AddressFault Response := do
  let path ← receivedPath request.address
  match Route.ofPath? path with
  | some route =>
    if request.method.toUpper == route.method then
      return serve settings catalog request.body route
    else return .wrongMethod
  | none =>
    match redirection? path with
    | some address => return .redirect address
    | none => return .notFound "Not Found"

/-- The answer to a request that is sent on as often as the answer says so, within a bound. -/
def follow (settings : Settings) (catalog : Catalog) :
    Nat → Request → Except AddressFault Response
  | 0, request => answer settings catalog request
  | bound + 1, request => do
    match ← answer settings catalog request with
    | .redirect address => follow settings catalog bound { request with address := address }
    | response => return response

/-- How often a request is sent on. -/
def maxRedirects : Nat := 20

/-- Why a request has no answer. -/
inductive FetchFault where
  /-- The request was not sent. -/
  | address (fault : AddressFault)
  /-- The answer could not be written. -/
  | unwritable (fault : Json.WriteFault)
  /-- The answer came without a document. -/
  | noDocument
deriving DecidableEq, Repr

/-- The wording of a fault. -/
def FetchFault.message : FetchFault → String
  | address fault => fault.message
  | unwritable fault => fault.message
  | noDocument => "Expecting value: line 1 column 1 (char 0)"

/-- The answer to a request as its sender receives it. Only the head of an answer is sent to who
asks for the head alone. -/
def fetch (settings : Settings) (catalog : Catalog) (request : Request) :
    Except FetchFault Response := do
  let response ← (follow settings catalog maxRedirects request).mapError .address
  let _ ← response.content.strict.mapError .unwritable
  if request.method.toUpper == "HEAD" then .error .noDocument else return response

end StepSequencer.Service
