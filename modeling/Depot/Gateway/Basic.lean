import Depot.Gateway.Input
import Depot.Gateway.Route
import Depot.Manifest
import Depot.Transfer.Download
import Depot.Transfer.FormUpload

/-! # The gateway

A gateway answers requests over a registry and a task queue. Each endpoint reads its input and then
does one thing with it: it answers at once, or operates on the registry, or enqueues a task. Errors
are answered as JSON with a code and a message, but for requests that never come to an endpoint.
-/

namespace Depot

namespace Response

def empty (status : Nat) : Response := { status }

def json (status : Nat) (value : List UInt8) : Response :=
  { status, contentType := some "application/json", body := value.toByteArray }

def plain (status : Nat) (text : String) : Response :=
  { status, contentType := some "text/plain; charset=utf-8", body := text.toUTF8 }

def error (status : Nat) (code message : String) : Response :=
  .json status (Json.Writer.object [
    ("error", Json.Writer.object [
      ("code", Json.Writer.string code), ("message", Json.Writer.string message)])])

end Response

def GatewayError.response (words : Malformed → String) (error : GatewayError) : Response :=
  .error error.status error.code (error.publicMessage words)

theorem GatewayError.failing (words : Malformed → String) (error : GatewayError) :
    400 ≤ (error.response words).status := by
  cases error <;> simp [response, Response.error, Response.json, status]

/-- The words of the libraries that read requests. -/
structure Wording where
  malformed : Request → Malformed → String
  /-- Of a path that is not text. -/
  path : Request → String
  /-- Of a body that is taken as it is and cannot be. -/
  body : Request → BodyError → String
  deriving Inhabited

structure GatewayState (σ : Type) where
  registry : σ
  tasks : TaskQueue

structure Gateway (σ υ : Type) where
  registry : Registry σ υ
  wording : Wording
  limits : Limits := {}

/-- What an endpoint may ask of the registry. -/
inductive Operation where
  | get (id : Identifier)
  | exists (id : Identifier)
  | list (query : ArtifactQuery)
  | delete (id : Identifier)
  | addTag (request : TagRequest)
  | removeTag (request : TagRequest)
  | upload (form : Form)
  | download (id : Identifier)

inductive Plan where
  | answer (response : Response)
  | operate (operation : Operation)
  | enqueue (task : TaskRequest)

def BodyError.status : BodyError → Nat
  | .tooLarge => 413
  | .broken => 400

namespace Gateway

variable {σ υ : Type}

def requireTag (field tag : String) : Except GatewayError Unit :=
  if tag = "" then .error (.malformedRequest (.emptyTag field)) else .ok ()

/-- Content is asked for by the segments of a path, which have to be texts. -/
def readDownload (g : Gateway σ υ) (source author name : String) (request : Request) :
    Except GatewayError Plan :=
  match Percent.decodeSegment? source, Percent.decodeSegment? author,
    Percent.decodeSegment? name with
  | some source, some author, some name =>
    (request.identifierOf source author name).map fun id => .operate (.download id)
  | _, _, _ => .ok (.answer (.plain 400 (g.wording.path request)))

/-- Manifests are taken in whatever media type. -/
def readManifest (g : Gateway σ υ) (request : Request) : Except GatewayError Plan :=
  match request.body.read g.limits.maxBodySize with
  | .error cause => .ok (.answer (.plain cause.status (g.wording.body request cause)))
  | .ok bytes => (Manifest.task bytes.data.toList g.limits.manifestInputMax).map .enqueue

def read (g : Gateway σ υ) (endpoint : Endpoint) (request : Request) : Except GatewayError Plan :=
  match endpoint with
  | .ready => .ok (.answer (.empty 200))
  | .get => request.identifier.map fun id => .operate (.get id)
  | .exists => request.identifier.map fun id => .operate (.exists id)
  | .upload => (request.form g.limits).map fun form => .operate (.upload form)
  | .delete => do
    let body ← request.json g.limits DeleteRequest.decoder
    body.identifier.map fun id => .operate (.delete id)
  | .list => request.artifactQuery.map fun query => .operate (.list query)
  | .addTag => do
    let body ← request.json g.limits (TagRequest.decoder "newTag")
    (requireTag "newTag" body.tag).map fun () => .operate (.addTag body)
  | .removeTag => do
    let body ← request.json g.limits (TagRequest.decoder "tag")
    (requireTag "tag" body.tag).map fun () => .operate (.removeTag body)
  | .download source author name => g.readDownload source author name request
  | .submit => g.readManifest request

/-- A call to the registry, whose errors are sorted by whose fault they are. -/
def call {α : Type} (context : String) (call : Call σ α) (s : σ) : Except GatewayError α × σ :=
  ((call s).1.mapError (.ofRegistry context), (call s).2)

def present {α : Type} (respond : α → Response) (result : Except GatewayError α × σ) :
    Except GatewayError Response × σ :=
  (result.1.map respond, result.2)

def perform (g : Gateway σ υ) (operation : Operation) (s : σ) : Except GatewayError Response × σ :=
  match operation with
  | .get id =>
    present (fun artifact => .json 200 artifact.toJson)
      (call "getting artifact" (g.registry.get id) s)
  | .exists id =>
    present (fun _ => .empty 200) (call "checking artifact existence" (g.registry.get id) s)
  | .list query =>
    present (fun artifacts => .json 200 (Json.Writer.array (artifacts.map Artifact.toJson)))
      (call "querying artifacts" (g.registry.query query) s)
  | .delete id =>
    present (fun artifact => .json 200 artifact.toJson)
      (call "deleting artifact" (g.registry.delete id) s)
  | .addTag request =>
    present (fun () => .empty 201) (call "adding tag" (g.registry.addTag request) s)
  | .removeTag request =>
    present (fun () => .empty 200) (call "removing tag" (g.registry.removeTag request) s)
  | .upload form =>
    present (fun artifact => .json 201 artifact.toJson) (uploadForm g.registry g.limits form s)
  | .download id =>
    present
      (fun (_, content) =>
        { status := 200, contentType := some "application/octet-stream", body := content })
      (Depot.download g.registry id s)

abbrev Answer (σ : Type) := Except GatewayError Response × GatewayState σ

def enqueue (task : TaskRequest) (state : GatewayState σ) : Answer σ :=
  match state.tasks.enqueue task with
  | (.error error, tasks) =>
    (.error (.transportFailure "enqueueing task" (.queue error)), { state with tasks })
  | (.ok id, tasks) =>
    let body := ("taskId: " ++ id.text ++ "\n").toUTF8
    (.ok { status := 201, contentType := some "text/yaml", body }, { state with tasks })

def act (g : Gateway σ υ) (plan : Plan) (state : GatewayState σ) : Answer σ :=
  match plan with
  | .answer response => (.ok response, state)
  | .operate operation =>
    let (answer, registry) := g.perform operation state.registry
    (answer, { state with registry })
  | .enqueue task => enqueue task state

/-- A form as it comes to the gateway, in a request or in pieces. -/
def upload (g : Gateway σ υ) (form : Form) : GatewayState σ → Answer σ :=
  g.act (.operate (.upload form))

def run (g : Gateway σ υ) (endpoint : Endpoint) (request : Request) (state : GatewayState σ) :
    Answer σ :=
  match g.read endpoint request with
  | .error error => (.error error, state)
  | .ok plan => g.act plan state

def respond (words : Malformed → String) (answer : Answer σ) : Response × GatewayState σ :=
  match answer with
  | (.ok response, state) => (response, state)
  | (.error error, state) => (error.response words, state)

/-- Answers a request. Unknown paths and methods are answered with nothing but a status. -/
def answer (g : Gateway σ υ) (request : Request) (state : GatewayState σ) :
    Response × GatewayState σ :=
  match Route.ofPath? request.path with
  | none => (.empty 404, state)
  | some route =>
    match route.endpoint? request.method with
    | none => (.empty 405, state)
    | some endpoint =>
      let (response, state) :=
        respond (g.wording.malformed request) (g.run endpoint request state)
      (if request.method = .head then response.withoutBody else response, state)

end Gateway

end Depot
