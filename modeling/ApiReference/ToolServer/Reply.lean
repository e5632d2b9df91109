import ApiReference.Rendering.Search
import ApiReference.Service.Context
import ApiReference.Service.Search
import ApiReference.ToolServer.Refusal
import ApiReference.ToolServer.Tool

/-!
# Replies of the tool server

The server says who it is, lists its tools and calls them. A call is answered with the page of a
response.
-/

namespace ApiReference.ToolServer
open ApiReference.Json (Value)
open ApiReference.Rendering (Limits contextText searchText)

/-- Why a call is not answered with a result. -/
inductive Fault where
  | refused (r : Refusal)
  | unusableArguments
  | unknownTool
  | unknownMethod
  deriving DecidableEq, Repr

/-- The number that stands for the kind of a fault. -/
def Fault.code : Fault → Int
  | refused (.invalidInput _) => -32602
  | refused (.transport _) => -32603
  | unusableArguments => -32602
  | unknownTool => -32602
  | unknownMethod => -32601

def Fault.message : Fault → Text
  | refused r => r.toolMessage
  | unusableArguments => "failed to deserialize parameters".toList
  | unknownTool => "tool not found".toList
  | unknownMethod => "method not found".toList

/-- What a call is answered with. -/
inductive Reply where
  | result (v : Value)
  | fault (f : Fault)

/-- The server's account of itself. -/
def greeting : Value :=
  .ofFields
    [("protocolVersion", .ofString "2024-11-05"),
     ("capabilities", .ofFields [("tools", .object [])]),
     ("serverInfo",
      .ofFields [("name", .ofString "augments-mcp"), ("version", .ofString "0.1.0")]),
     ("instructions", .ofString
      ("Up-to-date API signatures for JavaScript/TypeScript frameworks, read from the packages' " ++
        "own type declarations. Use get_api_context for one API and search_apis to discover APIs " ++
        "by keyword."))]

/-- The reply to a request without parameters. -/
def answer (method : Text) : Reply :=
  match String.ofList method with
  | "initialize" => .result greeting
  | "ping" => .result (.object [])
  | "tools/list" => .result (.ofFields [("tools", .array (Tool.all.map Tool.toJson))])
  | "prompts/list" => .result (.ofFields [("prompts", .array [])])
  | "resources/list" => .result (.ofFields [("resources", .array [])])
  | "resources/templates/list" => .result (.ofFields [("resourceTemplates", .array [])])
  | _ => .fault .unknownMethod

def pageResult (page : Text) : Reply :=
  .result (.ofFields
    [("content", .array [.ofFields [("type", .ofString "text"), ("text", .string page)]]),
     ("isError", .bool false)])

variable {σ : Type}

/-- The bounds on the pages of a service. -/
def limits (s : Service σ) : Limits := .ofSettings s.settings.context

/-- A call of a tool that was found. -/
def callTool (s : Service σ) (tool : Tool) (arguments : Value) (session : Session σ) :
    Reply × Session σ :=
  match tool with
  | .context =>
    match contextRequest? arguments with
    | none => (.fault .unusableArguments, session)
    | some request =>
      match queryRefusal? request.query with
      | some r => (.fault (.refused r), session)
      | none =>
        let (response, session) := s.context request session
        (pageResult (contextText (limits s) response), session)
  | .search =>
    match searchRequest? arguments with
    | none => (.fault .unusableArguments, session)
    | some request =>
      match queryRefusal? request.query with
      | some r => (.fault (.refused r), session)
      | none =>
        let (response, session) := s.search request session
        (pageResult (searchText (limits s) response), session)

/-- The reply to a call of a tool by its name. -/
def call (s : Service σ) (tool : Text) (arguments : Value) (session : Session σ) :
    Reply × Session σ :=
  match Tool.ofName? tool with
  | some tool => callTool s tool arguments session
  | none => (.fault .unknownTool, session)

/-- A description of the server for developers. -/
def describe (limits : Limits) : Text :=
  "AugmentsMcpServer \x7b service: \"<ApiContextService>\", format: FormatOptions ".toList ++
    "\x7b max_chars: ".toList ++ Text.ofNat limits.chars ++ ", related_type_max_chars: ".toList ++
    Text.ofNat limits.signatureChars ++ " \x7d \x7d".toList

/-- The envelope of a reply to the message with an identifier. -/
def envelope (id : Value) : Reply → Value
  | .result v => .ofFields [("jsonrpc", .ofString "2.0"), ("id", id), ("result", v)]
  | .fault f =>
    .ofFields
      [("jsonrpc", .ofString "2.0"), ("id", id),
       ("error", .ofFields [("code", .ofInt f.code), ("message", .string f.message)])]

/-- The reply to a message. A message without an identifier is not replied to. -/
def handle (s : Service σ) (message : Value) (session : Session σ) : Option Value × Session σ :=
  let method := ((message.field? "method".toList).bind Value.asText?).getD []
  match message.field? "id".toList with
  | none => (none, session)
  | some id =>
    if method == "tools/call".toList then
      let params := (message.field? "params".toList).getD (.object [])
      let tool := ((params.field? "name".toList).bind Value.asText?).getD []
      let arguments := (params.field? "arguments".toList).getD (.object [])
      let (reply, session) := call s tool arguments session
      (some (envelope id reply), session)
    else (some (envelope id (answer method)), session)

end ApiReference.ToolServer
