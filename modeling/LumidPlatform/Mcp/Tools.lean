import LumidPlatform.Read.Exec

/-!
# Read endpoints as tools

A tool is made from every specification: its name is the id with underscores for dots, and a
call runs the read without the HTTP layer, on the arguments as texts. What the listing of the
tools shows beside their names (a description, a schema of the arguments) is left out, as are
the methods of the protocol that call no tool.
-/

namespace LumidPlatform.Mcp

open Read Read.Spec Read.Exec Read.Bind

/-- `McpTool`; its handler is a closure over the specification. -/
structure McpTool where
  name : Str
  spec : EndpointSpec

structure McpRegistry where
  tools : List McpTool

/-- `McpRegistry::find`. -/
def McpRegistry.find (registry : McpRegistry) (name : Str) : Option McpTool :=
  registry.tools.find? (fun tool => tool.name = name)

/-- The id, with underscores for dots. -/
def toolName (spec : EndpointSpec) : Str := spec.id.map (fun c => if c = '.' then '_' else c)

def toolFromSpec (spec : EndpointSpec) : McpTool := ⟨toolName spec, spec⟩

def registryFromSpecs (specs : List EndpointSpec) : McpRegistry := ⟨specs.map toolFromSpec⟩

/-- `Value::to_string`: the text of the compact form. -/
def toText (crates : Crates) (value : Json) : Str := (Text.fromUtf8 (crates.toVec value)).getD []

/-- The text of an argument; null has none. -/
def argText (crates : Crates) : Json → Option Str
  | .string s => some s
  | .null => none
  | other => some (toText crates other)

/-- The body of the loop of `split_args`. -/
def splitArg (crates : Crates) (args : JsonMap) (maps : HashMap Str × HashMap Str)
    (p : ParamSpec) : HashMap Str × HashMap Str :=
  match (JsonMap.get args p.name).bind (argText crates) with
  | none => maps
  | some s =>
    match p.kind with
    | .path => (maps.1.insert p.name s, maps.2)
    | .query => (maps.1, maps.2.insert p.name s)

/-- `split_args`. -/
def splitArgs (crates : Crates) (spec : EndpointSpec) (args : JsonMap) :
    HashMap Str × HashMap Str :=
  spec.params.foldl (splitArg crates args) (∅, ∅)

/-- `execute_to_value`. -/
def executeToValue (world : World) (cutOff : Bool) (spec : EndpointSpec)
    (path query : HashMap Str) : ApiResult Json :=
  if spec.selfTenant then
    .error (.forbidden ("self-tenant endpoints require an authenticated caller; not available " ++
      "on this path").str)
  else do
    let bound ← resolve world.crates spec path query
    let bytes ← produce world cutOff spec bound (idEcho path) []
    match world.crates.fromSlice bytes with
    | some value => return value
    | none => throw (.internal "response".str)

/-- The handler of a tool. -/
def McpTool.handler (tool : McpTool) (world : World) (cutOff : Bool) (args : JsonMap) :
    ApiResult Json :=
  let maps := splitArgs world.crates tool.spec args
  executeToValue world cutOff tool.spec maps.1 maps.2

/-- What a call comes to; there may be no tool of the name. -/
def callTool (world : World) (cutOff : Bool) (registry : McpRegistry) (name : Str)
    (args : JsonMap) : Option (ApiResult Json) :=
  (registry.find name).map fun tool => tool.handler world cutOff args

def toolContent (text : Str) (isError : Bool) : Json :=
  .object [("content".str, .array [.object [("type".str, .string "text".str),
    ("text".str, .string text)]]), ("isError".str, .bool isError)]

def toolResult (crates : Crates) (value : Json) : Json := toolContent (toText crates value) false

def toolError (text : Str) : Json := toolContent text true

/-- The result of `tools/call`. -/
def toolsCall (world : World) (cutOff : Bool) (registry : McpRegistry) (params : Json) : Json :=
  let get (name : Str) : Option Json := params.asObject?.bind (JsonMap.get · name)
  let name := ((get "name".str).bind Json.asStr?).getD []
  let args := ((get "arguments".str).bind Json.asObject?).getD []
  match callTool world cutOff registry name args with
  | none => toolError ("unknown tool ".str ++ world.crates.unicode.debug name)
  | some (.ok value) => toolResult world.crates value
  | some (.error error) => toolError error.toText

end LumidPlatform.Mcp
