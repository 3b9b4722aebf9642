import LumidPlatform.Realtime.Hub

/-!
# Streams

A stream is a connection of the hub with the transport that carries it, a WebSocket or a
response of server-sent events. Frames are pushed into the queue of the connection; the
transport takes them out again as long as it is open. The hub's listener fans out what is
published to the subscribers of the symbol.
-/

namespace LumidPlatform.Realtime

/-- The settings of the realtime endpoints. -/
structure Settings where
  /-- `rt_ws_lifetime_syms`. -/
  wsLifetimeSyms : Nat
  /-- `rt_sse_request_syms`. -/
  sseRequestSyms : Nat
  /-- `rt_slowclient_queue`. -/
  slowclientQueue : Nat
  /-- `rt_channel_kinds`. -/
  channelKinds : List Str
  unicode : Unicode

/-- A frame, and for a data frame when it was published; nothing is decided by that. -/
structure Item where
  frame : Json
  published : Option Nat := none

/-- `Connection::push`: a full queue loses its oldest frame. The warning about lost frames is
added only where there is room for it, and a queue that was full stays full. -/
def enqueue (maxQueue : Nat) (queue : List Item) (item : Item) : List Item :=
  if maxQueue ≤ queue.length then queue.tail ++ [item] else queue ++ [item]

/-- The frame of a published payload. -/
def dataFrame (kind : Str) (payload : Json) : Json :=
  .object [("type".str, .string kind), ("data".str, payload)]

def errorItem (code message : Str) : Item :=
  ⟨.object [("type".str, .string "error".str), ("code".str, .string code),
    ("message".str, .string message)], none⟩

/-- `Value::get` with a key. -/
def field (value : Json) (name : Str) : Option Json := value.asObject?.bind (fun m => m.get name)

/-- What the sender of `/ws/news` leaves out. -/
def notNews (frame : Json) : Bool :=
  let t := ((field frame "type".str).bind Json.asStr?).getD []
  ((field frame "data".str).isSome && decide (t ≠ "news".str)) || decide (t = "tier_change".str)

/-- `enforce_cl`. -/
def enforceCl (sub : Str) : Bool := !Text.startsWith sub "internal:".str

/-- `upper_symbols`. -/
def upperSymbols (unicode : Unicode) (message : Json) : List Str :=
  match (field message "symbols".str).bind Json.asArray? with
  | some items =>
    (((items.filterMap Json.asStr?).map Text.trim).filter (fun s => !s.isEmpty)).map
      unicode.toUppercase
  | none => []

/-- The symbols of `/quotes/stream`. -/
def symList (unicode : Unicode) (symbols : Str) : List Str :=
  ((symbols.splitOn ',').map (fun s => unicode.toUppercase (Text.trim s))).filter
    (fun s => !s.isEmpty)

/-- The payload that `replay_last` sends: its source is marked. -/
def replayed (payload : JsonMap) : Json :=
  let src := ((payload.get "source".str).bind Json.asStr?).getD []
  .object (JsonMap.insert "source".str
    (.string (if src.isEmpty then "cache".str else src ++ ":cache".str)) payload)

/-- The hub, the queue of each connection, the transports that are open, the stashed ticks, and
what the transports have sent. -/
structure World where
  hub : HubState := {}
  queues : Str → List Item := fun _ => []
  /-- The connections whose transport is open. -/
  transports : List Str := []
  /-- Those of `/ws/news`. -/
  newsOnly : List Str := []
  /-- The responses of server-sent events that are not begun, with the symbols asked for. -/
  opening : List (Str × List Str) := []
  /-- `last:tick:<key>`, with when the payload was published. -/
  lastTick : HashMap (JsonMap × Nat) := ∅
  sent : List (Str × Item) := []
  /-- The connections there have been. -/
  opened : List Str := []
  /-- The connections that were evicted, and when; nothing is decided by it. -/
  evictions : List (Str × Nat) := []
  now : Nat := 0

inductive Label where
  /-- `/ws/quotes` or `/ws/news`, up to its receiver loop. -/
  | openWs (id sub : Str) (newsOnly : Bool)
  /-- `/quotes/stream`, up to its registration. -/
  | openSse (id sub symbols : Str)
  /-- The rest of it: the stream is subscribed and its response begins. Redis answers for the
  symbols listed. -/
  | beginSse (id : Str) (cached : List Str)
  /-- A text message of a WebSocket, parsed. -/
  | message (id : Str) (parsed : Option Json) (cached : List Str)
  /-- A payload arrives on the channel of a kind and a key; the stash may fail. -/
  | publish (kind key : Str) (payload : Json) (stashed : Bool)
  | heartbeat (id ts : Str)
  /-- The transport sends what is queued. -/
  | drain (id : Str)
  /-- The transport closes. -/
  | hangUp (id : Str)
  /-- The connection is unregistered; the symbols are in the order in which the map yields
  them. -/
  | unregister (id : Str) (order : List Str)

namespace World

variable (w : World)

/-- The stream has its heartbeat, its sender and the guard that unregisters it. A response that
is given up before it begins has none of them. -/
def begun (id : Str) : Bool := (w.opening.lookup id).isNone

def push (conn : Connection) (item : Item) : World :=
  { w with
    queues := Function.update w.queues conn.id (enqueue conn.maxQueue (w.queues conn.id) item) }

/-- `on_payload`, after the parsing. -/
def publish (kind key : Str) (payload : Json) (stashed : Bool) : World :=
  let item : Item := ⟨dataFrame kind payload, some w.now⟩
  { w with
    lastTick :=
      match payload.asObject? with
      | some members =>
        if kind = "tick".str ∧ stashed = true then w.lastTick.insert key (members, w.now)
        else w.lastTick
      | none => w.lastTick
    queues := fun id =>
      match (w.hub.subscribers key).lookup id with
      | some conn => enqueue conn.maxQueue (w.queues id) item
      | none => w.queues id }

/-- `register`, and the notice to the connection that is evicted. -/
def register (conn : Connection) : World :=
  let (hub, evicted) := w.hub.register conn (enforceCl conn.sub)
  let registered : World := { w with
    hub := hub, opened := conn.id :: w.opened, transports := conn.id :: w.transports }
  match evicted with
  | some p =>
    { registered.push p (errorItem "concurrent_limit".str
        "another stream from this identity took over".str) with
      evictions := (p.id, w.now) :: w.evictions }
  | none => registered

/-- `replay_last`. -/
def replayLast (conn : Connection) (cached : List Str) (symbol : Str) : World :=
  match w.lastTick.lookup symbol with
  | some (payload, published) =>
    if symbol ∈ cached then
      w.push conn ⟨dataFrame "tick".str (replayed payload), some published⟩
    else w
  | none => w

/-- `subscribe`, with the replay of each symbol, and the tier labels. -/
def subscribe (conn : Connection) (symbols cached : List Str) : World × HashMap Str :=
  let (hub, tiers, _) := HubState.subscribe conn symbols w.hub
  (symbols.foldl (fun w symbol => w.replayLast conn cached symbol) { w with hub := hub }, tiers)

/-- The JSON form of the tier labels. -/
def tierJson (tiers : HashMap Str) : Json :=
  .object (tiers.entries.map (fun entry => (entry.1, .string entry.2)))

def strings (texts : List Str) : Json := .array (texts.map Json.string)

/-- The body of the receiver loop of `serve`. -/
def receive (settings : Settings) (conn : Connection) (parsed : Option Json) (cached : List Str) :
    World :=
  match parsed with
  | none => w.push conn (errorItem "bad_json".str "frames must be valid JSON".str)
  | some message =>
    let t := (field message "type".str).bind Json.asStr?
    if t = some "subscribe".str then
      let syms := upperSymbols settings.unicode message
      let have_ := (w.hub.lifetimeSymbols.lookup conn.id).getD 0
      if settings.wsLifetimeSyms < have_ + syms.length then
        w.push conn (errorItem "too_many_symbols".str
          ("lifetime cap is ".str ++ Text.showNat settings.wsLifetimeSyms))
      else
        let (after, tiers) := w.subscribe conn syms cached
        let symsOut := syms.filter (fun s => decide (s ∈ tiers))
        after.push conn ⟨.object (
          [("type".str, .string "subscribed".str), ("symbols".str, strings symsOut)] ++
            if conn.id ∈ w.newsOnly then [] else [("tier".str, tierJson tiers)]), none⟩
    else if t = some "unsubscribe".str then
      let (hub, removed, _) :=
        HubState.unsubscribe conn.id (upperSymbols settings.unicode message) w.hub
      ({ w with hub := hub }).push conn
        ⟨.object [("type".str, .string "unsubscribed".str), ("symbols".str, strings removed)], none⟩
    else if t = some "ping".str then
      w.push conn ⟨.object [("type".str, .string "pong".str)], none⟩
    else
      w.push conn (errorItem "bad_type".str ("unknown type ".str ++
        match t with
        | some other => "Some(".str ++ settings.unicode.debug other ++ ")".str
        | none => "None".str))

end World

/-- What happens at one label. -/
def act (settings : Settings) (w : World) : Label → Option World
  | .openWs id sub newsOnly =>
    if id ∈ w.opened then none
    else
      let opened := w.register ⟨id, sub, .ws, settings.slowclientQueue⟩
      some { opened with newsOnly := if newsOnly then id :: w.newsOnly else w.newsOnly }
  | .openSse id sub symbols =>
    if id ∈ w.opened then none
    else
      let list := symList settings.unicode symbols
      if list.isEmpty ∨ settings.sseRequestSyms < list.length then some w
      else
        let opened := w.register ⟨id, sub, .sse, settings.slowclientQueue⟩
        some { opened with opening := (id, list) :: w.opening }
  | .beginSse id cached =>
    match w.opening.lookup id, w.hub.connections.lookup id with
    | some list, some conn =>
      if id ∈ w.transports then
        let (after, tiers) := w.subscribe conn list cached
        let initial : Item := ⟨.object [("type".str, .string "subscribed".str),
          ("symbols".str, World.strings (list.filter (fun s => decide (s ∈ tiers)))),
          ("tier".str, World.tierJson tiers)], none⟩
        some { after with
          opening := w.opening.filter (fun entry => entry.1 ≠ id)
          sent := after.sent ++ [(id, initial)] }
      else none
    | _, _ => none
  | .message id parsed cached =>
    match w.hub.connections.lookup id with
    | some conn =>
      if conn.kind = .ws ∧ id ∈ w.transports then some (w.receive settings conn parsed cached)
      else none
    | none => none
  | .publish kind key payload stashed =>
    if kind ∈ settings.channelKinds then some (w.publish kind key payload stashed) else some w
  | .heartbeat id ts =>
    if w.begun id then
      (w.hub.connections.lookup id).map (fun conn =>
        w.push conn ⟨.object [("type".str, .string "heartbeat".str), ("ts".str, .string ts)], none⟩)
    else none
  | .drain id =>
    if id ∈ w.transports ∧ w.begun id = true then
      some { w with
        queues := Function.update w.queues id []
        sent := w.sent ++ ((w.queues id).filter
          (fun item => !(decide (id ∈ w.newsOnly) && notNews item.frame))).map (fun item =>
            (id, item)) }
    else none
  | .hangUp id =>
    if id ∈ w.transports then some { w with transports := w.transports.filter (· ≠ id) } else none
  | .unregister id order =>
    match w.hub.connections.lookup id with
    | some conn =>
      if (id ∉ w.transports ∧ w.begun id = true) ∧
          order.isPerm (w.hub.symbolsOf id) = true then
        some { w with hub := (HubState.unregister conn order w.hub).1 }
      else none
    | none => none

/-- One step; every step is later than the one before. -/
def World.step (settings : Settings) (w : World) (label : Label) : Option World :=
  (act settings w label).map (fun next => { next with now := w.now + 1 })

end LumidPlatform.Realtime
