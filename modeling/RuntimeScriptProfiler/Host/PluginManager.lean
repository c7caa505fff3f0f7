import Mathlib.Data.List.Basic

/-!
# The plugin manager of the host

The part of NVSE that the profiler is loaded by: the list of the loaded plugins, the lists
of their listeners, and the calls that a plugin may make of it. A plugin is known by its
handle, which is its place in the list, and the host itself has handle 0.

A handler that is sent a message may make calls in turn, so a call is a tree (`ApiCall`),
with the calls of each handler it reaches. An assertion that fails writes to address 0,
which is an exception like any other: the calls end there (`Outcome`), and who catches it
is left to the caller.

While a message walks through a list of listeners, the source keeps an iterator into it.
`exec` leaves undefined what comes after a handler that has made the list longer, and after
one that has made the vector of the lists longer: either may have moved in memory, and the
lists move with the vector that holds them. A message to one receiver ends with the call of
its handler, and meets neither.
-/

namespace RuntimeScriptProfiler

/-! ### The state of the manager -/

/-- `PluginInfo`, with `none` for a name that is `NULL`. -/
structure PluginInfo where
  infoVersion : UInt32
  name : Option String
  version : UInt32
  deriving DecidableEq

/-- A `LoadedPlugin`. -/
structure LoadedPlugin where
  info : PluginInfo
  baseOpcode : UInt32
  path : String
  deriving DecidableEq

/-- A `PluginListener`. -/
structure PluginListener (H : Type) where
  listener : ℕ
  handleMessage : H

/-- The members of `PluginManager`, with the lists of listeners by the handle of the sender. -/
structure PluginManager (H : Type) where
  plugins : List LoadedPlugin
  currentLoadingPlugin : Option LoadedPlugin
  currentPluginHandle : ℕ
  pluginListeners : List (List (PluginListener H))

/-- A message, with the name of its sender. -/
structure NVSEMessage where
  sender : String
  type : UInt32
  data : UInt32
  dataLen : UInt32

/-- Why there is no telling what the process does next. -/
inductive Abort where
  | undefinedBehavior
  deriving DecidableEq

/-- `_stricmp`: do the names differ in the case of their letters only? -/
def stricmp (s t : String) : Bool := s.toList.map Char.toLower == t.toList.map Char.toLower

/-- `kNVSEOpcodeTest`. -/
def kNVSEOpcodeTest : UInt32 := 0x2000

namespace PluginManager

variable {H : Type}

/-- The manager before any plugin is loaded. -/
def empty (H : Type) : PluginManager H := ⟨[], none, 0, []⟩

/-- A plugin of which nothing is known. -/
def unknownPlugin : LoadedPlugin := ⟨⟨0, none, 0⟩, 0, ""⟩

/-- The manager when the loading of a plugin begins: the plugin is given the next handle, which is
that of the last one again if it has been refused. -/
def loading (m : PluginManager H) : PluginManager H :=
  { m with currentLoadingPlugin := some unknownPlugin, currentPluginHandle := m.plugins.length + 1 }

/-- The manager when the loading is over. -/
def idle (m : PluginManager H) : PluginManager H :=
  { m with currentLoadingPlugin := none, currentPluginHandle := 0 }

/-- The place of the first plugin that a test holds of, counted from 1. -/
def lookupHandle (test : LoadedPlugin → Bool) (m : PluginManager H) : Option ℕ :=
  (m.plugins.findIdx? test).map (· + 1)

/-- `LookupHandleFromName`, with `none` for `kPluginHandle_Invalid`. -/
def lookupHandleFromName (pluginName : String) (m : PluginManager H) : Option ℕ :=
  if stricmp "NVSE" pluginName then some 0
  else m.lookupHandle fun plugin => plugin.info.name.any (stricmp · pluginName)

/-- `LookupHandleFromPath`. -/
def lookupHandleFromPath (pluginPath : String) (m : PluginManager H) : Option ℕ :=
  if stricmp "" pluginPath then some 0
  else m.lookupHandle fun plugin => stricmp plugin.path pluginPath

/-- `GetPluginNameFromHandle`. -/
def getPluginNameFromHandle (handle : ℕ) (m : PluginManager H) : Option String :=
  if 0 < handle ∧ handle ≤ m.plugins.length then
    m.plugins[handle - 1]?.bind fun plugin => plugin.info.name
  else if handle = 0 then some "NVSE" else none

/-- `GetInfoFromHandle`. -/
def getInfoFromHandle (handle : ℕ) (m : PluginManager H) : Option PluginInfo :=
  if 0 < handle ∧ handle ≤ m.plugins.length then m.plugins[handle - 1]?.map LoadedPlugin.info
  else none

/-- `GetNumPlugins`, the one being loaded included. -/
def getNumPlugins (m : PluginManager H) : ℕ :=
  m.plugins.length + if m.currentLoadingPlugin.isSome then 1 else 0

/-- `SetOpcodeBase`, in a release build, with what it records of the plugin being loaded, `none`
if an assertion fails. -/
def setOpcodeBase (opcode : UInt32) (m : PluginManager H) : Option (PluginManager H) :=
  if opcode < 0x8000 ∧ kNVSEOpcodeTest ≤ opcode then
    m.currentLoadingPlugin.map fun plugin =>
      -- the default opcode base identifies no plugin
      if opcode = kNVSEOpcodeTest then m
      else if plugin.baseOpcode = 0 then
        { m with currentLoadingPlugin := some { plugin with baseOpcode := opcode } }
      else m
  else none

/-! ### Listeners -/

/-- Is a listener on a list? -/
def registered (listener : ℕ) (ls : List (PluginListener H)) : Bool :=
  ls.any fun l => l.listener == listener

/-- A listener at the end of a list, if it is not on it. -/
def register (listener : ℕ) (handler : H) (ls : List (PluginListener H)) :
    List (PluginListener H) :=
  if registered listener ls then ls else ls ++ [⟨listener, handler⟩]

/-- The loop of `RegisterListener` over all lists. Where the listener is on a list already,
`continue` goes on to the next without counting this one. -/
def registerAll (listener : ℕ) (handler : H) :
    ℕ → List (List (PluginListener H)) → List (List (PluginListener H))
  | _, [] => []
  | idx, ls :: rest =>
    if idx ≠ 0 ∧ idx ≠ listener then
      if registered listener ls then ls :: registerAll listener handler idx rest
      else (ls ++ [⟨listener, handler⟩]) :: registerAll listener handler (idx + 1) rest
    else ls :: registerAll listener handler (idx + 1) rest

/-- The lists, made long enough for the plugins there are, and five more. -/
def reserve (m : PluginManager H) : PluginManager H :=
  let numPlugins := m.getNumPlugins + 1
  if m.pluginListeners.length < numPlugins then
    { m with pluginListeners := m.pluginListeners
        ++ List.replicate (numPlugins + 5 - m.pluginListeners.length) [] }
  else m

/-- `RegisterListener`, with `none` for arguments that are `NULL`. -/
def registerListener (listener : ℕ) (sender : Option String) (handler : Option H)
    (m : PluginManager H) : Bool × PluginManager H :=
  let m := m.reserve
  match handler with
  | none => (false, m)
  | some handler =>
    if m.getNumPlugins < listener then (false, m)
    else
      match sender with
      | some sender =>
        match m.lookupHandleFromName sender with
        | none => (false, m)
        | some target =>
          (true, { m with
            pluginListeners := m.pluginListeners.modify target (register listener handler) })
      | none =>
        (true, { m with pluginListeners := registerAll listener handler 0 m.pluginListeners })

/-- The listeners to a sender. -/
def listenersOf (sender : ℕ) (m : PluginManager H) : List (PluginListener H) :=
  m.pluginListeners.getD sender []

/-- May an iterator into the list of a sender be dangling, now that the manager is `m'`? It may
if the list has got longer, or the vector of the lists has: the room that either has kept
for more is nowhere promised. -/
def movedBy (sender : ℕ) (m m' : PluginManager H) : Bool :=
  (m'.listenersOf sender).length != (m.listenersOf sender).length ||
    m'.pluginListeners.length != m.pluginListeners.length

/-- Whom `Dispatch_Message` calls, with the name of the sender, and whether it calls on after
the first: all listeners to the sender, or the receiver if it is one of them. -/
def recipients (sender : ℕ) (receiver : Option String) (m : PluginManager H) :
    Option (String × List (PluginListener H)) :=
  if sender < m.pluginListeners.length then
    match receiver with
    | none => (m.getPluginNameFromHandle sender).map fun name => (name, m.listenersOf sender)
    | some receiver => do
      let target ← m.lookupHandleFromName receiver
      let name ← m.getPluginNameFromHandle sender
      pure (name, ((m.listenersOf sender).find? fun l => l.listener == target).toList)
  else none

end PluginManager

/-! ### Calls -/

/-- A call that a plugin makes of the manager, or an exception of its own. A message comes with
what each handler that it reaches calls in turn. -/
inductive ApiCall (H : Type) where
  | setOpcodeBase (opcode : UInt32)
  | registerListener (listener : ℕ) (sender : Option String) (handler : Option H)
  | dispatchMessage (sender : ℕ) (messageType data dataLen : UInt32) (receiver : Option String)
      (replies : List (List (ApiCall H)))
  | fault

/-- A handler that has been called with a message, and what has been delivered before it has
returned: `nested` is what its own calls have sent. -/
inductive Delivery (H : Type) where
  | mk (listener : PluginListener H) (msg : NVSEMessage) (nested : List (Delivery H))

namespace Delivery

variable {H : Type}

/-- Who has been called with what. -/
def call : Delivery H → PluginListener H × NVSEMessage
  | mk listener msg _ => (listener, msg)

/-- What has been delivered meanwhile. -/
def nested : Delivery H → List (Delivery H)
  | mk _ _ nested => nested

@[simp] theorem call_mk (l : PluginListener H) (msg : NVSEMessage) (ds : List (Delivery H)) :
    (mk l msg ds).call = (l, msg) := rfl

@[simp] theorem nested_mk (l : PluginListener H) (msg : NVSEMessage) (ds : List (Delivery H)) :
    (mk l msg ds).nested = ds := rfl

end Delivery

/-- What has been delivered, in order. -/
abbrev Deliveries (H : Type) := List (Delivery H)

/-- What comes of calls: is an exception on its way, and what has been done till then? -/
structure Outcome (H : Type) where
  raised : Bool
  manager : PluginManager H
  delivered : Deliveries H

/-- An outcome, after messages that have been delivered before. -/
def Outcome.after {H : Type} (ds : Deliveries H) (r : Outcome H) : Outcome H :=
  { r with delivered := ds ++ r.delivered }

namespace ApiCall

variable {H : Type}

mutual

/-- One call. -/
def exec : ApiCall H → PluginManager H → Except Abort (Outcome H)
  | setOpcodeBase opcode, m =>
    match m.setOpcodeBase opcode with
    | none => .ok ⟨true, m, []⟩
    | some m => .ok ⟨false, m, []⟩
  | registerListener listener sender handler, m =>
    .ok ⟨false, (m.registerListener listener sender handler).2, []⟩
  | dispatchMessage sender messageType data dataLen receiver replies, m =>
    match m.recipients sender receiver with
    | none => .ok ⟨false, m, []⟩
    | some (name, ls) =>
      execReplies sender receiver.isNone ⟨name, messageType, data, dataLen⟩ replies ls m
  | fault, m => .ok ⟨true, m, []⟩

/-- Some calls, one after the other. -/
def execAll : List (ApiCall H) → PluginManager H → Except Abort (Outcome H)
  | [], m => .ok ⟨false, m, []⟩
  | c :: cs, m =>
    match exec c m with
    | .error e => .error e
    | .ok r => if r.raised then .ok r else (execAll cs r.manager).map (.after r.delivered)

/-- The handlers of some listeners are called with a message, and make their calls. -/
def execReplies (sender : ℕ) (toAll : Bool) (msg : NVSEMessage) :
    List (List (ApiCall H)) → List (PluginListener H) → PluginManager H → Except Abort (Outcome H)
  | [], ls, m => .ok ⟨false, m, ls.map fun l => .mk l msg []⟩
  | _ :: _, [], m => .ok ⟨false, m, []⟩
  | cs :: replies, l :: ls, m =>
    match execAll cs m with
    | .error e => .error e
    | .ok r =>
      if r.raised then .ok ⟨true, r.manager, [.mk l msg r.delivered]⟩
      -- what has got longer may have moved away from under the iterator
      else if toAll = true ∧ m.movedBy sender r.manager = true then .error .undefinedBehavior
      else
        (execReplies sender toAll msg replies ls r.manager).map (.after [.mk l msg r.delivered])

end

end ApiCall

end RuntimeScriptProfiler
